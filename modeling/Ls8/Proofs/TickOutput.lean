import Ls8.Proofs.StepFailure
import Ls8.Proofs.TableRefinement

/-
  What a tick puts out.

  Only two operations put out a text, each at most one: the value of a register, as a number or as a
  character.  Which text it is can be read off the processor before the tick (`Cpu.text?`); whether the
  host then takes it well, refuses it or fails does not matter, since it has been handed over by then.

  Main statement: the texts that a tick puts out are this one, if there is one (`texts_tick`).
-/

namespace Ls8

variable {σ ε : Type}

namespace Processor

variable {p q : Processor} {op : Operation} {text : Option String}

/-- **The text that an operation puts out.** -/
def text? (p : Processor) : Operation → Option String
  | .prn => (p.named? 1).map fun r => Text.decimal (p.registers.get r).toNat
  | .pra => (p.named? 1).map fun r => String.singleton (Char.ofNat (p.registers.get r).toNat)
  | _ => none

/-- A row puts out the text of its operation. -/
theorem Row.text_eq (h : Row p op q text) : text = p.text? op := by
  cases h with
  | prn h1 | pra h1 => rw [text?, named?_eq_some_iff.mpr h1, Option.map_some]
  | _ => rfl

/-- **An operation that faults puts out nothing:** one with a text succeeds. -/
theorem text?_of_error {f : Fault} (h : execute op p = .error f q) : p.text? op = none := by
  have hsucceeds {r : Processor} {s : String} (hrow : Row p op r (some s)) : False := by
    obtain ⟨out, r', hok, _⟩ := execute_of_row hrow
    rw [h] at hok
    cases hok
  cases op with
  | prn | pra =>
    rw [text?, Option.map_eq_none_iff, Option.eq_none_iff_forall_ne_some]
    intro r hr
    have h1 := named?_eq_some_iff.mp hr
    first | exact hsucceeds (.prn h1) | exact hsucceeds (.pra h1)
  | _ => rfl

end Processor

namespace Cpu

variable {outlet : Outlet σ ε} {c : Cpu} {host : σ} {op : Operation}

/-- **The operation that the next tick executes,** if it executes one. -/
def operation? (c : Cpu) : Option Operation :=
  if c.processor.halted then none
  else if c.processor.nextLine?.isSome then none
  else c.instruction?.map (·.operation)

theorem operation?_eq_some_iff : c.operation? = some op ↔ c.Executes op := by
  rw [operation?, Executes, ← Option.not_isSome_iff_eq_none]
  split
  · simp_all
  · split <;> simp_all

/-- **The text that the next tick puts out.** -/
def text? (c : Cpu) : Option String := c.operation? >>= c.processor.text?

/-- The end of a tick that faults adds no output. -/
theorem filterMap_output?_faulted (effects : List Effect) (f : Fault) :
    (c.faulted host effects f : Turn σ ε).effects.filterMap Effect.output? =
      effects.filterMap Effect.output? := by
  simp [effects_faulted, Effect.output?]

/-- **An instruction puts out its text.** -/
theorem texts_perform (outlet : Outlet σ ε) (c : Cpu) (i : Instruction) (host : σ) :
    (c.perform outlet i host).effects.filterMap Effect.output? =
      (c.processor.text? i.operation).toList := by
  -- the one text of an instruction has been handed over, however the host takes it
  have htext {s : String} {width : Nat} {q r : Processor} {effects : List Effect} {ending : Ending ε}
      (h : Processor.execute i.operation c.processor = .ok (.text s width) q)
      (hserve : q.serve (outlet.deliver host s).2 = (r, effects, ending)) :
      (c.fetched i :: .output s :: effects).filterMap Effect.output? =
        (c.processor.text? i.operation).toList := by
    have hquiet := Processor.filterMap_serve (rfl : Effect.output? .stopClock = none)
      (outlet.deliver host s).2 q
    rw [hserve] at hquiet
    rw [← (Processor.row_of_execute h).text_eq]
    show s :: effects.filterMap Effect.output? = [s]
    rw [hquiet]
  refine perform_cases ?_ ?_ ?_ ?_ ?_
  · intro f q h
    rw [filterMap_output?_faulted, Processor.text?_of_error h]
    rfl
  · intro q h
    rw [filterMap_output?_completed, ← (Processor.row_of_execute h).text_eq]
    rfl
  · intro s width q r effects h hserve
    rw [filterMap_output?_completed]
    exact htext h hserve
  · intro s width q r effects f h hserve
    rw [filterMap_output?_faulted]
    exact htext h hserve
  · exact fun s width q r effects reason h hserve => htext h hserve

/-- **A tick puts out its text,** and nothing else. -/
theorem texts_tick (outlet : Outlet σ ε) (c : Cpu) (host : σ) :
    (c.tick outlet host).effects.filterMap Effect.output? = c.text?.toList := by
  refine tick_cases ?_ ?_ ?_ ?_ ?_ ?_
  · intro hhalted
    rw [text?, operation?, if_pos hhalted]
    rfl
  · intro line q hrun hline _
    rw [text?, operation?, hrun, hline]
    rfl
  · intro line f q hrun hline _
    rw [filterMap_output?_faulted, text?, operation?, hrun, hline]
    rfl
  · intro hrun hidle hcovers
    rw [filterMap_output?_faulted, text?, operation?, hrun, hidle, instruction?,
      Memory.get?_eq_none_iff.mpr hcovers]
    rfl
  · intro opcode hrun hidle hbyte hentry
    have hnone : c.instruction? = none := by rwa [instruction?, hbyte]
    rw [filterMap_output?_faulted, text?, operation?, hrun, hidle, hnone]
    rfl
  · intro opcode i hrun hidle hbyte hentry
    have hi : c.instruction? = some i := instruction?_eq_some_iff.mpr ⟨opcode, hbyte, hentry⟩
    rw [texts_perform, text?, operation?, hrun, hidle, hi]
    rfl

end Cpu

end Ls8
