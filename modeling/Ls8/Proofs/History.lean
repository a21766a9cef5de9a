import Ls8.Machine
import Ls8.Proofs.Tick

/-
  Histories: what a host may do to a processor, in any order.

  A host ticks the processor, writes into its memory, requests interrupts, lets the timer fire, and
  sets registers.  A history is a list of such actions.  What is refused changes nothing, and the
  history goes on; so does it after a failure of the host's own that left a tick.  What holds at its
  end and not at its beginning was brought about by one of its actions (`exists_first`).

  Serving the host's requests during a tick touches the pending lines only (`serve_frame`) and does
  nothing to the outside but stop the clock (`serve_effects`).
-/

namespace Ls8

variable {σ ε : Type}

/-- What a host may do to a processor. -/
inductive HostAction where
  | tick
  | poke (a value : Int)
  | raise (line : Int)
  | timer
  | setRegister (index value : Int)
  | setSp (value : Int)
  deriving DecidableEq, Repr

/-! ## What is seen of the effects -/

/-- The text of an output. -/
def Effect.output? : Effect → Option String
  | .output s => some s
  | _ => none

/-- The text of a report. -/
def Effect.report? : Effect → Option String
  | .report s => some s
  | _ => none

/-- Whether an effect is an output or the report of a fault. -/
def Effect.isVisible : Effect → Bool
  | .output _ | .report _ => true
  | .stopClock | .diagnostic _ => false

namespace Rig

/-- What was put out and reported so far. -/
def visible (rig : Rig σ) : List Effect := rig.effects.toList.filter Effect.isVisible

theorem visible_did (rig : Rig σ) (e : Effect) :
    (rig.did e).visible = rig.visible ++ [e].filter Effect.isVisible := by
  simp [visible, did, List.filter_append]

/-- The texts of the faults that were reported so far. -/
def reports (rig : Rig σ) : List String := rig.effects.toList.filterMap Effect.report?

/-! ## Actions -/

/-- One tick, whose effects follow those before. -/
def tick (outlet : Outlet σ ε) (rig : Rig σ) : Rig σ :=
  let turn := rig.cpu.tick outlet rig.host
  ⟨turn.cpu, turn.host, rig.effects ++ turn.effects⟩

/-- The rig with another processor, unless it was refused. -/
def withCpu {α : Type} (rig : Rig σ) : Except α Cpu → Rig σ
  | .ok c => { rig with cpu := c }
  | .error _ => rig

/-- **One action of the host.** -/
def act (outlet : Outlet σ ε) (rig : Rig σ) : HostAction → Rig σ
  | .tick => rig.tick outlet
  | .poke a value => rig.withCpu (rig.cpu.poke a value)
  | .raise line => rig.withCpu (rig.cpu.raise line)
  | .timer => { rig with cpu := rig.cpu.timer }
  | .setRegister index value =>
    match Processor.setRegister index (UInt8.ofInt value) rig.cpu.processor with
    | .ok _ p => { rig with cpu := rig.cpu.withProcessor p }
    | .error _ _ => rig
  | .setSp value =>
    { rig with
      cpu := rig.cpu.withProcessor (rig.cpu.processor.withRegister .sp (UInt8.ofInt value)) }

/-- **A history:** actions one after the other. -/
def run (outlet : Outlet σ ε) (rig : Rig σ) (actions : List HostAction) : Rig σ :=
  actions.foldl (act outlet) rig

variable {outlet : Outlet σ ε}

@[simp] theorem run_cons (rig : Rig σ) (a : HostAction) (actions : List HostAction) :
    rig.run outlet (a :: actions) = (rig.act outlet a).run outlet actions := rfl

theorem run_append (rig : Rig σ) (actions more : List HostAction) :
    rig.run outlet (actions ++ more) = (rig.run outlet actions).run outlet more :=
  List.foldl_append

/-- **What every action keeps, every history keeps.** -/
theorem run_keeps {P : Rig σ → Prop} (hact : ∀ rig a, P rig → P (rig.act outlet a)) {rig : Rig σ}
    (h : P rig) (actions : List HostAction) : P (rig.run outlet actions) := by
  induction actions generalizing rig with
  | nil => exact h
  | cons a actions ih => exact ih (hact rig a h)

/-- **A property that a history ends with and did not begin with** was brought about by one of its
    actions, before which it never held. -/
theorem exists_first {P : Rig σ → Prop} {rig : Rig σ} (hnot : ¬ P rig) (actions : List HostAction)
    (hend : P (rig.run outlet actions)) :
    ∃ before a after, actions = before ++ a :: after ∧
      (∀ part, part <+: before → ¬ P (rig.run outlet part)) ∧
      P ((rig.run outlet before).act outlet a) := by
  induction actions generalizing rig with
  | nil => exact absurd hend hnot
  | cons a actions ih =>
    by_cases hfirst : P (rig.act outlet a)
    · refine ⟨[], a, actions, rfl, fun part hpart => ?_, hfirst⟩
      rw [List.prefix_nil.mp hpart]
      exact hnot
    · obtain ⟨before, a', after, rfl, hbefore, hthen⟩ := ih hfirst hend
      refine ⟨a :: before, a', after, rfl, fun part hpart => ?_, hthen⟩
      cases part with
      | nil => exact hnot
      | cons a'' part =>
        obtain ⟨rfl, hpart⟩ := List.cons_prefix_cons.mp hpart
        exact hbefore part (List.cons_prefix_cons.mp hpart).2

end Rig

namespace Processor

variable {p q : Processor} {effects : List Effect}

/-- What an accepted request for an interrupt leaves. -/
theorem raise_eq_ok_iff {line : Int} :
    p.raise line = .ok q ↔ ∃ r, register? line = some r ∧ q = p.withPending r := by
  rw [raise]
  cases register? line <;> simp [eq_comm]

/-- **Serving requests changes pending lines only.** -/
theorem serve_frame (requests : List (Request ε)) (p : Processor) :
    (p.serve requests).1 = { p with
      registers := p.registers.set .status ((p.serve requests).1.registers.get .status) } := by
  have hself (p : Processor) : p = { p with
      registers := p.registers.set .status (p.registers.get .status) } := by
    rw [Registers.set_eq_self rfl]
  induction requests generalizing p with
  | nil => exact hself p
  | cons request rest ih =>
    cases request with
    | stopClock => exact ih p
    | fault f => exact hself p
    | fail reason => exact hself p
    | raise line =>
      rw [serve]
      cases hraise : p.raise line with
      | error e => exact hself p
      | ok q =>
        obtain ⟨r, _, rfl⟩ := raise_eq_ok_iff.mp hraise
        rw [ih (p.withPending r)]
        simp [withPending, withRegister]

/-- Serving requests leaves the program counter. -/
theorem pc_serve {requests : List (Request ε)} {effects : List Effect} {ending : Ending ε}
    (h : p.serve requests = (q, effects, ending)) : q.pc = p.pc := by
  have hframe := congrArg pc (serve_frame requests p)
  rwa [h] at hframe

/-- Serving requests does not look at the program counter. -/
theorem serve_withPc (requests : List (Request ε)) (p : Processor) (a : Int) :
    Processor.serve requests { p with pc := a } =
      ({ (p.serve requests).1 with pc := a }, (p.serve requests).2) := by
  induction requests generalizing p with
  | nil => rfl
  | cons request rest ih =>
    cases request with
    | stopClock => rw [serve, serve, ih]
    | fault f => rfl
    | fail reason => rfl
    | raise line =>
      rw [serve, serve, raise, raise]
      cases register? line with
      | none => rfl
      | some r => exact ih (p.withPending r)

/-- The one thing that serving requests does to the outside is to stop the clock. -/
theorem serve_effects (requests : List (Request ε)) (p : Processor) :
    ∀ e ∈ (p.serve requests).2.1, e = .stopClock := by
  induction requests generalizing p with
  | nil => exact fun _ he => nomatch he
  | cons request rest ih =>
    cases request with
    | fault f => exact fun _ he => nomatch he
    | fail reason => exact fun _ he => nomatch he
    | stopClock =>
      intro e he
      rcases List.mem_cons.mp he with rfl | he
      · rfl
      · exact ih p e he
    | raise line =>
      rw [serve]
      cases p.raise line with
      | error e => exact fun _ he => nomatch he
      | ok q => exact ih q

/-- Serving requests shows nothing, except where a stop of the clock is shown. -/
theorem filterMap_serve {α : Type} {show? : Effect → Option α} (hstop : show? .stopClock = none)
    (requests : List (Request ε)) (p : Processor) :
    (p.serve requests).2.1.filterMap show? = [] := by
  rw [List.filterMap_eq_nil_iff]
  intro e he
  rw [serve_effects requests p e he]
  exact hstop

end Processor

end Ls8
