import Ls8.Proofs.MachineRoutine

/-
  Histories of a machine: what a host may do to it, in any order.

  A host loads programs into a machine, writes into its memory, requests interrupts or lets the timer
  do so, ticks the processor by hand, and runs the machine on its clock as often as it wants.  Each
  action is answered; what is refused, and what fails, is an answer like any other, and the history
  goes on.
-/

namespace Ls8

variable {τ σ ε : Type}

/-- What a host may do to a machine. -/
inductive MachineAction where
  | tick
  /-- Runs the machine with so much fuel. -/
  | run (fuel : Nat)
  | poke (a value : Int)
  | raise (line : Int)
  | timer
  /-- Loads a program file with these bytes and this name. -/
  | load (bytes : List UInt8) (name : String)
  deriving DecidableEq, Repr

/-- What a machine answers. -/
inductive Answer (ε : Type) where
  /-- Work on the clock has returned, unless it was interrupted. -/
  | worked (interruption : Option (Machine.Interruption ε))
  | poked (result : Except MemoryError Unit)
  | raised (result : Except OperandError Unit)
  | loaded (result : Except LoadError ProgramImage)

namespace Machine

/-- One action, given how to tick, to run, and to load. -/
def actBy (tick : Machine τ σ → Machine τ σ × Option (Interruption ε))
    (run : Nat → Machine τ σ → Machine τ σ × Option (Interruption ε))
    (load : Machine τ σ → List UInt8 → String → Machine τ σ × Except LoadError ProgramImage)
    (m : Machine τ σ) : MachineAction → Machine τ σ × Answer ε
  | .tick => ((tick m).1, .worked (tick m).2)
  | .run fuel => ((run fuel m).1, .worked (run fuel m).2)
  | .poke a value =>
    ({ m with rig := m.rig.withCpu (m.rig.cpu.poke a value) },
      .poked ((m.rig.cpu.poke a value).map fun _ => ()))
  | .raise line =>
    ({ m with rig := m.rig.withCpu (m.rig.cpu.raise line) },
      .raised ((m.rig.cpu.raise line).map fun _ => ()))
  | .timer => (m.withCpu m.rig.cpu.timer, .worked none)
  | .load bytes name => ((load m bytes name).1, .loaded (load m bytes name).2)

/-- **A history:** actions one after the other, with their answers. -/
def history (act : Machine τ σ → MachineAction → Machine τ σ × Answer ε) (m : Machine τ σ) :
    List MachineAction → Machine τ σ × List (Answer ε)
  | [] => (m, [])
  | a :: rest =>
    let (m, answer) := act m a
    let (m, answers) := history act m rest
    (m, answer :: answers)

section History
variable {act : Machine τ σ → MachineAction → Machine τ σ × Answer ε} {m : Machine τ σ}

@[simp] theorem fst_history_cons (a : MachineAction) (rest : List MachineAction) :
    (m.history act (a :: rest)).1 = ((act m a).1.history act rest).1 := rfl

theorem fst_history_append (actions more : List MachineAction) :
    (m.history act (actions ++ more)).1 = ((m.history act actions).1.history act more).1 := by
  induction actions generalizing m with
  | nil => rfl
  | cons a rest ih => exact ih

/-- **What every action keeps, every history keeps.** -/
theorem history_keeps {P : Machine τ σ → Prop} (hact : ∀ m a, P m → P (act m a).1) (hm : P m)
    (actions : List MachineAction) : P (m.history act actions).1 := by
  induction actions generalizing m with
  | nil => exact hm
  | cons a rest ih => exact ih (hact m a hm)

/-- **Actions that commute with a function of the machine** and give the same answers do so along every
    history. -/
theorem history_map {act' : Machine τ σ → MachineAction → Machine τ σ × Answer ε}
    {f : Machine τ σ → Machine τ σ} (hact : ∀ m a, act' (f m) a = (f (act m a).1, (act m a).2))
    (m : Machine τ σ) (actions : List MachineAction) :
    (f m).history act' actions = (f (m.history act actions).1, (m.history act actions).2) := by
  induction actions generalizing m with
  | nil => rfl
  | cons a rest ih => simp only [history, hact, ih]

end History

variable [Add τ] [Sub τ] [Zero τ] [LE τ] [LT τ] [DecidableLE τ] [DecidableLT τ]

/-- **One action of the host.**  A tick fires nothing on the clock and needs no fuel. -/
def act (env : Environment τ σ ε) : Machine τ σ → MachineAction → Machine τ σ × Answer ε :=
  actBy (perform env 0 (tick env)) (run env) load

/-- The machine after a tick by hand. -/
theorem act_tick (env : Environment τ σ ε) (m : Machine τ σ) :
    (m.act env .tick).1 = { m with
      clock := m.clock.stopIf
        (decide (.stopClock ∈ (m.rig.cpu.tick env.output m.rig.host).effects))
      rig := m.rig.ticked env.output m.clock.dispatched } :=
  congrArg Prod.fst (perform_tick env 0 m)

end Machine

end Ls8
