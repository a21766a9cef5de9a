import Ls8.Proofs.MachineRoutine
import Ls8.Proofs.UntakenRequests
import Mathlib.Algebra.Ring.Int.Defs

/-
  What a machine does without regard to its intervals.

  The intervals of a machine decide how many firings of the timer, and how many requests of a host
  that sleeps, come between its ticks.  If every tick finds the processor inert, none of that
  matters: whatever the clock does, the machine is where so many ticks in a row would have taken it
  (`AfterTicks`).  Two machines that have both halted are where the ticks of the same program end,
  and a processor that has halted stays where it is, so they are in the same place.

  It is enough to know of one machine that its ticks find the processor inert: then so do the ticks
  in a row, and with them those of the other machine.

  The host may do with a text whatever it wants as long as that does not depend on the time it has
  slept (`Environment.Timeless`).

  Main statement: `untaken_requests_do_not_matter`, for histories and for machines.
-/

namespace Ls8

variable {τ σ ε γ : Type}

/-! ## Ticks in a row -/

namespace Rig

variable {outlet : Outlet σ ε} {rig : Rig σ}

/-- So many ticks in a row. -/
def ticks (outlet : Outlet σ ε) (rig : Rig σ) : Nat → Rig σ
  | 0 => rig
  | k + 1 => (rig.ticks outlet k).tick outlet

/-- A tick that finds the processor halted does nothing. -/
theorem tick_of_halted (h : rig.cpu.processor.halted = true) : rig.tick outlet = rig := by
  rw [tick, Cpu.tick_of_halted outlet h]
  simp

/-- Ticks in a row end where the processor halts. -/
theorem ticks_of_halted {j k : Nat} (h : (rig.ticks outlet j).cpu.processor.halted = true)
    (hjk : j ≤ k) : rig.ticks outlet k = rig.ticks outlet j := by
  induction hjk with
  | refl => rfl
  | step _ ih =>
    rw [ticks, ih]
    exact tick_of_halted h

end Rig

/-! ## Hosts to which time does not matter -/

/-- **A host whose answers do not depend on the time it has slept:** up to a likeness of its states,
    it answers a text in the same way before a sleep and after it. -/
structure Environment.Timeless (env : Environment τ σ ε) (R : σ → σ → Prop) : Prop where
  equivalence : Equivalence R
  output : env.output.Respects R
  sleep : ∀ s d, R s (env.sleep s d).1

/-- A host that answers each text in one way, such as with no request at all, is timeless. -/
theorem Environment.timeless_of_answers (env : Environment τ σ ε)
    (answers : String → List (Request ε))
    (h : ∀ s text, (env.output.deliver s text).2 = answers text) :
    env.Timeless fun _ _ => True where
  equivalence := ⟨fun _ => trivial, fun _ => trivial, fun _ _ => trivial⟩
  output := fun s t text _ => ⟨trivial, by rw [h, h]⟩
  sleep := fun _ _ => trivial

/-- **Where so many ticks in a row would have taken a rig,** each of them finding the processor
    inert. -/
def AfterTicks (env : Environment τ σ ε) (R : σ → σ → Prop) (origin rig : Rig σ) : Prop :=
  ∃ k, (origin.ticks env.output k).Alike R rig ∧ ∀ j < k, (origin.ticks env.output j).cpu.Inert

theorem Rig.Alike.refl {R : σ → σ → Prop} (hR : Equivalence R) (rig : Rig σ) : rig.Alike R rig :=
  ⟨.refl _, hR.refl _, rfl⟩

namespace AfterTicks

variable {env : Environment τ σ ε} {R : σ → σ → Prop} {origin rig other : Rig σ}

theorem refl (henv : env.Timeless R) (rig : Rig σ) : AfterTicks env R rig rig :=
  ⟨0, .refl henv.equivalence rig, fun _ hj => absurd hj (Nat.not_lt_zero _)⟩

theorem of_alike (henv : env.Timeless R) (h : AfterTicks env R origin rig)
    (hother : rig.Alike R other) : AfterTicks env R origin other := by
  obtain ⟨k, hk, hbefore⟩ := h
  exact ⟨k, hk.trans henv.equivalence hother, hbefore⟩

/-- One more tick. -/
theorem tick (henv : env.Timeless R) (h : AfterTicks env R origin rig)
    (hinert : rig.cpu.Inert) : AfterTicks env R origin (rig.tick env.output) := by
  obtain ⟨k, hk, hbefore⟩ := h
  have hkinert : (origin.ticks env.output k).cpu.Inert := hk.cpu.inert_iff.mp hinert
  refine ⟨k + 1, hk.tick henv.output hkinert, fun j hj => ?_⟩
  rcases Nat.lt_or_eq_of_le (Nat.lt_succ_iff.mp hj) with hlt | rfl
  · exact hbefore j hlt
  · exact hkinert

/-- If the processor has halted, all ticks in a row find it inert. -/
theorem inert_ticks (h : AfterTicks env R origin rig)
    (hhalted : rig.cpu.processor.halted = true) (j : Nat) :
    (origin.ticks env.output j).cpu.Inert := by
  obtain ⟨k, hk, hbefore⟩ := h
  rcases Nat.lt_or_ge j k with hlt | hge
  · exact hbefore j hlt
  · have hstop : (origin.ticks env.output k).cpu.processor.halted = true :=
      hk.cpu.processor.halted.symm.trans hhalted
    rw [Rig.ticks_of_halted hstop hge]
    exact .inl hstop

/-- **Two rigs that have halted** after ticks from the same origin are alike. -/
theorem alike_of_halted (henv : env.Timeless R) (h : AfterTicks env R origin rig)
    (h' : AfterTicks env R origin other) (hhalted : rig.cpu.processor.halted = true)
    (hhalted' : other.cpu.processor.halted = true) : rig.Alike R other := by
  obtain ⟨j, hj, _⟩ := h
  obtain ⟨k, hk, _⟩ := h'
  have hjstop := hj.cpu.processor.halted.symm.trans hhalted
  have hkstop := hk.cpu.processor.halted.symm.trans hhalted'
  -- whichever of the two counts is smaller, nothing happens after it
  have hsame : origin.ticks env.output j = origin.ticks env.output k := by
    rcases Nat.le_total j k with hle | hle
    · exact (Rig.ticks_of_halted hjstop hle).symm
    · exact Rig.ticks_of_halted hkstop hle
  rw [hsame] at hj
  exact (hj.symm henv.equivalence).trans henv.equivalence hk

end AfterTicks

/-! ## What the routines of a machine leave -/

namespace Rig

variable {R : σ → σ → Prop}

/-- A tick on a clock leaves what a tick leaves. -/
theorem alike_ticked (hR : Equivalence R) (outlet : Outlet σ ε) (rig : Rig σ) (n : Nat) :
    (rig.tick outlet).Alike R (rig.ticked outlet n) :=
  ⟨.refl _, hR.refl _, rig.visible_ticked outlet n⟩

/-- Serving requests changes pending lines only, and shows nothing. -/
theorem alike_served (hR : Equivalence R) (rig : Rig σ) (n : Nat) (requests : List (Request ε)) :
    rig.Alike R (rig.served (fun _ => true) n requests) := by
  have hcpu : rig.cpu.processor.Alike (rig.cpu.processor.serve requests).1 := by
    rw [Processor.serve_frame]
    exact Processor.alike_withStatus _ _
  refine ⟨⟨hcpu, rfl, rfl, rfl⟩, hR.refl _, ?_⟩
  have hquiet : (rig.cpu.processor.serve requests).2.1.filter Effect.isVisible = [] := by
    rw [List.filter_eq_nil_iff]
    intro e he
    rw [Processor.serve_effects requests _ e he]
    exact Bool.false_ne_true
  rw [served, visible_listing, filter_isVisible_listed, hquiet, List.append_nil]
  rfl

end Rig

/-! ## The log of a machine -/

namespace Machine

variable {env : Environment τ σ ε} {R : σ → σ → Prop}

/-- The property that a run keeps: if all ticks so far, or all ticks in a row, find the processor
    inert, the rig is where ticks in a row would have taken it. -/
def Tracks (env : Environment τ σ ε) (R : σ → σ → Prop) (origin : Rig σ)
    (s : Clock.Log Beat (Rig σ) × Rig σ) : Prop :=
  (∀ e ∈ s.1, e.1 = .tick → e.2.cpu.Inert) ∨
    (∀ k, (origin.ticks env.output k).cpu.Inert) → AfterTicks env R origin s.2

section Tracks
variable {origin rig other : Rig σ} {log : Clock.Log Beat (Rig σ)}

theorem Tracks.of_alike (henv : env.Timeless R) (h : Tracks env R origin (log, rig))
    (hother : rig.Alike R other) : Tracks env R origin (log, other) :=
  fun hinert => (h hinert).of_alike henv hother

/-- A longer log asks for more. -/
theorem Tracks.log_append (h : Tracks env R origin (log, rig)) (more : Clock.Log Beat (Rig σ)) :
    Tracks env R origin (log ++ more, rig) :=
  fun hinert => h (hinert.imp_left fun hlog e he => hlog e (List.mem_append_left more he))

/-- A tick that is in the log finds the processor inert, or all ticks in a row do. -/
theorem Tracks.tick (henv : env.Timeless R) (h : Tracks env R origin (log, rig))
    (hmem : (.tick, rig) ∈ log) : Tracks env R origin (log, rig.tick env.output) := by
  intro hinert
  have hbefore : AfterTicks env R origin rig := h hinert
  refine hbefore.tick henv ?_
  rcases hinert with hlog | hall
  · exact hlog (.tick, rig) hmem rfl
  · obtain ⟨k, hk, _⟩ := hbefore
    exact hk.cpu.inert_iff.mpr (hall k)

end Tracks

variable [Add τ] [Zero τ] [LE τ] [LT τ] [DecidableLE τ] [DecidableLT τ]

/-- **The host of a machine's clock keeps track** of the ticks in a row. -/
theorem keeps_tracks (henv : env.Timeless R) (origin : Rig σ) :
    (clockHost env).logged.Keeps (Tracks env R origin) := by
  have hequiv := henv.equivalence
  refine keeps_logged ?_ ?_ ?_ ?_
  · -- the tick is logged with the rig it finds, and then carried out
    intro log rig n htracks
    exact ((htracks.log_append _).tick henv (List.mem_append_right log List.mem_cons_self)).of_alike
      henv (rig.alike_ticked hequiv env.output n)
  · intro log rig htracks
    exact (htracks.log_append _).of_alike henv
      ⟨rig.cpu.alike_withPending Cpu.timerLine, hequiv.refl _, rfl⟩
  · -- a sleep may raise requests
    intro log rig d n htracks
    have hslept : rig.Alike R { rig with host := (env.sleep rig.host d).1 } :=
      ⟨.refl _, henv.sleep rig.host d, rfl⟩
    exact htracks.of_alike henv (hslept.trans hequiv (Rig.alike_served hequiv _ n _))
  · -- a notice of the clock is not visible
    intro log rig e htracks
    refine htracks.of_alike henv ⟨.refl _, hequiv.refl _, ?_⟩
    rw [Rig.visible_listing]
    exact List.append_nil _

variable [Sub τ]

/-- The run of a machine keeps track of the ticks in a row. -/
theorem tracks_run (henv : env.Timeless R) (fuel : Nat) (m : Machine τ σ) :
    Tracks env R m.rig (m.firings env fuel, (m.run env fuel).1.rig) :=
  keeps_run (keeps_tracks henv m.rig) fuel fun _ => .refl henv m.rig

end Machine

/-! ## The main statement -/

/-- **Requests that are not taken do not matter.**

    Two histories of ticks and requests from rigs that are alike stay alike, after as many ticks in
    one as in the other, if every tick of the first history finds the processor inert.

    Two machines that differ in their intervals only, in a host to which time does not matter, end
    alike if both halt and every tick of the first one's run finds the processor inert. -/
theorem untaken_requests_do_not_matter {τ σ ε : Type} [Add τ] [Sub τ] [Zero τ] [LE τ] [LT τ]
    [DecidableLE τ] [DecidableLT τ] :
    (∀ (outlet : Outlet σ ε) (r s : Rig σ), r.Alike Eq s → ∀ as bs : List HostAction,
      (∀ a ∈ as, a.IsTickOrRequest) → (∀ b ∈ bs, b.IsTickOrRequest) → r.Undisturbed outlet as →
      ∀ as' bs', as' <+: as → bs' <+: bs → as'.count .tick = bs'.count .tick →
        (r.run outlet as').Alike Eq (s.run outlet bs')) ∧
    (∀ (env : Environment τ σ ε) (R : σ → σ → Prop), env.Timeless R →
      ∀ (m : Machine τ σ) (tick timer tick' timer' : τ) (fuel fuel' : Nat),
        let m₁ := { m with tickInterval := tick, timerInterval := timer }
        let m₂ := { m with tickInterval := tick', timerInterval := timer' }
        (∀ e ∈ m₁.firings env fuel, e.1 = .tick → e.2.cpu.Inert) →
        (m₁.run env fuel).1.rig.cpu.processor.halted = true →
        (m₂.run env fuel').1.rig.cpu.processor.halted = true →
        (m₁.run env fuel).1.rig.Alike R (m₂.run env fuel').1.rig) := by
  constructor
  · rintro outlet r s h as bs has hbs hinert as' bs' ⟨more, rfl⟩ ⟨more', rfl⟩ hticks
    refine Rig.run_alike outlet.respects_eq ⟨fun _ => rfl, Eq.symm, Eq.trans⟩ h
      (fun a ha => has a (List.mem_append_left _ ha)) (fun b hb => hbs b (List.mem_append_left _ hb))
      hticks hinert.of_prefix
  · intro env R henv m tick timer tick' timer' fuel fuel' m₁ m₂ hinert hhalted hhalted'
    have h₁ : AfterTicks env R m.rig (m₁.run env fuel).1.rig :=
      Machine.tracks_run henv fuel m₁ (.inl hinert)
    have h₂ : AfterTicks env R m.rig (m₂.run env fuel').1.rig :=
      Machine.tracks_run henv fuel' m₂ (.inr (h₁.inert_ticks hhalted))
    exact h₁.alike_of_halted henv h₂ hhalted hhalted'

/-- A program that puts out a 5 and halts, under two histories and on two machines, one of which has
    the timer fire more often than it ticks.  The host of the machines requests an interrupt in each
    sleep. -/
theorem untaken_requests_do_not_matter_to_print :
    let outlet : Outlet Int String := .silent Int String
    let rig : Rig Int := {
      cpu := { processor := { memory := .holding [0x04, 0x00, 0x05, 0x06, 0x00, 0x1b] } }
      host := 0 }
    let env : Environment Int Int String := ⟨outlet, id, fun s d => (s + d, [.raise 3])⟩
    let m : Machine Int Int := { rig, tickInterval := 2, timerInterval := 3 }
    (rig.run outlet [.tick, .raise 3, .timer, .tick]).Alike Eq
      (rig.run outlet [.raise 7, .tick, .tick, .raise 9]) ∧
    (m.run env 30).1.rig.Alike (fun _ _ => True)
      (Machine.run env 40 { m with tickInterval := 5, timerInterval := 1 }).1.rig := by
  intro outlet rig env m
  obtain ⟨hhistories, hmachines⟩ := @untaken_requests_do_not_matter Int Int String _ _ _ _ _ _ _
  constructor
  · exact hhistories outlet rig rig ⟨.refl _, rfl, rfl⟩ [.tick, .raise 3, .timer, .tick, .tick]
      [.raise 7, .tick, .tick, .raise 9, .tick] (by decide) (by decide) (by decide +kernel)
      [.tick, .raise 3, .timer, .tick] [.raise 7, .tick, .tick, .raise 9] (by decide) (by decide)
      (by decide)
  · have henv : env.Timeless fun _ _ => True := env.timeless_of_answers (fun _ => []) fun _ _ => rfl
    exact hmachines env _ henv m 2 3 5 1 30 40 (by decide +kernel) (by decide +kernel)
      (by decide +kernel)

end Ls8
