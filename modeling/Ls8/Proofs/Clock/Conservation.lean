import Ls8.Proofs.Clock.DefinedOrder
import Ls8.Proofs.Clock.Journal

/-
  No source is lost and none is duplicated.

  A clock may be used again from inside a pass: a firing may stop it, add to it, run it or fail, and
  it may catch the failure of what it did so and go on.  The schedule survives all of this because
  the next firing of a source is scheduled before its command is run.  So whenever somebody has
  control the events are one for each source that has been added since the last stop, also for the
  source whose command is being run (`Conserved`).

  1. **Control.**  In the course of an activity a routine has control again and again: at each of
     its own steps, and through the activities that it starts, in the routines of the firings and
     sleeps in them (`Control`).  Where a routine has caught a failure it has control again, in the
     state in which the failure left the clock.  A caller outside performs one routine after the
     other and goes on also after a failure (`Session`).  Both are put in terms of runs that keep a
     journal, from which one reads the sources added since the last stop.

  2. **Order.**  An event with an undefined due time is never due, so it leaves the schedule only
     when the clock is stopped.  Hence it is enough for the heap order that the events which are
     there are defined, whatever there was before.

  Main statement: `sources_conserved`.
-/

namespace Ls8.Clock

variable {τ κ ω ε : Type}
variable [LE τ] [LT τ] [DecidableLE τ] [DecidableLT τ]

/-! ## One event for each source -/

/-- **The events are one for each of the sources,** with different numbers that have all been given
    out, and in the order of a heap if their due times are defined. -/
structure Conserved (c : Clock τ κ) (sources : List (Source τ κ)) : Prop where
  sources : (c.events.toList.map (·.source)).Perm sources
  numbers : (c.events.toList.map (·.sequence)).Nodup
  below : ∀ e ∈ c.events.toList, e.sequence < c.sequence
  heap : (∀ e ∈ c.events.toList, e.Defined) → c.events.IsHeap Event.before

namespace Conserved

variable {c d : Clock τ κ} {sources : List (Source τ κ)}

/-- A clock without events. -/
theorem of_empty (h : c.events = .empty) : Conserved c [] where
  sources := by simp [h, Heap.toList]
  numbers := by simp [h, Heap.toList]
  below := by simp [h, Heap.toList]
  heap := by
    intro _
    rw [h]
    trivial

/-- Without sources there are no events. -/
theorem events_eq_empty (h : Conserved c []) : c.events = .empty := by
  have hnil := List.map_eq_nil_iff.mp h.sources.eq_nil
  cases hevents : c.events with
  | empty => rfl
  | node l e r => simp [hevents, Heap.toList] at hnil

/-- Whether a clock is running and how much it has fired does not matter. -/
theorem congr (h : Conserved c sources) (hevents : d.events = c.events)
    (hsequence : d.sequence = c.sequence) : Conserved d sources := by
  obtain ⟨h1, h2, h3, h4⟩ := h
  constructor
  · rwa [hevents]
  · rwa [hevents]
  · rwa [hevents, hsequence]
  · rwa [hevents]

/-- Scheduling a source. -/
theorem schedule (laws : TimeLaws τ) (h : Conserved c sources) (source : Source τ κ) (due : τ) :
    Conserved (c.schedule source due) (source :: sources) := by
  have hperm := events_schedule c source due
  constructor
  · exact (hperm.map fun e : Event τ κ => e.source).trans (h.sources.cons source)
  · rw [(hperm.map (·.sequence)).nodup_iff, List.map_cons, List.nodup_cons]
    refine ⟨fun hmem => ?_, h.numbers⟩
    obtain ⟨e, he, hsame⟩ := List.mem_map.mp hmem
    have hbelow := h.below e he
    exact absurd hsame (Nat.ne_of_lt hbelow)
  · intro e he
    show e.sequence < c.sequence + 1
    rcases List.mem_cons.mp (hperm.mem_iff.mp he) with rfl | he
    · exact Nat.lt_succ_self _
    · exact Nat.lt_succ_of_lt (h.below e he)
  · intro hall
    have hold : ∀ e ∈ c.events.toList, e.Defined := by
      intro e he
      exact hall e (hperm.mem_iff.mpr (List.mem_cons_of_mem _ he))
    exact Heap.isHeap_push_on (ordersOn_before laws) (hall _ (hperm.mem_iff.mpr List.mem_cons_self))
      hold (h.heap hold)

/-- Taking out an event that is due. -/
theorem popped (laws : TimeLaws τ) (h : Conserved c sources) {e : Event τ κ}
    {rest : Heap (Event τ κ)} {now : τ} (hpop : c.events.pop? Event.before = some (e, rest))
    (hdue : e.due ≤ now) :
    Conserved { c with events := rest } (rest.toList.map (·.source)) ∧
      (e.source :: rest.toList.map (·.source)).Perm sources := by
  have hperm := Heap.toList_of_pop? hpop
  have hmem : ∀ x ∈ rest.toList, x ∈ c.events.toList := by
    intro x hx
    exact hperm.mem_iff.mp (List.mem_cons_of_mem e hx)
  refine ⟨⟨.refl _, ?_, fun x hx => h.below x (hmem x hx), fun hall => ?_⟩, ?_⟩
  · have hnodup := (hperm.map (·.sequence)).nodup_iff.mpr h.numbers
    rw [List.map_cons, List.nodup_cons] at hnodup
    exact hnodup.2
  · -- what was due is defined, so all events were defined before
    have hold : ∀ x ∈ c.events.toList, x.Defined := by
      intro x hx
      rcases List.mem_cons.mp (hperm.mem_iff.mpr hx) with rfl | hx
      · exact (laws.defined _ _ hdue).1
      · exact hall x hx
    exact Heap.isHeap_pop?_on (ordersOn_before laws) hold (h.heap hold) hpop
  · exact (hperm.map (·.source)).trans h.sources

variable [Add τ]

/-- **Taking out an event that is due and scheduling it again** keeps one event for each source. -/
theorem reschedule (laws : TimeLaws τ) (h : Conserved c sources) {e : Event τ κ}
    {rest : Heap (Event τ κ)} {now : τ} (hpop : c.events.pop? Event.before = some (e, rest))
    (hdue : e.due ≤ now) : Conserved (c.reschedule e rest now) sources := by
  obtain ⟨hrest, hperm⟩ := h.popped laws hpop hdue
  obtain ⟨h1, h2, h3, h4⟩ := hrest.schedule laws e.source (nextDue e now)
  exact ⟨h1.trans hperm, h2, h3, h4⟩

/-- Adding a source. -/
theorem add [Zero τ] (laws : TimeLaws τ) (h : Conserved c sources) {source : Source τ κ} {now : τ}
    (hadd : c.add now source = .ok d) : Conserved d (sources ++ [source]) := by
  rw [Clock.add] at hadd
  split at hadd
  · cases hadd
  · obtain rfl := Except.ok.inj hadd
    obtain ⟨h1, h2, h3, h4⟩ := h.schedule laws source (now + source.interval)
    exact ⟨h1.trans (List.perm_append_singleton source sources).symm, h2, h3, h4⟩

end Conserved

/-! ## One event for each source in the journal -/

/-- The events are one for each source that the journal lists. -/
def Accounted (s : Clock τ κ × Journaled τ κ ω) : Prop := Conserved s.1 s.2.1.sources

theorem Accounted.stop {s : Clock τ κ × Journaled τ κ ω} (n : Nat) (w : ω) :
    Accounted (s.1.stop, ((note (.told (.stopped n)) s.2).1, w)) := by
  show Conserved _ (Journal.sources (s.2.1 ++ [_]))
  rw [Journal.sources_snoc]
  exact .of_empty rfl

/-- What is noted besides additions and stops does not matter. -/
theorem Accounted.note {c d : Clock τ κ} {s : Journaled τ κ ω} (h : Accounted (c, s))
    (happening : ω → Happening τ κ ω) (w : ω)
    (hnote : ∀ sources, Journal.sourcesAfter sources (happening s.2) = sources)
    (hevents : d.events = c.events) (hsequence : d.sequence = c.sequence) :
    Accounted (d, ((Clock.note happening s).1, w)) := by
  show Conserved d (Journal.sources (s.1 ++ [happening s.2]))
  rw [Journal.sources_snoc, hnote]
  exact h.congr hevents hsequence

variable [Add τ] [Zero τ]

theorem Accounted.add (laws : TimeLaws τ) {c d : Clock τ κ} {s : Journaled τ κ ω}
    (h : Accounted (c, s)) {source : Source τ κ} {now : τ} (hadd : c.add now source = .ok d) :
    Accounted (d, Clock.note (.added source) s) := by
  show Conserved d (Journal.sources (s.1 ++ [_]))
  rw [Journal.sources_snoc]
  exact Conserved.add laws h hadd

/-- **A routine keeps one event for each source,** if whatever it has the clock do does. -/
theorem sustains_accounted (laws : TimeLaws τ) (host : Host τ κ ω ε) (r : Routine τ κ ω ε)
    {pending : Work τ κ (Journaled τ κ ω) ε Nat} {started : Work τ κ (Journaled τ κ ω) ε Unit}
    (hpending : Sustains Accounted pending) (hstarted : Sustains Accounted started) :
    Sustains Accounted (r.journaled.run host.journaled pending started) := by
  induction r with
  | done => exact fun s hs => hs
  | fail reason => exact fun s hs => hs
  | read next ih => exact fun s hs => ih s.2.2 s hs
  | write w next ih => exact fun s hs => ih (s.1, (s.2.1, w)) hs
  | add source next ih =>
    rintro ⟨c, s⟩ hs
    show Accounted (stateLeft ((Routine.add source _).run host.journaled pending started (c, s)))
    cases hadd : c.add (host.journaled.now s) source with
    | ok d =>
      rw [run_add_of_ok hadd]
      exact ih _ (hs.add laws hadd)
    | error e =>
      rw [run_add_of_error hadd]
      exact hs
  | runPending next ih => exact hpending.bind ih
  | start next ih => exact hstarted.bind fun _ => ih
  | stop next ih => exact fun s hs => ih _ (Accounted.stop (s := s) s.1.dispatched _)
  | attempt part catches next ihpart ihnext => exact ihpart.attempted ihnext

/-- A host that keeps a journal keeps one event for each source. -/
theorem sustains_journaled (laws : TimeLaws τ) (host : Host τ κ ω ε) :
    host.journaled.Sustains Accounted where
  reschedule c s e rest now hpop hdue hs := Conserved.reschedule laws hs hpop hdue
  count c s hs := hs.congr rfl rfl
  startWith _ hwork := hwork.startWith
    (fun c _ hs => hs.note (.told (.started c.events.size)) _ (fun _ => rfl) rfl rfl)
    fun _ _ hs => hs.congr rfl rfl
  fire k pending started hpending hstarted := by
    intro s hs
    exact sustains_accounted laws host (host.fire k) hpending hstarted _
      (hs.note (.fired k) s.2.2 (fun _ => rfl) rfl rfl)
  sleep d pending started hpending hstarted := by
    intro s hs
    exact sustains_accounted laws host (host.sleep d) hpending hstarted _
      (hs.note (.slept d) s.2.2 (fun _ => rfl) rfl rfl)

/-! ## Control -/

variable [Sub τ]

/-- What a clock may be in the middle of. -/
inductive Activity (τ κ ω ε : Type) where
  /-- A routine is run. -/
  | routine (r : Routine τ κ ω ε)
  /-- What is due at a time is fired. -/
  | pass (now : τ)
  /-- The clock is run until it is stopped. -/
  | loop

/-- **In the course of an activity** that began in state `s`, a routine has control in state `t`.

    It has control at each of its own steps.  Whatever it has the clock do passes control to the
    routines of firings and sleeps, and gives it back when it is done.  If it fails, control comes
    back to the routine that catches the failure. -/
inductive Control (host : Host τ κ ω ε) : Nat → Activity τ κ ω ε →
    Clock τ κ × Journaled τ κ ω → Clock τ κ × Journaled τ κ ω → Prop where
  | here {fuel r s} : Control host fuel (.routine r) s s
  | read {fuel next c s t} (h : Control host fuel (.routine (next s.2)) (c, s) t) :
    Control host fuel (.routine (.read next)) (c, s) t
  | write {fuel w next c s t} (h : Control host fuel (.routine next) (c, (s.1, w)) t) :
    Control host fuel (.routine (.write w next)) (c, s) t
  | add {fuel source next c d s t} (hadd : c.add (host.now s.2) source = .ok d)
    (h : Control host fuel (.routine next) (d, note (.added source) s) t) :
    Control host fuel (.routine (.add source next)) (c, s) t
  | stop {fuel next c s t}
    (h : Control host fuel (.routine next)
      (c.stop, host.journaled.told (.stopped c.dispatched) s) t) :
    Control host fuel (.routine (.stop next)) (c, s) t
  | runs {fuel next c s t} (h : Control host fuel (.pass (host.now s.2)) (c, s) t) :
    Control host fuel (.routine (.runPending next)) (c, s) t
  | ran {fuel next s n s' t} (hran : runPending host.journaled fuel s = .ok n s')
    (h : Control host fuel (.routine (next n)) s' t) :
    Control host fuel (.routine (.runPending next)) s t
  | starts {fuel next c s t} (hidle : c.running = false)
    (h : Control host fuel .loop
      ({ c with running := true }, host.journaled.told (.started c.events.size) s) t) :
    Control host fuel (.routine (.start next)) (c, s) t
  | started {fuel next s s' t} (hdone : Clock.start host.journaled fuel s = .ok () s')
    (h : Control host fuel (.routine next) s' t) : Control host fuel (.routine (.start next)) s t
  | attempts {fuel part catches next s t} (h : Control host fuel (.routine part) s t) :
    Control host fuel (.routine (.attempt part catches next)) s t
  | attempted {fuel part catches next s s' t}
    (hdone : part.journaled.run host.journaled (runPending host.journaled fuel)
      (Clock.start host.journaled fuel) s = .ok () s')
    (h : Control host fuel (.routine (next none)) s' t) :
    Control host fuel (.routine (.attempt part catches next)) s t
  | catches {fuel part catches next s i s' t}
    (hfailed : part.journaled.run host.journaled (runPending host.journaled fuel)
      (Clock.start host.journaled fuel) s = .error i s')
    (hcaught : i.isCaught catches = true)
    (h : Control host fuel (.routine (next (some i))) s' t) :
    Control host fuel (.routine (.attempt part catches next)) s t
  | fires {fuel now c s e rest t} (hpop : c.events.pop? Event.before = some (e, rest))
    (hdue : e.due ≤ now)
    (h : Control host fuel (.routine (host.fire e.source.command))
      (c.reschedule e rest now, note (.fired e.source.command) s) t) :
    Control host (fuel + 1) (.pass now) (c, s) t
  | fired {fuel now c s e rest d s' t} (hpop : c.events.pop? Event.before = some (e, rest))
    (hdue : e.due ≤ now)
    (hdone : (host.journaled.fire e.source.command).run host.journaled
      (runPending host.journaled fuel) (Clock.start host.journaled fuel)
      (c.reschedule e rest now, s) = .ok () (d, s'))
    (h : Control host fuel (.pass now) (d.countFiring, s') t) :
    Control host (fuel + 1) (.pass now) (c, s) t
  | passes {fuel c s t} (hgo : (c.running && !c.events.isEmpty) = true)
    (h : Control host fuel (.pass (host.now s.2)) (c, s) t) :
    Control host (fuel + 1) .loop (c, s) t
  | sleeps {fuel c s n d s' delay t}
    (hgo : (c.running && !c.events.isEmpty) = true)
    (hpassed : Clock.pass host.journaled fuel (host.now s.2) 0 (c, s) = .ok n (d, s'))
    (hrun : d.running = true) (hdelay : d.delay? (host.now s'.2) = some delay) (hpos : 0 < delay)
    (h : Control host fuel (.routine (host.sleep delay)) (d, note (.slept delay) s') t) :
    Control host (fuel + 1) .loop (c, s) t
  | slept {fuel c s n d s' delay s'' t}
    (hgo : (c.running && !c.events.isEmpty) = true)
    (hpassed : Clock.pass host.journaled fuel (host.now s.2) 0 (c, s) = .ok n (d, s'))
    (hrun : d.running = true) (hdelay : d.delay? (host.now s'.2) = some delay) (hpos : 0 < delay)
    (hdone : (host.journaled.sleep delay).run host.journaled (runPending host.journaled fuel)
      (Clock.start host.journaled fuel) (d, s') = .ok () s'')
    (h : Control host fuel .loop s'' t) : Control host (fuel + 1) .loop (c, s) t
  | hurries {fuel c s n d s' delay t}
    (hgo : (c.running && !c.events.isEmpty) = true)
    (hpassed : Clock.pass host.journaled fuel (host.now s.2) 0 (c, s) = .ok n (d, s'))
    (hrun : d.running = true) (hdelay : d.delay? (host.now s'.2) = some delay) (hpos : ¬ 0 < delay)
    (h : Control host fuel .loop (d, s') t) : Control host (fuel + 1) .loop (c, s) t

/-- **What a caller outside may come to** by performing one routine after the other on a new clock,
    whether they succeed or fail. -/
inductive Session (host : Host τ κ ω ε) : Clock τ κ × Journaled τ κ ω → Prop where
  | fresh (w : ω) : Session host ({}, ([], w))
  | perform {s} (h : Session host s) (fuel : Nat) (r : Routine τ κ ω ε) :
    Session host (stateLeft (performJournaled host fuel r s))

/-- **Somebody has control:** the caller outside, or a routine to whatever depth. -/
def HasControl (host : Host τ κ ω ε) (t : Clock τ κ × Journaled τ κ ω) : Prop :=
  ∃ s fuel r, Session host s ∧ Control host fuel (.routine r) s t

/-- What is sustained holds whenever somebody has control, by induction on how control came to
    him. -/
theorem Control.accounted (laws : TimeLaws τ) {host : Host τ κ ω ε} {fuel : Nat}
    {activity : Activity τ κ ω ε} {s t : Clock τ κ × Journaled τ κ ω}
    (h : Control host fuel activity s t) (hs : Accounted s) : Accounted t := by
  have runs (fuel : Nat) := sustains_pass_loop (sustains_journaled laws host) fuel
  have starts (fuel : Nat) : Sustains Accounted (Clock.start host.journaled fuel) :=
    (sustains_journaled laws host).startWith _ (runs fuel).2
  have pending (fuel : Nat) : Sustains Accounted (runPending host.journaled fuel) :=
    fun s hs => (runs fuel).1 _ 0 s hs
  have parts (fuel : Nat) (r : Routine τ κ ω ε) :=
    sustains_accounted laws host r (pending fuel) (starts fuel)
  induction h with
  | here => exact hs
  | read _ ih => exact ih hs
  | write _ ih => exact ih hs
  | add hadd _ ih => exact ih (hs.add laws hadd)
  | stop _ ih => exact ih (Accounted.stop (s := (_, _)) _ _)
  | runs _ ih => exact ih hs
  | ran hran _ ih => exact ih ((pending _).of_ok hran hs)
  | starts _ _ ih => exact ih (hs.note (.told (.started _)) _ (fun _ => rfl) rfl rfl)
  | started hdone _ ih => exact ih ((starts _).of_ok hdone hs)
  | attempts _ ih => exact ih hs
  | attempted hdone _ ih => exact ih ((parts _ _).of_ok hdone hs)
  | catches hfailed _ _ ih => exact ih ((parts _ _).of_error hfailed hs)
  | fires hpop hdue _ ih =>
    have hagain : Accounted (_, _) := Conserved.reschedule laws hs hpop hdue
    exact ih (hagain.note (.fired _) _ (fun _ => rfl) rfl rfl)
  | fired hpop hdue hdone _ ih =>
    have hagain : Accounted (_, _) := Conserved.reschedule laws hs hpop hdue
    have hfired : Accounted (_, _) :=
      ((sustains_journaled laws host).fire _ _ _ (pending _) (starts _)).of_ok hdone hagain
    exact ih (hfired.congr rfl rfl)
  | passes _ _ ih => exact ih hs
  | sleeps _ hpassed _ _ _ _ ih =>
    have hpass := ((runs _).1 _ 0).of_ok hpassed hs
    exact ih (hpass.note (.slept _) _ (fun _ => rfl) rfl rfl)
  | slept _ hpassed _ _ _ hdone _ ih =>
    have hpass := ((runs _).1 _ 0).of_ok hpassed hs
    exact ih (((sustains_journaled laws host).sleep _ _ _ (pending _) (starts _)).of_ok hdone hpass)
  | hurries _ hpassed _ _ _ _ ih => exact ih (((runs _).1 _ 0).of_ok hpassed hs)

/-- A caller outside finds one event for each source. -/
theorem Session.accounted (laws : TimeLaws τ) {host : Host τ κ ω ε}
    {s : Clock τ κ × Journaled τ κ ω} (h : Session host s) : Accounted s := by
  induction h with
  | fresh w => exact .of_empty rfl
  | perform _ fuel r ih =>
    refine sustains_perform (sustains_journaled laws host) (fun _ _ hpending hstarted => ?_) fuel _ ih
    exact sustains_accounted laws host r hpending hstarted

/-- A caller outside finds the clock not running. -/
theorem Session.running {host : Host τ κ ω ε} {s : Clock τ κ × Journaled τ κ ω}
    (h : Session host s) : s.1.running = false := by
  induction h with
  | fresh w => rfl
  | perform _ fuel r ih =>
    refine sustains_perform (host_sustains_idle host.journaled)
      (fun _ _ hpending hstarted => ?_) fuel _ ih
    exact sustains_idle host.journaled r.journaled hpending hstarted

/-! ## The main statement -/

/-- **Conservation of sources.**  Whenever a routine or the caller outside has control, the events
    are one for each source that was added since the last stop, with different numbers below the
    counter; and if their due times are defined, the first event comes before all others.  So there
    are no events after a stop until a source is added.  A clock that was not running is not running
    after it has been started, however that ended, and whenever the caller outside has control. -/
theorem sources_conserved (laws : TimeLaws τ) (host : Host τ κ ω ε) :
    (∀ c journal w, HasControl host (c, (journal, w)) →
      (c.events.toList.map (·.source)).Perm journal.sources ∧
      (c.events.toList.map (·.sequence)).Nodup ∧
      (∀ e ∈ c.events.toList, e.sequence < c.sequence) ∧
      ((∀ e ∈ c.events.toList, e.Defined) → ∀ first, c.events.top? = some first →
        ∀ e ∈ c.events.toList, e = first ∨ first.before e = true) ∧
      ∀ before n v after, journal = before ++ .told (.stopped n) v :: after →
        (∀ source v', .added source v' ∉ after) → c.events = .empty) ∧
    (∀ fuel (s : Clock τ κ × ω), s.1.running = false →
      (stateLeft (Clock.start host fuel s)).1.running = false) ∧
    ∀ s, Session host s → s.1.running = false := by
  refine ⟨?_, fun fuel s hs => running_startWith _ hs, fun s hs => hs.running⟩
  rintro c journal w ⟨s, fuel, r, hsession, hcontrol⟩
  have haccounted : Conserved c journal.sources := hcontrol.accounted laws (hsession.accounted laws)
  refine ⟨haccounted.sources, haccounted.numbers, haccounted.below, ?_, ?_⟩
  · intro hall first hfirst
    exact before_of_top? laws (haccounted.heap hall) hall haccounted.numbers hfirst
  · rintro before n v after rfl hafter
    rw [Journal.sources_of_stopped hafter] at haccounted
    exact haccounted.events_eq_empty

/-- A source whose first firing adds another one and fails: the caller finds both scheduled, and the
    clock not running. -/
theorem sources_conserved_of_failing_command :
    let host : Host Seconds Unit Seconds String := {
      now := id
      fire := fun _ => .add ⟨"extra", 3.0, ()⟩ (.fail "broken")
      sleep := fun d => .read fun now => .write (now + d) .done
      told := fun _ now => now }
    let add : Routine Seconds Unit Seconds String := .add ⟨"beat", 0.5, ()⟩ (.start .done)
    let failed := stateLeft (performJournaled host 3 add ({}, ([], 1.0)))
    failed.1.running = false ∧
      (failed.1.events.toList.map fun e => e.source.name).Perm ["beat", "extra"] := by
  intro host add failed
  have hsession : Session host failed := .perform (.fresh 1.0) 3 add
  obtain ⟨hcontrol, _, hidle⟩ := sources_conserved Seconds.timeLaws_seconds host
  obtain ⟨hsources, _⟩ := hcontrol failed.1 failed.2.1 failed.2.2 ⟨failed, 0, .done, hsession, .here⟩
  refine ⟨hidle failed hsession, ?_⟩
  have hnames : failed.2.1.sources.map (·.name) = ["beat", "extra"] := by decide +kernel
  have hmapped := hsources.map fun source : Source Seconds Unit => source.name
  rwa [List.map_map, hnames] at hmapped

-- A command that catches the failure of a run goes on, with the clock at rest and its sources kept.
example :
    let host : Host Seconds Unit Seconds String := {
      now := id
      fire := fun _ => .fail "broken"
      sleep := fun d => .read fun now => .write (now + d) .done
      told := fun _ now => now }
    let run : Routine Seconds Unit Seconds String :=
      .attempt (.start .done) (fun _ => true) fun caught =>
        .add ⟨if caught.isSome then "caught" else "done", 3.0, ()⟩ .done
    let left := stateLeft (performJournaled host 3 (.add ⟨"beat", 0.5, ()⟩ run) ({}, ([], 1.0)))
    left.1.running = false ∧ left.2.1.sources.map (·.name) = ["beat", "caught"] := by
  decide +kernel

end Ls8.Clock
