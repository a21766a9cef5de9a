import Ls8.Clock.Schedule
import Ls8.Proofs.Clock.Journal
import Ls8.Proofs.Clock.Timetable

/-
  A clock that is on time.

  A clock that carries out a timetable is either running, and then its events are the next firings
  of all sources, or it has been stopped and has no events (`OnTime`).  Its journal tells how far it
  has come (`Follows`).

  1. **Events.**  The event of a source has the time of its next firing, and the numbers of the
     events agree with the order of firings that are due at the same time (`Scheduled`).  So the
     first event is the first firing to come (`Scheduled.first_of_pop?`), and scheduling its source
     again keeps the numbers so, because of two firings due at the same time the one that was
     scheduled earlier precedes (`Scheduled.reschedule`).

  2. **Steps.**  A firing (`OnTime.fire`), a sleep until the next event (`OnTime.sleep`) and a stop
     (`OnTime.stop`) leave the clock on time.
-/

namespace Ls8.Clock

variable {κ ω ε : Type} {T : Timetable κ}

/-! ## What a journal has of a timetable -/

/-- **A routine may stop the clock** from the world `w` on, whatever becomes of the world while the
    clock has control. -/
def Routine.MayStop : Routine ℚ κ ω ε → ω → Prop
  | .done, _ => False
  | .fail _, _ => False
  | .read next, w => (next w).MayStop w
  | .write v next, _ => next.MayStop v
  | .add _ next, w => next.MayStop w
  | .runPending next, _ => ∃ n v, (next n).MayStop v
  | .start next, _ => ∃ v, next.MayStop v
  | .stop _, _ => True
  | .attempt part _ next, w => part.MayStop w ∨ ∃ caught v, (next caught).MayStop v

/-- A command that may stop the clock has been fired. -/
def MayBeStopped (host : Host ℚ κ ω ε) (journal : Journal ℚ κ ω) : Prop :=
  ∃ k w, .fired k w ∈ journal ∧ (host.fire k).MayStop w

theorem MayBeStopped.mono {host : Host ℚ κ ω ε} {journal longer : Journal ℚ κ ω}
    (h : MayBeStopped host journal) (hgrows : journal <+: longer) : MayBeStopped host longer := by
  obtain ⟨k, w, hfired, hstops⟩ := h
  exact ⟨k, w, hgrows.subset hfired, hstops⟩

/-- **The journal follows the timetable** as far as the given firings: they are an initial part of
    the timetable and were made at their times.  Every sleep was a positive one, up to the earliest
    firing that had not been made.  The clock was stopped only by a command, and then nothing was
    fired any more and nobody slept. -/
structure Follows (host : Host ℚ κ ω ε) (journal : Journal ℚ κ ω) (firings : List (Firing T)) :
    Prop where
  fired : journal.firings host.now = firings.map fun f => (f.source.command, f.time)
  initial : Timetable.Initial firings
  slept : ∀ before d w after, journal = before ++ .slept d w :: after → 0 < d ∧
    IsLeast { t | ∃ f : Firing T,
        f ∉ firings.take (Journal.firings host.now before).length ∧ f.time = t }
      (host.now w + d)
  stopped : ∀ before n w after, journal = before ++ .told (.stopped n) w :: after →
    MayBeStopped host before ∧ ∀ x ∈ after, x.isActive = false

namespace Follows

variable {host : Host ℚ κ ω ε} {journal : Journal ℚ κ ω} {firings : List (Firing T)}

theorem length_firings (h : Follows host journal firings) :
    (journal.firings host.now).length = firings.length := by
  rw [h.fired, List.length_map]

/-- As long as nothing is fired, nobody sleeps and nothing is stopped, no firings have been made. -/
theorem of_idle (hidle : ∀ x ∈ journal, x.isActive = false ∧ x.isStop = false) :
    Follows host journal ([] : List (Firing T)) where
  fired := by
    refine List.filterMap_eq_nil_iff.mpr fun x hx => ?_
    have hinactive := (hidle x hx).1
    cases x with
    | fired => cases hinactive
    | added | slept | told => rfl
  initial := ⟨.nil, fun f hf => absurd hf List.not_mem_nil⟩
  slept := by
    rintro before d w after rfl
    have hinactive := (hidle (.slept d w) (List.mem_append_right _ List.mem_cons_self)).1
    cases hinactive
  stopped := by
    rintro before n w after rfl
    have hgoing := (hidle (.told (.stopped n) w)
      (List.mem_append_right _ List.mem_cons_self)).2
    cases hgoing

/-- What is neither a firing nor a sleep may happen at any time, a stop only after a command that may
    stop the clock. -/
theorem idle (h : Follows host journal firings) {happening : Happening ℚ κ ω}
    (hidle : happening.isActive = false)
    (hstop : happening.isStop = true → MayBeStopped host journal) :
    Follows host (journal ++ [happening]) firings where
  fired := by rw [Journal.firings_snoc_of_idle hidle, h.fired]
  initial := h.initial
  slept := by
    intro before d w after heq
    rcases Journal.eq_or_of_snoc heq with ⟨_, rfl, _⟩ | ⟨rest, _, hrest⟩
    · cases hidle
    · exact h.slept before d w rest hrest
  stopped := by
    intro before n w after heq
    rcases Journal.eq_or_of_snoc heq with ⟨rfl, rfl, rfl⟩ | ⟨rest, rfl, hrest⟩
    · exact ⟨hstop rfl, fun x hx => absurd hx List.not_mem_nil⟩
    · obtain ⟨hbefore, hafter⟩ := h.stopped before n w rest hrest
      refine ⟨hbefore, fun x hx => ?_⟩
      rcases List.mem_append.mp hx with hx | hx
      · exact hafter x hx
      · rwa [List.mem_singleton.mp hx]

/-- In a journal without a stop, one more entry that is no stop either stops nothing. -/
theorem stopped_of_going (hgoing : ∀ x ∈ journal, x.isStop = false) {happening : Happening ℚ κ ω}
    (hstop : happening.isStop = false) {before after : Journal ℚ κ ω} {n : Nat} {w : ω}
    (heq : journal ++ [happening] = before ++ .told (.stopped n) w :: after) : False := by
  rcases Journal.eq_or_of_snoc heq with ⟨_, rfl, _⟩ | ⟨rest, _, rfl⟩
  · cases hstop
  · have hearlier := hgoing (.told (.stopped n) w) (List.mem_append_right _ List.mem_cons_self)
    cases hearlier

/-- A firing at its time. -/
theorem fire (h : Follows host journal firings) (hgoing : ∀ x ∈ journal, x.isStop = false)
    {f : Firing T} (hinitial : Timetable.Initial (firings ++ [f])) {w : ω}
    (htime : host.now w = f.time) :
    Follows host (journal ++ [.fired f.source.command w]) (firings ++ [f]) where
  fired := by
    rw [Journal.firings_snoc, h.fired, List.map_append]
    show _ ++ [(f.source.command, host.now w)] = _
    rw [htime]
    rfl
  initial := hinitial
  slept := by
    intro before d v after heq
    rcases Journal.eq_or_of_snoc heq with ⟨_, hslept, _⟩ | ⟨rest, _, rfl⟩
    · cases hslept
    · -- the sleep was before, when no more firings had been made than before it
      have hlength := h.length_firings
      rw [Journal.firings, List.filterMap_append, List.length_append] at hlength
      rw [List.take_append_of_le_length (by rw [Journal.firings]; omega)]
      exact h.slept before d v rest rfl
  stopped := fun _ _ _ _ heq => (stopped_of_going hgoing rfl heq).elim

/-- A sleep until the earliest firing that has not been made. -/
theorem sleep (h : Follows host journal firings) (hgoing : ∀ x ∈ journal, x.isStop = false)
    {d : ℚ} {w : ω} (hd : 0 < d)
    (hleast : IsLeast { t | ∃ f : Firing T, f ∉ firings ∧ f.time = t } (host.now w + d)) :
    Follows host (journal ++ [.slept d w]) firings where
  fired := by
    rw [Journal.firings_snoc, h.fired]
    exact List.append_nil _
  initial := h.initial
  slept := by
    intro before d' v after heq
    rcases Journal.eq_or_of_snoc heq with ⟨rfl, hslept, _⟩ | ⟨rest, _, rfl⟩
    · obtain ⟨rfl, rfl⟩ := Happening.slept.inj hslept
      rw [h.length_firings, List.take_length]
      exact ⟨hd, hleast⟩
    · exact h.slept before d' v rest rfl
  stopped := fun _ _ _ _ heq => (stopped_of_going hgoing rfl heq).elim

end Follows

/-! ## The events of a timetable -/

/-- Events at rational times are put into an order. -/
theorem orders_rat : Heap.Orders (Event.before : Event ℚ κ → Event ℚ κ → Bool) :=
  orders_before (fun _ _ => lt_iff_le_not_ge) (fun _ _ _ => le_trans) le_total

/-- An event does not come before another one if it is due later, or at the same time with a greater
    number. -/
theorem Event.before_eq_false_iff {a b : Event ℚ κ} :
    a.before b = false ↔ b.due < a.due ∨ b.due = a.due ∧ b.sequence ≤ a.sequence := by
  simp only [Event.before, Bool.or_eq_false_iff, Bool.and_eq_false_iff, decide_eq_false_iff_not,
    not_lt, not_le]
  rcases lt_trichotomy a.due b.due with hlt | heq | hgt
  · simp [hlt, hlt.ne', not_lt.mpr hlt.le]
  · simp [heq]
  · simp [hgt, hgt.le]

/-- How many events are due. -/
def dueCount (c : Clock ℚ κ) (now : ℚ) : Nat := c.events.toList.countP fun e => e.due ≤ now

/-- **One event less is due** once the first one has been scheduled again. -/
theorem dueCount_reschedule {c : Clock ℚ κ} {e : Event ℚ κ} {rest : Heap (Event ℚ κ)} {now : ℚ}
    (hpop : c.events.pop? Event.before = some (e, rest)) (hdue : e.due ≤ now)
    (hpos : 0 < e.source.interval) :
    (c.reschedule e rest now).dueCount now + 1 = c.dueCount now := by
  have hagain : now < now + e.source.interval := by linarith
  have hnext : ¬ nextDue e now ≤ now := not_le.mpr (lt_nextDue hagain not_le.mp)
  have hpopped := (Heap.toList_of_pop? hpop).countP_eq fun x : Event ℚ κ => decide (x.due ≤ now)
  have hadded := (events_schedule { c with events := rest } e.source (nextDue e now)).countP_eq
    fun x : Event ℚ κ => decide (x.due ≤ now)
  rw [List.countP_cons_of_pos (by simpa using hdue)] at hpopped
  rw [List.countP_cons_of_neg (by simpa using hnext)] at hadded
  show List.countP _ _ + 1 = List.countP _ _
  rw [← hpopped]
  exact congrArg (· + 1) hadded

/-- The event of the next firing of a source. -/
def Timetable.event (T : Timetable κ) (made number : Fin T.sources.length → Nat)
    (i : Fin T.sources.length) : Event ℚ κ :=
  ⟨(T.next made i).time, number i, (T.next made i).source⟩

namespace Timetable

variable {made number : Fin T.sources.length → Nat} {i j : Fin T.sources.length}

theorem interval_event_pos (T : Timetable κ) (made number : Fin T.sources.length → Nat)
    (i : Fin T.sources.length) : 0 < (T.event made number i).source.interval :=
  T.positive _ (List.getElem_mem _)

/-- A source that fires at its time is due again for its next firing. -/
theorem nextDue_event {now : ℚ} (hnow : now = (T.next made i).time) :
    nextDue (T.event made number i) now = (T.next (advance made i) i).time := by
  have hinterval := T.interval_event_pos made number i
  have hlater : ¬ (T.event made number i).due + (T.event made number i).source.interval ≤ now := by
    show ¬ (T.next made i).time + _ ≤ now
    linarith
  rw [next_advance_self, Firing.time_succ, nextDue, if_neg hlater]
  rfl

/-- The events of the other sources stay as they are. -/
theorem event_advance_of_ne (hij : j ≠ i) (n : Nat) :
    T.event (advance made i) (Function.update number i n) j = T.event made number j := by
  rw [event, event, next_advance_of_ne hij, Function.update_of_ne hij]

end Timetable

/-- **The events are those of the next firings,** and of two that are due at the same time the one
    with the lesser number precedes. -/
structure Scheduled (made number : Fin T.sources.length → Nat) (c : Clock ℚ κ) : Prop where
  events : c.events.toList.Perm ((List.finRange T.sources.length).map (T.event made number))
  below : ∀ i, number i < c.sequence
  ties : ∀ i j, i ≠ j → (T.next made i).time = (T.next made j).time →
    number j < number i ∨ (T.next made i).Precedes (T.next made j)
  heap : c.events.IsHeap Event.before

namespace Scheduled

variable {made number : Fin T.sources.length → Nat} {c : Clock ℚ κ} {i : Fin T.sources.length}
  {e : Event ℚ κ} {rest : Heap (Event ℚ κ)}

/-- If no other event comes before that of a source, then its next firing precedes all others. -/
theorem first (h : Scheduled made number c)
    (hfirst : ∀ j, j ≠ i → (T.event made number j).before (T.event made number i) = false) :
    T.First made i := by
  intro j hij
  rcases Event.before_eq_false_iff.mp (hfirst j hij) with hlt | ⟨heq, hle⟩
  · exact .inl hlt
  · rcases h.ties i j (Ne.symm hij) heq with hlt | hprecedes
    · have hnumbers : number i ≤ number j := hle
      omega
    · exact hprecedes

/-- **What is popped** is the event of the first firing to come, and the others are left. -/
theorem first_of_pop? (h : Scheduled made number c)
    (hpop : c.events.pop? Event.before = some (e, rest)) :
    ∃ i, e = T.event made number i ∧ T.First made i ∧
      rest.toList.Perm (((List.finRange _).erase i).map (T.event made number)) := by
  have hperm := (Heap.toList_of_pop? hpop).trans h.events
  obtain ⟨i, hi, rfl⟩ := List.mem_map.mp (hperm.mem_iff.mp List.mem_cons_self)
  have herase := (List.perm_cons_erase hi).map (T.event made number)
  rw [List.map_cons] at herase
  have hrest := (hperm.trans herase).cons_inv
  refine ⟨i, rfl, h.first ?_, hrest⟩
  intro j hij
  refine Heap.before_eq_false_of_pop? h.heap hpop _ (hrest.mem_iff.mpr ?_)
  exact List.mem_map_of_mem ((List.mem_erase_of_ne hij).mpr (List.mem_finRange j))

/-- The event at the top is that of the first firing to come. -/
theorem first_of_top? (h : Scheduled made number c) (htop : c.events.top? = some e) :
    ∃ i, e.due = (T.next made i).time ∧ T.First made i := by
  cases hpop : c.events.pop? Event.before with
  | none =>
    rw [Heap.pop?_eq_none_iff.mp hpop] at htop
    cases htop
  | some popped =>
    obtain ⟨e', rest⟩ := popped
    obtain rfl : e' = e := Option.some.inj ((Heap.top?_of_pop? hpop).symm.trans htop)
    obtain ⟨i, rfl, hfirst, _⟩ := h.first_of_pop? hpop
    exact ⟨i, rfl, hfirst⟩

/-- Without events there are no sources. -/
theorem sources_eq_nil (h : Scheduled made number c) (hempty : c.events = .empty) :
    T.sources = [] := by
  have hlength := h.events.length_eq
  rw [hempty, List.length_map, List.length_finRange] at hlength
  exact List.length_eq_zero_iff.mp hlength.symm

theorem dueCount_le (h : Scheduled made number c) (now : ℚ) :
    c.dueCount now ≤ T.sources.length := by
  have hcount : c.dueCount now ≤ c.events.toList.length := List.countP_le_length
  rwa [h.events.length_eq, List.length_map, List.length_finRange] at hcount

/-- **Scheduling the source of the first firing again,** one interval after it was due. -/
theorem reschedule (h : Scheduled made number c) (hcut : T.Cut made)
    (hheap : rest.IsHeap Event.before)
    (hrest : rest.toList.Perm (((List.finRange _).erase i).map (T.event made number)))
    {now : ℚ} (hnow : now = (T.next made i).time) :
    Scheduled (Timetable.advance made i) (Function.update number i c.sequence)
      (c.reschedule (T.event made number i) rest now) where
  events := by
    have hevent : (⟨nextDue (T.event made number i) now, c.sequence,
          (T.event made number i).source⟩ : Event ℚ κ) =
        T.event (Timetable.advance made i) (Function.update number i c.sequence) i := by
      rw [Timetable.nextDue_event hnow, Timetable.event, Timetable.event, Function.update_self]
      rfl
    have hothers : rest.toList.Perm (((List.finRange _).erase i).map
        (T.event (Timetable.advance made i) (Function.update number i c.sequence))) := by
      refine hrest.trans (.of_eq (List.map_congr_left fun j hj => ?_))
      have hij : j ≠ i := ((List.nodup_finRange _).mem_erase_iff.mp hj).1
      exact (Timetable.event_advance_of_ne hij c.sequence).symm
    have hscheduled := events_schedule { c with events := rest } (T.event made number i).source
      (nextDue (T.event made number i) now)
    have hall := (List.perm_cons_erase (List.mem_finRange i)).map
      (T.event (Timetable.advance made i) (Function.update number i c.sequence))
    rw [List.map_cons, ← hevent] at hall
    exact hscheduled.trans ((hothers.cons _).trans hall.symm)
  below := by
    intro j
    show _ < c.sequence + 1
    by_cases hij : j = i
    · rw [hij, Function.update_self]
      exact Nat.lt_succ_self _
    · rw [Function.update_of_ne hij]
      exact Nat.lt_succ_of_lt (h.below j)
  ties := by
    intro j k hjk htime
    by_cases hj : j = i
    · -- the event that is scheduled has the greatest number
      rw [hj] at hjk ⊢
      rw [Function.update_self, Function.update_of_ne (Ne.symm hjk)]
      exact .inl (h.below k)
    · rw [Timetable.next_advance_of_ne hj] at htime ⊢
      by_cases hk : k = i
      · -- the other one was scheduled earlier, so it precedes
        rw [hk] at htime ⊢
        exact .inr (Timetable.precedes_next_advance hcut htime)
      · rw [Timetable.next_advance_of_ne hk] at htime ⊢
        rw [Function.update_of_ne hj, Function.update_of_ne hk]
        exact h.ties j k hjk htime
  heap := isHeap_events_schedule orders_rat (c := { c with events := rest }) hheap _ _

/-- Whether a clock is running and how much it has fired does not matter. -/
theorem congr {d : Clock ℚ κ} (h : Scheduled made number c) (hevents : d.events = c.events)
    (hsequence : d.sequence = c.sequence) : Scheduled made number d := by
  obtain ⟨h1, h2, h3, h4⟩ := h
  constructor
  · rwa [hevents]
  · rwa [hsequence]
  · exact h3
  · rwa [hevents]

end Scheduled

/-! ### Sources that have just been added -/

/-- Schedules the first firings of sources, each one interval from now. -/
def scheduleAll (c : Clock ℚ κ) (now : ℚ) (sources : List (Source ℚ κ)) : Clock ℚ κ :=
  sources.foldl (fun c source => c.schedule source (now + source.interval)) c

section ScheduleAll
variable {c : Clock ℚ κ} {now : ℚ} {sources : List (Source ℚ κ)}

theorem running_scheduleAll : (c.scheduleAll now sources).running = c.running := by
  induction sources generalizing c with
  | nil => rfl
  | cons source rest ih => exact ih

theorem sequence_scheduleAll :
    (c.scheduleAll now sources).sequence = c.sequence + sources.length := by
  induction sources generalizing c with
  | nil => rfl
  | cons source rest ih =>
    have hrest := ih (c := c.schedule source (now + source.interval))
    have hsucc : (c.schedule source (now + source.interval)).sequence = c.sequence + 1 := rfl
    rw [hsucc] at hrest
    rw [List.length_cons]
    show ((c.schedule source (now + source.interval)).scheduleAll now rest).sequence = _
    omega

theorem isHeap_scheduleAll (h : c.events.IsHeap Event.before) :
    (c.scheduleAll now sources).events.IsHeap Event.before := by
  induction sources generalizing c with
  | nil => exact h
  | cons source rest ih => exact ih (isHeap_events_schedule orders_rat h source _)

/-- The events are numbered in the order of the sources. -/
theorem events_scheduleAll : (c.scheduleAll now sources).events.toList.Perm
    ((sources.zipIdx c.sequence).map (fun p => ⟨now + p.1.interval, p.2, p.1⟩) ++
      c.events.toList) := by
  induction sources generalizing c with
  | nil => exact List.Perm.refl _
  | cons source rest ih =>
    refine (ih (c := c.schedule source (now + source.interval))).trans ?_
    rw [List.zipIdx_cons, List.map_cons, List.cons_append]
    exact ((events_schedule c source _).append_left _).trans List.perm_middle

/-- **Sources that have just been added** are scheduled as their timetable says. -/
theorem scheduled_scheduleAll (hempty : c.events = .empty) :
    Scheduled (T := T) (fun _ => 0) (fun i => c.sequence + i)
      (c.scheduleAll T.origin T.sources) where
  events := by
    refine events_scheduleAll.trans (.of_eq ?_)
    rw [hempty]
    refine List.ext_getElem (by simp [Heap.toList]) fun i _ _ => ?_
    simp [Heap.toList, Timetable.event, Timetable.next, Firing.time, Firing.source]
  below := by
    intro i
    rw [sequence_scheduleAll]
    have hi := i.isLt
    omega
  ties := by
    intro i j hij htime
    have hsame : T.sources[i].interval = T.sources[j].interval := by
      have htime' : T.origin + (((0 : Nat) : ℚ) + 1) * T.sources[i].interval =
          T.origin + (((0 : Nat) : ℚ) + 1) * T.sources[j].interval := htime
      push_cast at htime'
      linarith
    rcases lt_or_gt_of_ne hij with hlt | hgt
    · exact .inr (.inr ⟨htime, .inr ⟨hsame, hlt⟩⟩)
    · have hgt : (j : Nat) < i := hgt
      exact .inl (by omega)
  heap := isHeap_scheduleAll (by rw [hempty]; trivial)

end ScheduleAll

/-! ## Being on time -/

/-- A clock that is running, with the next firings of all sources to come. -/
structure Underway (t : ℚ) (firings : List (Firing T)) (c : Clock ℚ κ) (journal : Journal ℚ κ ω) :
    Prop where
  running : c.running = true
  going : ∀ x ∈ journal, x.isStop = false
  scheduled : ∃ made number, Scheduled made number c ∧ Timetable.Records made firings ∧
    T.Cut made ∧ ∀ i, t ≤ (T.next made i).time

/-- One more entry that is not a stop. -/
theorem going_snoc {journal : Journal ℚ κ ω} (hgoing : ∀ x ∈ journal, x.isStop = false)
    {x : Happening ℚ κ ω} (hx : x.isStop = false) : ∀ y ∈ journal ++ [x], y.isStop = false := by
  intro y hy
  rcases List.mem_append.mp hy with hy | hy
  · exact hgoing y hy
  · rwa [List.mem_singleton.mp hy]

/-- A clock that has been stopped. -/
structure Over (c : Clock ℚ κ) (journal : Journal ℚ κ ω) : Prop where
  running : c.running = false
  events : c.events = .empty
  stopped : ∃ x ∈ journal, x.isStop = true

/-- **A clock that is on time** at the time `t`. -/
structure OnTime (host : Host ℚ κ ω ε) (t : ℚ) (firings : List (Firing T)) (c : Clock ℚ κ)
    (journal : Journal ℚ κ ω) : Prop where
  follows : Follows host journal firings
  state : Underway t firings c journal ∨ Over c journal

namespace OnTime

variable {host : Host ℚ κ ω ε} {t : ℚ} {firings : List (Firing T)} {c d : Clock ℚ κ}
  {journal : Journal ℚ κ ω} {e : Event ℚ κ}

theorem congr (h : OnTime host t firings c journal) (hrunning : d.running = c.running)
    (hevents : d.events = c.events) (hsequence : d.sequence = c.sequence) :
    OnTime host t firings d journal := by
  refine ⟨h.follows, ?_⟩
  rcases h.state with ⟨hrun, hgoing, made, number, hscheduled, hrest⟩ | ⟨hrun, hempty, hstopped⟩
  · have hscheduled' := hscheduled.congr hevents hsequence
    exact .inl ⟨hrunning.trans hrun, hgoing, made, number, hscheduled', hrest⟩
  · exact .inr ⟨hrunning.trans hrun, hevents.trans hempty, hstopped⟩

/-- What is neither a firing nor a sleep nor a stop may happen at any time. -/
theorem idle (h : OnTime host t firings c journal) {x : Happening ℚ κ ω}
    (hidle : x.isActive = false) (hstop : x.isStop = false) :
    OnTime host t firings c (journal ++ [x]) := by
  refine ⟨h.follows.idle hidle fun hstopped => ?_, ?_⟩
  · rw [hstop] at hstopped
    cases hstopped
  rcases h.state with ⟨hrun, hgoing, hscheduled⟩ | ⟨hrun, hempty, y, hy, hstopped⟩
  · exact .inl ⟨hrun, going_snoc hgoing hstop, hscheduled⟩
  · exact .inr ⟨hrun, hempty, y, List.mem_append_left _ hy, hstopped⟩

/-- **A stop** by a command that has been fired. -/
theorem stop (h : OnTime host t firings c journal) (hstop : MayBeStopped host journal) (n : Nat)
    (w : ω) : OnTime host t firings c.stop (journal ++ [.told (.stopped n) w]) where
  follows := h.follows.idle rfl fun _ => hstop
  state := .inr ⟨rfl, rfl, _, List.mem_append_right _ List.mem_cons_self, rfl⟩

/-- **A firing** is the next one of the timetable, and its source is due no more. -/
theorem fire (h : OnTime host t firings c journal) {rest : Heap (Event ℚ κ)}
    (hpop : c.events.pop? Event.before = some (e, rest)) (hdue : e.due ≤ t) {w : ω}
    (hw : host.now w = t) :
    (∃ f, OnTime host t (firings ++ [f]) (c.reschedule e rest t)
      (journal ++ [.fired e.source.command w])) ∧
    (c.reschedule e rest t).dueCount t + 1 = c.dueCount t := by
  rcases h.state with ⟨hrun, hgoing, made, number, hscheduled, hrecords, hcut, hfuture⟩ | hover
  · -- the first event is that of the first firing to come, and nothing is overdue
    obtain ⟨i, rfl, hfirst, hrest⟩ := hscheduled.first_of_pop? hpop
    have htime : t = (T.next made i).time := le_antisymm (hfuture i) hdue
    have hheap := Heap.isHeap_of_pop? orders_rat hscheduled.heap hpop
    have hrecords' := hrecords.snoc hcut i
    have hcut' := hcut.advance hfirst
    have hscheduled' := hscheduled.reschedule hcut hheap hrest htime
    have hfuture' : ∀ j, t ≤ (T.next (Timetable.advance made i) j).time := by
      intro j
      by_cases hij : j = i
      · have hinterval : 0 < T.sources[i].interval := T.positive _ (List.getElem_mem _)
        rw [hij, Timetable.next_advance_self, Firing.time_succ]
        exact (hfuture i).trans (le_add_of_nonneg_right (le_of_lt hinterval))
      · rw [Timetable.next_advance_of_ne hij]
        exact hfuture j
    have hfollows := h.follows.fire hgoing (hrecords'.initial hcut') (hw.trans htime)
    refine ⟨⟨T.next made i, hfollows, .inl ?_⟩, ?_⟩
    · exact ⟨hrun, going_snoc hgoing rfl, _, _, hscheduled', hrecords', hcut', hfuture'⟩
    · exact dueCount_reschedule hpop hdue (T.interval_event_pos made number i)
  · rw [hover.events] at hpop
    cases hpop

/-- **A sleep until the first event,** which is due then. -/
theorem sleep (h : OnTime host t firings c journal) (htop : c.events.top? = some e)
    (hlater : t < e.due) {w : ω} (hw : host.now w = t) :
    OnTime host e.due firings c (journal ++ [.slept (e.due - t) w]) ∧ 0 < c.dueCount e.due := by
  rcases h.state with ⟨hrun, hgoing, made, number, hscheduled, hrecords, hcut, _⟩ | hover
  · obtain ⟨i, hdue, hfirst⟩ := hscheduled.first_of_top? htop
    have hgoing' := going_snoc hgoing (x := .slept (e.due - t) w) rfl
    refine ⟨⟨?_, .inl ⟨hrun, hgoing', made, number, hscheduled, hrecords, hcut, ?_⟩⟩, ?_⟩
    · refine h.follows.sleep hgoing (by linarith) ?_
      rw [hw, add_sub_cancel, hdue]
      exact hrecords.isLeast_time hfirst
    · rw [hdue]
      exact hfirst.time_le
    · refine List.countP_pos_iff.mpr ⟨e, ?_, by simp⟩
      rw [Heap.toList_of_top? htop]
      exact List.mem_cons_self
  · rw [hover.events] at htop
    cases htop

/-- If something is due, then the first event is. -/
theorem due_of_dueCount (h : OnTime host t firings c journal) (hcount : 0 < c.dueCount t) :
    ∃ e rest, c.events.pop? Event.before = some (e, rest) ∧ e.due ≤ t := by
  obtain ⟨x, hx, hdue⟩ := List.countP_pos_iff.mp hcount
  rcases h.state with ⟨_, _, made, number, hscheduled, _⟩ | hover
  · cases hpop : c.events.pop? Event.before with
    | none =>
      rw [Heap.pop?_eq_none_iff.mp hpop] at hx
      cases hx
    | some popped =>
      obtain ⟨e, rest⟩ := popped
      obtain ⟨i, rfl, hfirst, _⟩ := hscheduled.first_of_pop? hpop
      obtain ⟨j, _, rfl⟩ := List.mem_map.mp (hscheduled.events.mem_iff.mp hx)
      exact ⟨_, rest, rfl, (hfirst.time_le j).trans (of_decide_eq_true hdue)⟩
  · rw [hover.events] at hx
    cases hx

/-- A clock that has events is running. -/
theorem running_of_top? (h : OnTime host t firings c journal) (htop : c.events.top? = some e) :
    c.running = true := by
  rcases h.state with hrunning | hover
  · exact hrunning.running
  · rw [hover.events] at htop
    cases htop

theorem dueCount_le (h : OnTime host t firings c journal) : c.dueCount t ≤ T.sources.length := by
  rcases h.state with ⟨_, _, made, number, hscheduled, _⟩ | hover
  · exact hscheduled.dueCount_le t
  · rw [dueCount, hover.events]
    exact Nat.zero_le _

/-- **A clock that starts** with sources that have just been added. -/
theorem of_scheduleAll (hempty : c.events = .empty)
    (hidle : ∀ x ∈ journal, x.isActive = false ∧ x.isStop = false) :
    OnTime (T := T) host T.origin []
      { c.scheduleAll T.origin T.sources with running := true } journal := by
  refine ⟨.of_idle hidle, .inl ⟨rfl, fun x hx => (hidle x hx).2, ?_⟩⟩
  refine ⟨_, _, (scheduled_scheduleAll hempty).congr rfl rfl, Timetable.records_nil,
    Timetable.cut_zero, fun i => ?_⟩
  have hinterval : 0 < T.sources[i].interval := T.positive _ (List.getElem_mem _)
  show T.origin ≤ T.origin + (((0 : Nat) : ℚ) + 1) * T.sources[i].interval
  push_cast
  linarith

/-- A clock has no events left only if there are no sources or it was stopped. -/
theorem stopped_of_empty (h : OnTime host t firings c journal) (hempty : c.events = .empty) :
    T.sources = [] ∨ ∃ x ∈ journal, x.isStop = true := by
  rcases h.state with ⟨_, _, made, number, hscheduled, _⟩ | hover
  · exact .inl (hscheduled.sources_eq_nil hempty)
  · exact .inr hover.stopped

end OnTime

end Ls8.Clock
