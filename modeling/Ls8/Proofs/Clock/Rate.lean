import Ls8.Proofs.Clock.Ledger
import Mathlib.Algebra.Order.Floor.Semiring
import Mathlib.Data.List.Nodup
import Mathlib.Data.Rat.Floor
import Mathlib.Tactic.Linarith
import Mathlib.Tactic.Ring

/-
  The rate at which a source fires.

  A source that is added is followed through the ledger by the numbers of its events (`lineage`):
  the first one is noted where the source is added, and wherever an event is taken out the one that
  takes its place is noted beside it.

  1. **The crux** is that a number stands for one event.  Every event that was ever scheduled is
     noted, with a number of its own, and only such events are taken out (`Numbered`).  So the event
     that is taken out under a number is the one that was scheduled under it, whatever else was done
     in between, and the firings of a source follow from one another (`successive_lineage`).

  2. **Arithmetic.**  From there on nothing matters but the times of the passes (`Successive`).  The
     next firing is due one interval after the last one was, or later if the pass came later than
     that.  So due times are at least one interval apart, and they are exactly so as long as no pass
     comes an interval late.

  Main statement: `fires_at_fixed_rate`.
-/

namespace Ls8.Clock

variable {τ κ ω ε : Type}

/-! ## The firings of a source -/

/-- The event that is scheduled. -/
def Entry.scheduled? : Entry τ κ → Option (Event τ κ)
  | .added e _ => some e
  | .taken _ _ again => some again
  | .dropped => none

namespace Ledger

/-- **All events that were scheduled,** the first one first. -/
def scheduled (ledger : Ledger τ κ) : List (Event τ κ) := ledger.filterMap Entry.scheduled?

theorem scheduled_snoc (ledger : Ledger τ κ) (entry : Entry τ κ) :
    scheduled (ledger ++ [entry]) = scheduled ledger ++ entry.scheduled?.toList := by
  rw [scheduled, scheduled, List.filterMap_append]
  cases h : entry.scheduled? <;> simp [h]

/-- **The firings of the source** whose next event has this number: each event that was taken out,
    with the time of the pass. -/
def lineage : Nat → Ledger τ κ → List (Event τ κ × τ)
  | _, [] => []
  | number, .taken e now again :: rest =>
    if e.sequence = number then (e, now) :: lineage again.sequence rest else lineage number rest
  | number, _ :: rest => lineage number rest

end Ledger

section Order
variable [Add τ] [Zero τ] [LE τ] [DecidableLE τ]

/-- What is done deals with events that have been scheduled, each for its time. -/
def Entry.Justified (scheduled : List (Event τ κ)) : Entry τ κ → Prop
  | .added e now =>
    e ∈ scheduled ∧ e.due = now + e.source.interval ∧ ¬ e.source.interval ≤ 0
  | .taken e now again =>
    e ∈ scheduled ∧ again ∈ scheduled ∧ e.due ≤ now ∧ again.due = nextDue e now ∧
      again.source = e.source
  | .dropped => True

/-- It still does when more has been scheduled. -/
theorem Entry.Justified.mono {scheduled more : List (Event τ κ)} {entry : Entry τ κ}
    (h : entry.Justified scheduled) (hmore : ∀ x ∈ scheduled, x ∈ more) : entry.Justified more := by
  cases entry with
  | added e now => exact ⟨hmore e h.1, h.2⟩
  | taken e now again => exact ⟨hmore e h.1, hmore again h.2.1, h.2.2⟩
  | dropped => trivial

/-- **Every event has a number of its own,** and those on the clock and in the ledger have been
    scheduled. -/
structure Numbered (c : Clock τ κ) (ledger : Ledger τ κ) : Prop where
  numbers : ledger.scheduled.Pairwise fun a b => a.sequence < b.sequence
  below : ∀ e ∈ ledger.scheduled, e.sequence < c.sequence
  events : ∀ e ∈ c.events.toList, e ∈ ledger.scheduled
  entries : ∀ entry ∈ ledger, entry.Justified ledger.scheduled

/-- A new clock. -/
theorem numbered_fresh : Numbered ({} : Clock τ κ) [] where
  numbers := .nil
  below _ h := absurd h List.not_mem_nil
  events _ h := absurd h List.not_mem_nil
  entries _ h := absurd h List.not_mem_nil

namespace Numbered

variable {c d : Clock τ κ} {ledger : Ledger τ κ}

/-- **Scheduling an event,** under the number that is next. -/
theorem snoc (h : Numbered c ledger) {entry : Entry τ κ} {e : Event τ κ}
    (hentry : entry.scheduled? = some e) (hnumber : e.sequence = c.sequence)
    (hsequence : d.sequence = c.sequence + 1)
    (hevents : ∀ x ∈ d.events.toList, x = e ∨ x ∈ ledger.scheduled)
    (hjustified : entry.Justified (ledger.scheduled ++ [e])) : Numbered d (ledger ++ [entry]) := by
  have hscheduled : Ledger.scheduled (ledger ++ [entry]) = ledger.scheduled ++ [e] := by
    rw [Ledger.scheduled_snoc, hentry, Option.toList_some]
  constructor
  · rw [hscheduled]
    refine List.pairwise_append.mpr ⟨h.numbers, List.pairwise_singleton _ _, fun a ha b hb => ?_⟩
    rw [List.mem_singleton.mp hb, hnumber]
    exact h.below a ha
  · intro x hx
    rw [hscheduled] at hx
    rw [hsequence]
    rcases List.mem_append.mp hx with hx | hx
    · exact Nat.lt_succ_of_lt (h.below x hx)
    · rw [List.mem_singleton.mp hx, hnumber]
      exact Nat.lt_succ_self _
  · intro x hx
    rw [hscheduled]
    rcases hevents x hx with rfl | hx
    · exact List.mem_append_right _ List.mem_cons_self
    · exact List.mem_append_left _ hx
  · intro x hx
    rw [hscheduled]
    rcases List.mem_append.mp hx with hx | hx
    · exact (h.entries x hx).mono fun y hy => List.mem_append_left _ hy
    · rwa [List.mem_singleton.mp hx]

/-- Two events with the same number are one. -/
theorem eq_of_sequence (h : Numbered c ledger) {a b : Event τ κ} (ha : a ∈ ledger.scheduled)
    (hb : b ∈ ledger.scheduled) (hsame : a.sequence = b.sequence) : a = b := by
  have hnumbers : (ledger.scheduled.map (·.sequence)).Nodup :=
    List.pairwise_map.mpr (h.numbers.imp fun hlt => Nat.ne_of_lt hlt)
  exact List.inj_on_of_nodup_map hnumbers ha hb hsame

end Numbered

/-- **Whatever is done to a schedule gives every event a number of its own.** -/
theorem kept_numbered [LT τ] [DecidableLT τ] :
    Kept (Numbered : Clock τ κ → Ledger τ κ → Prop) where
  add := by
    intro c ledger source now hpos h
    refine h.snoc (e := c.firstEvent source now) rfl rfl rfl (fun x hx => ?_) ?_
    · rcases List.mem_cons.mp ((events_schedule _ _ _).mem_iff.mp hx) with rfl | hx
      · exact .inl rfl
      · exact .inr (h.events x hx)
    · exact ⟨List.mem_append_right _ List.mem_cons_self, rfl, hpos⟩
  take := by
    intro c ledger e rest now hpop hdue h
    have hpopped := Heap.toList_of_pop? hpop
    -- what is taken out was on the clock, so it has been scheduled
    have he : e ∈ ledger.scheduled := h.events e (hpopped.mem_iff.mp List.mem_cons_self)
    refine h.snoc (e := c.nextEvent e now) rfl rfl rfl (fun x hx => ?_) ?_
    · rcases List.mem_cons.mp ((events_schedule _ _ _).mem_iff.mp hx) with rfl | hx
      · exact .inl rfl
      · exact .inr (h.events x (hpopped.mem_iff.mp (List.mem_cons_of_mem e hx)))
    · exact ⟨List.mem_append_left _ he, List.mem_append_right _ List.mem_cons_self, hdue, rfl, rfl⟩
  stop := by
    intro c ledger h
    have hsame : Ledger.scheduled (ledger ++ [.dropped]) = ledger.scheduled := by
      rw [Ledger.scheduled_snoc]
      exact List.append_nil _
    constructor
    · rw [hsame]
      exact h.numbers
    · rw [hsame]
      exact h.below
    · exact fun e he => absurd he List.not_mem_nil
    · intro entry hentry
      rw [hsame]
      rcases List.mem_append.mp hentry with hentry | hentry
      · exact h.entries entry hentry
      · rw [List.mem_singleton.mp hentry]
        trivial
  congr := by
    intro c d ledger hevents hsequence h
    obtain ⟨h1, h2, h3, h4⟩ := h
    exact ⟨h1, by rwa [hsequence], by rwa [hevents], h4⟩

omit [Zero τ] in
/-- **The firings follow from one another:** of this source, the next one due at this time. -/
def Successive (source : Source τ κ) : τ → List (Event τ κ × τ) → Prop
  | _, [] => True
  | due, (e, now) :: rest =>
    e.source = source ∧ e.due = due ∧ due ≤ now ∧ Successive source (nextDue e now) rest

/-- **The firings of a source follow from one another,** from wherever in the ledger one reads. -/
theorem successive_lineage {c : Clock τ κ} {ledger : Ledger τ κ} (h : Numbered c ledger)
    (after : Ledger τ κ) (hafter : ∀ entry ∈ after, entry ∈ ledger) {x : Event τ κ}
    (hx : x ∈ ledger.scheduled) : Successive x.source x.due (Ledger.lineage x.sequence after) := by
  induction after generalizing x with
  | nil => trivial
  | cons entry rest ih =>
    have ih := @ih fun y hy => hafter y (List.mem_cons_of_mem entry hy)
    cases entry with
    | added e now => exact ih hx
    | dropped => exact ih hx
    | taken e now again =>
      obtain ⟨he, hagain, hdue, htime, hsource⟩ :=
        h.entries _ (hafter _ List.mem_cons_self)
      rw [Ledger.lineage]
      by_cases hnumber : e.sequence = x.sequence
      · -- the event with that number is the one that was scheduled under it
        obtain rfl : e = x := h.eq_of_sequence he hx hnumber
        rw [if_pos rfl]
        have hrest := ih hagain
        rw [hsource, htime] at hrest
        exact ⟨rfl, rfl, hdue, hrest⟩
      · rw [if_neg hnumber]
        exact ih hx

end Order

/-! ## Due times -/

section Times
variable {source : Source ℚ κ} {due : ℚ} {firings : List (Event ℚ κ × ℚ)}

namespace Successive

/-- After a firing the next one is due an interval later, or more. -/
theorem add_le_nextDue {e : Event ℚ κ} {now : ℚ} (h : Successive source due ((e, now) :: firings)) :
    due + source.interval ≤ nextDue e now := by
  obtain ⟨rfl, rfl, hnow, _⟩ := h
  exact le_nextDue (add_le_add_left hnow e.source.interval) (le_refl _)

/-- **No firing is due too early.** -/
theorem due_le (h : Successive source due firings) :
    ∀ (k : Nat) (f : Event ℚ κ × ℚ), firings[k]? = some f →
      due + k * source.interval ≤ f.1.due := by
  induction firings generalizing due with
  | nil => exact fun k f hf => nomatch hf
  | cons g rest ih =>
    have hnext := h.add_le_nextDue
    obtain ⟨_, hdue, _, hrest⟩ := h
    intro k f hf
    cases k with
    | zero =>
      obtain rfl : g = f := Option.some.inj hf
      rw [hdue]
      simp
    | succ k =>
      have hlater := ih hrest k f hf
      push_cast
      linarith

/-- Each firing was due when it was made. -/
theorem due_le_now (h : Successive source due firings) : ∀ f ∈ firings, f.1.due ≤ f.2 := by
  induction firings generalizing due with
  | nil => exact fun f hf => absurd hf List.not_mem_nil
  | cons g rest ih =>
    obtain ⟨_, hdue, hnow, hrest⟩ := h
    intro f hf
    rcases List.mem_cons.mp hf with rfl | hf
    · exact hdue.le.trans hnow
    · exact ih hrest f hf

/-- **Two firings in a row** are due at least one interval apart. -/
theorem interval_le (h : Successive source due firings) :
    ∀ (k : Nat) (f g : Event ℚ κ × ℚ), firings[k]? = some f → firings[k + 1]? = some g →
      source.interval ≤ g.1.due - f.1.due := by
  induction firings generalizing due with
  | nil => exact fun k f g hf => nomatch hf
  | cons x rest ih =>
    have hnext := h.add_le_nextDue
    obtain ⟨_, hdue, _, hrest⟩ := h
    intro k f g hf hg
    cases k with
    | zero =>
      obtain rfl : x = f := Option.some.inj hf
      have hfirst := hrest.due_le 0 g hg
      simp only [Nat.cast_zero, zero_mul, add_zero] at hfirst
      linarith
    | succ k => exact ih hrest k f g hf hg

/-- **There are only so many firings up to a time.** -/
theorem length_mul_le (h : Successive source due firings) (hne : firings ≠ []) {T : ℚ}
    (hT : ∀ f ∈ firings, f.2 ≤ T) : due + (firings.length - 1) * source.interval ≤ T := by
  have hlast := List.getLast_mem hne
  have hindex : firings[firings.length - 1]? = some (firings.getLast hne) := by
    rw [← List.getLast?_eq_getElem?, List.getLast?_eq_some_getLast hne]
  have hdue := h.due_le _ _ hindex
  have hpos : 1 ≤ firings.length := List.length_pos_iff.mpr hne
  rw [Nat.cast_sub hpos, Nat.cast_one] at hdue
  exact hdue.trans ((h.due_le_now _ hlast).trans (hT _ hlast))

/-- **If no pass comes an interval late** the firings are due exactly one interval apart. -/
theorem due_eq (h : Successive source due firings)
    (hprompt : ∀ f ∈ firings, f.2 < f.1.due + source.interval) :
    ∀ (k : Nat) (f : Event ℚ κ × ℚ), firings[k]? = some f →
      f.1.due = due + k * source.interval := by
  induction firings generalizing due with
  | nil => exact fun k f hf => nomatch hf
  | cons g rest ih =>
    obtain ⟨hsource, hdue, hnow, hrest⟩ := h
    intro k f hf
    cases k with
    | zero =>
      obtain rfl : g = f := Option.some.inj hf
      rw [hdue]
      simp
    | succ k =>
      have hontime : ¬ g.1.due + g.1.source.interval ≤ g.2 := by
        rw [hsource]
        exact not_le.mpr (hprompt g List.mem_cons_self)
      have hlater := ih hrest (fun x hx => hprompt x (List.mem_cons_of_mem g hx)) k f hf
      rw [hlater, nextDue, if_neg hontime, hdue, hsource]
      push_cast
      ring

end Successive

end Times

/-! ## The main statement -/

/-- **Sources fire at a fixed rate,** without drift and without bursts.

    Let a caller outside perform whatever he wants on a new clock, in any host: add sources, run
    what is pending at any times, also going backwards, stop and start the clock, and go on after
    failures; commands and sleeps may do the same.  Take any source that is added, at a time `t₀`,
    and its firings from then on.  Its first firing is due one interval after `t₀` or later, its
    second one two intervals after it or later, and so on, and any two in a row are due an interval
    apart or more.  So up to a time `T` it has fired as often as whole intervals fit in between or
    less, which is not at all before `t₀`.  As long as no pass that fires it comes an interval late,
    its firings are due exactly so many intervals after `t₀`.

    The firings are read off the ledger that the clock keeps meanwhile; but for the ledger the caller
    comes to what he comes to without it. -/
theorem fires_at_fixed_rate (host : Host ℚ κ ω ε) (calls : List (Nat × Routine ℚ κ ω ε)) (w : ω) :
    let ledger := (performAllBooked host calls ({}, ([], w))).2.1
    projected Prod.snd (performAllBooked host calls ({}, ([], w))) =
      calls.foldl (fun s call => stateLeft (perform host call.1 call.2 s)) ({}, w) ∧
    ∀ (before : Ledger ℚ κ) e t₀ (after : Ledger ℚ κ), ledger = before ++ .added e t₀ :: after →
      let interval := e.source.interval
      let firings := Ledger.lineage e.sequence after
      0 < interval ∧
      (∀ (k : Nat) f, firings[k]? = some f → t₀ + (k + 1) * interval ≤ f.1.due) ∧
      (∀ (k : Nat) f g, firings[k]? = some f → firings[k + 1]? = some g →
        interval ≤ g.1.due - f.1.due) ∧
      (∀ T, (∀ f ∈ firings, f.2 ≤ T) → firings.length ≤ ⌊(T - t₀) / interval⌋₊) ∧
      ((∀ f ∈ firings, f.2 < f.1.due + interval) →
        ∀ (k : Nat) f, firings[k]? = some f → f.1.due = t₀ + (k + 1) * interval) := by
  intro ledger
  refine ⟨projected_performAllBooked host calls ({}, ([], w)), ?_⟩
  intro before e t₀ after hledger interval firings
  have hnumbered : Numbered (performAllBooked host calls ({}, ([], w))).1 ledger :=
    kept_numbered.performAllBooked host calls numbered_fresh
  have hmem : .added e t₀ ∈ ledger := by
    rw [hledger]
    exact List.mem_append_right _ List.mem_cons_self
  obtain ⟨he, hdue, hinterval⟩ := hnumbered.entries _ hmem
  have hpos : 0 < interval := not_le.mp hinterval
  have hsuccessive : Successive e.source e.due firings := by
    refine successive_lineage hnumbered after (fun x hx => ?_) he
    rw [hledger]
    exact List.mem_append_right _ (List.mem_cons_of_mem _ hx)
  rw [hdue] at hsuccessive
  refine ⟨hpos, ?_, hsuccessive.interval_le, ?_, ?_⟩
  · intro k f hf
    have hle := hsuccessive.due_le k f hf
    linarith
  · intro T hT
    by_cases hnone : firings = []
    · rw [hnone]
      exact Nat.zero_le _
    · have hlast := hsuccessive.length_mul_le hnone hT
      refine Nat.le_floor ((le_div_iff₀ hpos).mpr ?_)
      linarith
  · intro hprompt k f hf
    rw [hsuccessive.due_eq hprompt k f hf]
    ring

/-- Two sources are added at time 0, one with twice the rate of the other.  Passes come at 1/2, at
    5/4, back at 1, and at 3/2.  They come late for the faster one, but not by an interval of the
    slower one, which fires three times. -/
theorem fires_at_fixed_rate_of_late_passes :
    let host : Host ℚ Unit ℚ Empty := ⟨id, fun _ => .done, fun _ => .done, fun _ w => w⟩
    let slow : Source ℚ Unit := ⟨"slow", 1/2, ()⟩
    let setup : Routine ℚ Unit ℚ Empty := .write 0 (.add slow (.add ⟨"fast", 1/4, ()⟩ .done))
    let passAt (t : ℚ) : Routine ℚ Unit ℚ Empty := .write t (.runPending fun _ => .done)
    let calls :=
      [(1, setup), (4, passAt (1/2)), (4, passAt (5/4)), (4, passAt 1), (4, passAt (3/2))]
    let ledger := (performAllBooked host calls ({}, ([], 0))).2.1
    ∃ after : Ledger ℚ Unit, ledger = [] ++ .added ⟨1/2, 0, slow⟩ 0 :: after ∧
      let firings := Ledger.lineage 0 after
      firings.map (·.2) = [1/2, 5/4, 3/2] ∧
      (∀ (k : Nat) f, firings[k]? = some f → f.1.due = 0 + (k + 1) * (1/2)) ∧
      (∀ f g, firings[1]? = some f → firings[2]? = some g → 1/2 ≤ g.1.due - f.1.due) ∧
      firings.length ≤ ⌊((3/2 : ℚ) - 0) / (1/2)⌋₊ := by
  intro host slow setup passAt calls ledger
  have hledger : ledger = [] ++ .added ⟨1/2, 0, slow⟩ 0 :: ledger.tail := by decide +kernel
  obtain ⟨_, hfixed⟩ := fires_at_fixed_rate host calls 0
  obtain ⟨_, hdue, hgap, hcount, hexact⟩ := hfixed [] _ 0 _ hledger
  refine ⟨ledger.tail, hledger, by decide +kernel, hexact (by decide +kernel), hgap 1, ?_⟩
  exact hcount (3/2) (by decide +kernel)

end Ls8.Clock
