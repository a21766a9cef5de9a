import Ls8.Proofs.Clock.Conservation
import Ls8.Proofs.Clock.Ledger
import Mathlib.Data.Rat.Floor

/-
  One pass fires exactly what is due.

  A pass puts back what it takes out, and the commands that it runs change the same schedule.  Here
  commands may add sources and stop the clock; they do not fail, and they neither run what is
  pending nor start the clock (`Routine.AddsOrStops`).

  1. **The measure** is the list of the events that are due, in their order.  The first one of the
     list is what the heap gives (`exists_pop?_of_order`).  It comes back after the time of the
     pass, since missed firings are dropped, and whatever a command adds comes after it too.  So
     nothing becomes due, and after one firing it is the rest of the list that is due
     (`Episode.leftover`).

  2. **A stop** drops the rest of the list at once, and what a command adds afterwards is not due.
     So the firing whose command stops the clock is the last one (`ExactPass.fire_last`); otherwise
     the pass goes on (`ExactPass.fire_on`).

  3. **The ledger** says what a command does (`Episode`), and what the pass does is put together
     from that, by induction on the list (`exists_pass`).

  Main statement: `pass_is_exact`.
-/

namespace Ls8.Clock

variable {τ κ ω ε : Type}

/-! ## Reading a ledger -/

/-- The event of a source that was added. -/
def Entry.added? : Entry τ κ → Option (Event τ κ)
  | .added event _ => some event
  | _ => none

namespace Ledger

/-- The first events of the sources that were added. -/
def added (ledger : Ledger τ κ) : List (Event τ κ) := ledger.filterMap Entry.added?

theorem added_append (a b : Ledger τ κ) : added (a ++ b) = added a ++ added b :=
  List.filterMap_append

/-- A firing whose command fires nothing. -/
theorem taken_firing {entries : Ledger τ κ} (h : entries.taken = []) (e : Event τ κ) (t : τ)
    (again : Event τ κ) (more : Ledger τ κ) :
    taken (.taken e t again :: (entries ++ more)) = (e, again) :: taken more := by
  show (e, again) :: taken (entries ++ more) = _
  rw [taken_append, h, List.nil_append]

end Ledger

/-- A list that is put together from two, around something in it: that is in the second one, or in
    the first one. -/
theorem cases_of_append_eq {α : Type} {x : α} {a b before after : List α}
    (h : a ++ b = before ++ x :: after) :
    (∃ rest, before = a ++ rest ∧ b = rest ++ x :: after) ∨
      ∃ between, a = before ++ x :: between ∧ after = between ++ b := by
  rcases List.append_eq_append_iff.mp h with ⟨rest, hbefore, hb⟩ | ⟨rest, ha, hb⟩
  · exact .inl ⟨rest, hbefore, hb⟩
  · cases rest with
    | nil => exact .inl ⟨[], by rw [ha, List.append_nil, List.append_nil], hb.symm⟩
    | cons y between =>
      obtain ⟨rfl, hafter⟩ := List.cons.inj hb
      exact .inr ⟨between, ha, hafter⟩

/-- In a linear order all times are defined. -/
theorem timeLaws_of_linearOrder [LinearOrder τ] : TimeLaws τ where
  lt_iff _ _ := lt_iff_le_not_ge
  trans _ _ _ := le_trans
  total s t _ _ := le_total s t
  defined _ _ _ := ⟨le_refl _, le_refl _⟩

variable [Add τ] [Zero τ] [LE τ] [LT τ] [DecidableLE τ] [DecidableLT τ]

/-! ## Commands that add sources and stop the clock -/

/-- **A routine only adds sources and stops the clock,** besides reading and writing the world, from
    the world `w` on.  The sources are not refused, the clock does not show a time before `now` when
    they are added, and their intervals are not lost in it.  In the end the world has the
    property `I`, also at the end of a part that is attempted. -/
def Routine.AddsOrStops (host : Host τ κ ω ε) (now : τ) (I : ω → Prop) :
    Routine τ κ ω ε → ω → Prop
  | .done, w => I w
  | .fail _, _ => False
  | .read next, w => (next w).AddsOrStops host now I w
  | .write v next, _ => next.AddsOrStops host now I v
  | .add source next, w =>
    ¬ source.interval ≤ 0 ∧ now ≤ host.now w ∧ host.now w < host.now w + source.interval ∧
      next.AddsOrStops host now I w
  | .runPending _, _ => False
  | .start _, _ => False
  | .stop next, w => ∀ n, next.AddsOrStops host now I (host.told (.stopped n) w)
  | .attempt part _ next, w =>
    part.AddsOrStops host now I w ∧ ∀ v, I v → (next none).AddsOrStops host now I v

/-- **An event that may be fired** in a pass at the time `now`: its interval is not lost, neither in
    its own time nor in that of the pass, and its command only adds sources and stops the clock. -/
structure Event.Regular (host : Host τ κ ω ε) (now : τ) (I : ω → Prop) (e : Event τ κ) : Prop where
  later : e.due < e.due + e.source.interval
  again : now < now + e.source.interval
  command : ∀ w, I w → (host.fire e.source.command).AddsOrStops host now I w

/-- **What a command does to a schedule** in a pass at the time `now`, read off its entries in the
    ledger: what it adds is not due, and what there was is dropped if it stops the clock. -/
structure Episode (now : τ) (c : Clock τ κ) (entries : Ledger τ κ) (d : Clock τ κ) : Prop where
  conserved : ∃ sources, Conserved d sources
  dispatched : d.dispatched = c.dispatched
  taken : entries.taken = []
  later : ∀ e ∈ entries.added, now < e.due
  events : ∀ e ∈ d.events.toList, e ∈ entries.added ∨ .dropped ∉ entries ∧ e ∈ c.events.toList
  kept : .dropped ∉ entries → d.events.toList.Perm (c.events.toList ++ entries.added)
  dropped : ∀ before after, entries = before ++ .dropped :: after →
    (∀ e ∈ d.events.toList, e ∈ Ledger.added after) ∧
      (.dropped ∉ after → d.events.toList.Perm (Ledger.added after))

namespace Episode

variable {now : τ} {c d : Clock τ κ} {entries : Ledger τ κ}

omit [Add τ] [Zero τ] in
theorem nothing {sources : List (Source τ κ)} (h : Conserved c sources) : Episode now c [] c where
  conserved := ⟨sources, h⟩
  dispatched := rfl
  taken := rfl
  later _ he := absurd he List.not_mem_nil
  events _ he := .inr ⟨List.not_mem_nil, he⟩
  kept _ := by
    show c.events.toList.Perm (c.events.toList ++ [])
    rw [List.append_nil]
  dropped before after h := by simp at h

omit [Add τ] [Zero τ] in
/-- A source is added, for a time that comes after the pass. -/
theorem added {source : Source τ κ} {due t : τ} {sources : List (Source τ κ)}
    (h : Conserved (c.schedule source due) sources) (hdue : now < due) :
    Episode now c [.added ⟨due, c.sequence, source⟩ t] (c.schedule source due) where
  conserved := ⟨sources, h⟩
  dispatched := rfl
  taken := rfl
  later := by
    intro e he
    obtain rfl := List.mem_singleton.mp he
    exact hdue
  events := by
    intro e he
    rcases List.mem_cons.mp ((events_schedule c source due).mem_iff.mp he) with rfl | hold
    · exact .inl List.mem_cons_self
    · exact .inr ⟨by simp, hold⟩
  kept _ := (events_schedule c source due).trans (List.perm_append_singleton _ _).symm
  dropped before after heq := by
    have hmem : Entry.dropped ∈ [Entry.added ⟨due, c.sequence, source⟩ t] :=
      heq ▸ List.mem_append_right before List.mem_cons_self
    simp at hmem

omit [Add τ] [Zero τ] in
/-- The clock is stopped. -/
theorem stopped (now : τ) (c : Clock τ κ) : Episode now c [.dropped] c.stop where
  conserved := ⟨[], .of_empty rfl⟩
  dispatched := rfl
  taken := rfl
  later _ he := absurd he List.not_mem_nil
  events _ he := absurd he List.not_mem_nil
  kept hno := absurd List.mem_cons_self hno
  dropped before after heq := by
    obtain ⟨rfl, _, rfl⟩ := List.append_eq_singleton_iff.mp heq.symm |>.resolve_right (by simp)
    exact ⟨fun e he => absurd he List.not_mem_nil, fun _ => .refl _⟩

omit [Add τ] [Zero τ] in
/-- **One thing is done after the other.** -/
theorem trans {d' : Clock τ κ} {more : Ledger τ κ} (h : Episode now c entries d)
    (h' : Episode now d more d') : Episode now c (entries ++ more) d' where
  conserved := h'.conserved
  dispatched := h'.dispatched.trans h.dispatched
  taken := by rw [Ledger.taken_append, h.taken, h'.taken, List.append_nil]
  later := by
    intro e he
    rw [Ledger.added_append] at he
    exact (List.mem_append.mp he).elim (h.later e) (h'.later e)
  events := by
    intro e he
    rw [Ledger.added_append]
    rcases h'.events e he with hadded | ⟨hgo', hold⟩
    · exact .inl (List.mem_append_right _ hadded)
    · rcases h.events e hold with hadded | ⟨hgo, hold⟩
      · exact .inl (List.mem_append_left _ hadded)
      · exact .inr ⟨fun hmem => (List.mem_append.mp hmem).elim hgo hgo', hold⟩
  kept := by
    intro hno
    have hkept := h.kept fun hmem => hno (List.mem_append_left _ hmem)
    have hkept' := h'.kept fun hmem => hno (List.mem_append_right _ hmem)
    rw [Ledger.added_append, ← List.append_assoc]
    exact hkept'.trans (hkept.append_right _)
  dropped := by
    intro before after heq
    rcases cases_of_append_eq heq with ⟨rest, rfl, hrest⟩ | ⟨between, hbetween, rfl⟩
    · exact h'.dropped rest after hrest
    · -- what the first part added after its last stop is still there, unless the second one stops
      obtain ⟨hevents, hperm⟩ := h.dropped before between hbetween
      rw [Ledger.added_append]
      refine ⟨fun e he => ?_, fun hno => ?_⟩
      · rcases h'.events e he with hadded | ⟨_, hold⟩
        · exact List.mem_append_right _ hadded
        · exact List.mem_append_left _ (hevents e hold)
      · have hkept := h'.kept fun hmem => hno (List.mem_append_right _ hmem)
        have hearlier := hperm fun hmem => hno (List.mem_append_left _ hmem)
        exact hkept.trans (hearlier.append_right _)

end Episode

variable {host : Host τ κ ω ε} {now : τ} {I : ω → Prop}

/-- **A routine that only adds sources and stops the clock** succeeds, whatever passes and starts
    would do. -/
theorem exists_episode (laws : TimeLaws τ) (r : Routine τ κ ω ε) : ∀ (c : Clock τ κ)
    (sources : List (Source τ κ)) (ledger : Ledger τ κ) (w : ω), r.AddsOrStops host now I w →
    Conserved c sources → ∃ entries d v, Episode now c entries d ∧ I v ∧
      ∀ pending started, r.runBooked host pending started (c, (ledger, w)) =
        .ok () (d, (ledger ++ entries, v)) := by
  induction r with
  | done =>
    intro c sources ledger w hr hc
    refine ⟨[], c, w, .nothing hc, hr, fun pending started => ?_⟩
    rw [List.append_nil]
    rfl
  | fail | runPending | start => exact fun c sources ledger w hr => hr.elim
  | read next ih => exact fun c sources ledger w => ih w c sources ledger w
  | write v next ih => exact fun c sources ledger w => ih c sources ledger v
  | add source next ih =>
    intro c sources ledger w hr hc
    obtain ⟨hpos, htime, hlate, hnext⟩ := hr
    have hadded := hc.schedule laws source (host.now w + source.interval)
    obtain ⟨entries, d, v, hepisode, hv, hrun⟩ :=
      ih _ _ (ledger ++ [.added (c.firstEvent source (host.now w)) (host.now w)]) w hnext hadded
    have hfirst : Episode now c [.added (c.firstEvent source (host.now w)) (host.now w)] _ :=
      .added hadded (laws.lt_of_le_of_lt htime hlate)
    refine ⟨_, d, v, hfirst.trans hepisode, hv, fun pending started => ?_⟩
    rw [runBooked_add_of_ok (if_neg hpos), ← List.append_assoc]
    exact hrun pending started
  | stop next ih =>
    intro c sources ledger w hr _
    obtain ⟨entries, d, v, hepisode, hv, hrun⟩ :=
      ih c.stop [] (ledger ++ [.dropped]) _ (hr c.dispatched) (.of_empty rfl)
    refine ⟨_, d, v, (Episode.stopped now c).trans hepisode, hv, fun pending started => ?_⟩
    rw [← List.append_assoc]
    exact hrun pending started
  | attempt part catches next ihpart ihnext =>
    intro c sources ledger w hr hc
    obtain ⟨entries, d, v, hepisode, hv, hrun⟩ := ihpart c sources ledger w hr.1 hc
    obtain ⟨sources', hd⟩ := hepisode.conserved
    obtain ⟨more, d', v', hepisode', hv', hrun'⟩ :=
      ihnext none d sources' (ledger ++ entries) v (hr.2 v hv) hd
    refine ⟨_, d', v', hepisode.trans hepisode', hv', fun pending started => ?_⟩
    have hpart := hrun pending started
    rw [← List.append_assoc, ← hrun' pending started]
    show attempted catches (part.runBooked host pending started)
      (fun caught => (next caught).runBooked host pending started) _ = _
    rw [attempted, hpart]

/-! ## The events that are due, in order -/

section Due
variable {c : Clock τ κ} {sources : List (Source τ κ)} {e : Event τ κ} {order : List (Event τ κ)}

/-- The events that are due. -/
def dueEvents (c : Clock τ κ) (now : τ) : List (Event τ κ) :=
  c.events.toList.filter fun e => e.due ≤ now

/-- The events that are not due yet. -/
def laterEvents (c : Clock τ κ) (now : τ) : List (Event τ κ) :=
  c.events.toList.filter fun e => ¬ e.due ≤ now

omit [Add τ] [Zero τ] [LT τ] [DecidableLT τ] in
theorem mem_dueEvents : e ∈ c.dueEvents now ↔ e ∈ c.events.toList ∧ e.due ≤ now := by
  rw [dueEvents, List.mem_filter, decide_eq_true_eq]

omit [Add τ] [Zero τ] in
theorem Event.due_le_of_before (laws : TimeLaws τ) {a b : Event τ κ} (h : a.before b = true) :
    a.due ≤ b.due := by
  simp only [Event.before, Bool.or_eq_true, Bool.and_eq_true, decide_eq_true_eq] at h
  rcases h with hlt | hle
  · exact ((laws.lt_iff _ _).mp hlt).1
  · exact hle.1.1

omit [Add τ] [Zero τ] in
/-- What is due can be put in order. -/
theorem exists_order (laws : TimeLaws τ) (hc : Conserved c sources)
    (hdefined : ∀ e ∈ c.events.toList, e.Defined) (now : τ) :
    ∃ order : List (Event τ κ), order.Perm (c.dueEvents now) ∧
      order.Pairwise fun a b => a.before b = true := by
  -- events that are not defined are put behind, so that there is an order of all of them
  let notAfter (a b : Event τ κ) : Bool := !Heap.behind Event.Defined Event.before b a
  have ho := Heap.orders_behind (ordersOn_before (κ := κ) laws)
  have hsorted :
      ((c.dueEvents now).mergeSort notAfter).Pairwise fun a b => notAfter a b = true := by
    apply List.pairwise_mergeSort
    · intro a b d hab hbd
      simp only [notAfter, Bool.not_eq_true'] at hab hbd ⊢
      exact ho.trans hab hbd
    · intro a b
      simp only [notAfter, Bool.or_eq_true, Bool.not_eq_true']
      cases hba : Heap.behind Event.Defined Event.before b a with
      | false => exact .inl rfl
      | true => exact .inr (ho.asymm hba)
  have hperm := List.mergeSort_perm (c.dueEvents now) notAfter
  have hnumbers : ((c.dueEvents now).map (·.sequence)).Nodup :=
    hc.numbers.sublist (List.filter_sublist.map _)
  have hne := List.pairwise_map.mp ((hperm.map (·.sequence)).nodup_iff.mpr hnumbers)
  refine ⟨_, hperm, (hsorted.and hne).imp_of_mem fun {a b} ha hb hab => ?_⟩
  have hdef {x : Event τ κ} (hx : x ∈ (c.dueEvents now).mergeSort notAfter) : x.Defined :=
    hdefined x (mem_dueEvents.mp (hperm.mem_iff.mp hx)).1
  obtain ⟨hnot, hne⟩ := hab
  simp only [notAfter, Bool.not_eq_true'] at hnot
  rw [Heap.behind_of_kind (hdef hb) (hdef ha)] at hnot
  exact before_of_before_eq_false laws (hdef ha) (hdef hb) (Ne.symm hne) hnot

omit [Add τ] [Zero τ] in
/-- **The first one that is due** is what the clock gives first. -/
theorem exists_pop?_of_order (laws : TimeLaws τ) (hc : Conserved c sources)
    (hdefined : ∀ e ∈ c.events.toList, e.Defined) (hperm : (e :: order).Perm (c.dueEvents now))
    (hsorted : (e :: order).Pairwise fun a b => a.before b = true) :
    ∃ rest, c.events.pop? Event.before = some (e, rest) := by
  obtain ⟨he, hdue⟩ := mem_dueEvents.mp (hperm.mem_iff.mp List.mem_cons_self)
  cases hpop : c.events.pop? Event.before with
  | none =>
    rw [Heap.pop?_eq_none_iff.mp hpop] at he
    exact absurd he List.not_mem_nil
  | some popped =>
    obtain ⟨x, rest⟩ := popped
    have hx : x ∈ c.events.toList := (Heap.toList_of_pop? hpop).mem_iff.mp List.mem_cons_self
    have htop := Heap.top?_of_pop? hpop
    rcases before_of_top? laws (hc.heap hdefined) hdefined hc.numbers htop e he with rfl | hbefore
    · exact ⟨rest, rfl⟩
    · -- what comes before something that is due is due, so it does not come before the first one
      have hxdue : x.due ≤ now := laws.trans _ _ _ (Event.due_le_of_before laws hbefore) hdue
      rcases List.mem_cons.mp (hperm.mem_iff.mpr (mem_dueEvents.mpr ⟨hx, hxdue⟩)) with rfl | hmem
      · exact ⟨rest, rfl⟩
      · have hafter := (List.pairwise_cons.mp hsorted).1 x hmem
        have hnot := (ordersOn_before laws).asymm (hdefined e he) (hdefined x hx) hafter
        rw [hbefore] at hnot
        cases hnot

end Due

/-! ## One firing -/

/-- The event that comes back and those that are added, each among its like. -/
theorem perm_of_fired {α : Type} (again : α) (later added more others : List α) :
    (again :: (later ++ added) ++ more ++ others).Perm
      (later ++ again :: more ++ (added ++ others)) := by
  have hswap : (later ++ added ++ more).Perm (later ++ more ++ added) := by
    rw [List.append_assoc, List.append_assoc]
    exact List.perm_append_comm.append_left later
  have hfront : (again :: (later ++ added ++ more ++ others)).Perm
      (again :: (later ++ more ++ added ++ others)) := (hswap.append_right others).cons again
  have hback : (again :: (later ++ (more ++ (added ++ others)))).Perm
      (later ++ again :: (more ++ (added ++ others))) := List.perm_middle.symm
  simp only [List.append_assoc, List.cons_append] at hfront hback ⊢
  exact hfront.trans hback

/-- **What a pass does** at the time `now` on a clock whose events were due in this order, read off
    its entries in the ledger: it fires so many of them, the first one first. -/
structure ExactPass (now : τ) (c : Clock τ κ) (order : List (Event τ κ)) (entries : Ledger τ κ)
    (count : Nat) (d : Clock τ κ) : Prop where
  fired : entries.taken.map (·.1) = order.take count
  dispatched : d.dispatched = c.dispatched + count
  again : ∀ e again, (e, again) ∈ entries.taken →
    again.due = nextDue e now ∧ again.source = e.source
  later : ∀ e ∈ d.events.toList, now < e.due
  kept : .dropped ∉ entries → count = order.length ∧
    d.events.toList.Perm (c.laterEvents now ++ entries.taken.map (·.2) ++ entries.added)
  dropped : ∀ before after, entries = before ++ .dropped :: after →
    count = (Ledger.taken before).length ∧ (∀ e ∈ d.events.toList, e ∈ Ledger.added after) ∧
      (.dropped ∉ after → d.events.toList.Perm (Ledger.added after))

section Firing
variable {c d : Clock τ κ} {e : Event τ κ} {rest : Heap (Event τ κ)} {order : List (Event τ κ)}
variable {entries more : Ledger τ κ} {count : Nat}

omit [Zero τ] [DecidableLT τ] in
/-- A pass that finds nothing due. -/
theorem ExactPass.nothing (hlater : ∀ e ∈ c.events.toList, now < e.due)
    (hnone : ∀ e ∈ c.events.toList, ¬ e.due ≤ now) : ExactPass now c [] [] 0 c where
  fired := rfl
  dispatched := rfl
  again _ _ h := absurd h List.not_mem_nil
  later := hlater
  kept _ := by
    have hall : c.laterEvents now = c.events.toList :=
      List.filter_eq_self.mpr fun e he => decide_eq_true (hnone e he)
    show 0 = 0 ∧ c.events.toList.Perm (c.laterEvents now ++ [] ++ [])
    rw [hall, List.append_nil, List.append_nil]
    exact ⟨rfl, .refl _⟩
  dropped before after h := by simp at h

omit [Zero τ] in
/-- **The command stops the clock,** so this firing is the last one. -/
theorem ExactPass.fire_last (hepisode : Episode now (c.reschedule e rest now) entries d)
    (hstop : .dropped ∈ entries) :
    ExactPass now c (e :: order) (.taken e now (c.nextEvent e now) :: entries) 1 d.countFiring := by
  have htaken : Ledger.taken (.taken e now (c.nextEvent e now) :: entries) =
      [(e, c.nextEvent e now)] := congrArg _ hepisode.taken
  constructor
  · rw [htaken]
    rfl
  · exact congrArg (· + 1) hepisode.dispatched
  · intro x y hxy
    rw [htaken] at hxy
    cases List.mem_singleton.mp hxy
    exact ⟨rfl, rfl⟩
  · intro x hx
    rcases hepisode.events x hx with hadded | ⟨hno, _⟩
    · exact hepisode.later x hadded
    · exact absurd hstop hno
  · exact fun hno => absurd (List.mem_cons_of_mem _ hstop) hno
  · intro before after heq
    cases before with
    | nil => cases heq
    | cons x before =>
      rw [List.cons_append] at heq
      obtain ⟨rfl, rfl⟩ := List.cons.inj heq
      refine ⟨?_, hepisode.dropped before after rfl⟩
      -- the command has fired nothing before it stopped the clock
      have hnone := hepisode.taken
      rw [Ledger.taken_append] at hnone
      have hbefore : Ledger.taken before = [] := (List.append_eq_nil_iff.mp hnone).1
      show 1 = (Ledger.taken before).length + 1
      rw [hbefore]
      rfl

/-- **What a firing leaves due,** and what it leaves for later, if its command does not stop the
    clock. -/
structure Leftover (now : τ) (c : Clock τ κ) (e : Event τ κ) (entries : Ledger τ κ)
    (d : Clock τ κ) : Prop where
  due : (e :: d.dueEvents now).Perm (c.dueEvents now)
  later : (d.laterEvents now).Perm (c.nextEvent e now :: (c.laterEvents now ++ entries.added))

omit [Zero τ] in
/-- **A firing leaves one event less that is due,** and adds none. -/
theorem Episode.leftover (hepisode : Episode now (c.reschedule e rest now) entries d)
    (hgo : .dropped ∉ entries) (hpop : c.events.pop? Event.before = some (e, rest))
    (hdue : e.due ≤ now) (hnext : ¬ nextDue e now ≤ now)
    (hadded : ∀ x ∈ entries.added, ¬ x.due ≤ now) : Leftover now c e entries d := by
  have hold : c.events.toList.Perm (e :: rest.toList) := (Heap.toList_of_pop? hpop).symm
  have hnew : d.events.toList.Perm (c.nextEvent e now :: (rest.toList ++ entries.added)) :=
    (hepisode.kept hgo).trans ((events_schedule _ _ _).append_right _)
  have hnotDue : ¬ (c.nextEvent e now).due ≤ now := hnext
  constructor
  · have hnone : entries.added.filter (fun x => decide (x.due ≤ now)) = [] :=
      List.filter_eq_nil_iff.mpr fun x hx => by simpa using hadded x hx
    have hfirst := hnew.filter fun x => decide (x.due ≤ now)
    have hothers := hold.filter fun x => decide (x.due ≤ now)
    rw [List.filter_cons_of_neg (by simpa using hnotDue), List.filter_append, hnone,
      List.append_nil] at hfirst
    rw [List.filter_cons_of_pos (by simpa using hdue)] at hothers
    exact (hfirst.cons e).trans hothers.symm
  · have hall : entries.added.filter (fun x => decide (¬ x.due ≤ now)) = entries.added :=
      List.filter_eq_self.mpr fun x hx => decide_eq_true (hadded x hx)
    have hfirst := hnew.filter fun x => decide (¬ x.due ≤ now)
    have hothers := hold.filter fun x => decide (¬ x.due ≤ now)
    rw [List.filter_cons_of_pos (by simpa using hnotDue), List.filter_append, hall] at hfirst
    rw [List.filter_cons_of_neg (by simpa using hdue)] at hothers
    exact hfirst.trans ((hothers.symm.append_right _).cons _)

omit [Zero τ] in
/-- **The command does not stop the clock,** so the pass goes on after this firing. -/
theorem ExactPass.fire_on {d' : Clock τ κ}
    (hepisode : Episode now (c.reschedule e rest now) entries d) (hgo : .dropped ∉ entries)
    (hleft : Leftover now c e entries d)
    (hrest : ExactPass now d.countFiring order more count d') :
    ExactPass now c (e :: order) (.taken e now (c.nextEvent e now) :: (entries ++ more)) (count + 1)
      d' := by
  have htaken := Ledger.taken_firing hepisode.taken e now (c.nextEvent e now)
  constructor
  · rw [htaken, List.map_cons, hrest.fired]
    rfl
  · have hfirst : d.dispatched = c.dispatched := hepisode.dispatched
    have hothers : d'.dispatched = d.dispatched + 1 + count := hrest.dispatched
    omega
  · intro x y hxy
    rw [htaken] at hxy
    rcases List.mem_cons.mp hxy with heq | hxy
    · cases heq
      exact ⟨rfl, rfl⟩
    · exact hrest.again x y hxy
  · exact hrest.later
  · intro hno
    obtain ⟨hcount, hevents⟩ := hrest.kept fun hmem =>
      hno (List.mem_cons_of_mem _ (List.mem_append_right _ hmem))
    have hadded : Ledger.added (.taken e now (c.nextEvent e now) :: (entries ++ more)) =
        entries.added ++ more.added := Ledger.added_append entries more
    refine ⟨congrArg (· + 1) hcount, hevents.trans ?_⟩
    rw [htaken, List.map_cons, hadded]
    exact ((hleft.later.append_right _).append_right _).trans (perm_of_fired _ _ _ _ _)
  · intro before after heq
    cases before with
    | nil => cases heq
    | cons x before =>
      -- the stop is not among the entries of this firing, so it is among those of a later one
      rw [List.cons_append] at heq
      obtain ⟨rfl, htail⟩ := List.cons.inj heq
      obtain ⟨before', rfl, hmore⟩ := (cases_of_append_eq htail).resolve_right fun ⟨_, hentries, _⟩ =>
        hgo (hentries ▸ List.mem_append_right _ List.mem_cons_self)
      obtain ⟨hcount, hevents⟩ := hrest.dropped before' after hmore
      refine ⟨?_, hevents⟩
      rw [htaken, List.length_cons, hcount]

end Firing

omit [Zero τ] in
/-- What a firing leaves is defined if what there was is. -/
theorem Episode.defined (laws : TimeLaws τ) {c d : Clock τ κ} {e : Event τ κ}
    {rest : Heap (Event τ κ)} {entries : Ledger τ κ}
    (h : Episode now (c.reschedule e rest now) entries d)
    (hpop : c.events.pop? Event.before = some (e, rest)) (hnext : now < nextDue e now)
    (hdefined : ∀ x ∈ c.events.toList, x.Defined) : ∀ x ∈ d.events.toList, x.Defined := by
  intro x hx
  rcases h.events x hx with hadded | ⟨_, hold⟩
  · exact laws.defined_of_lt (h.later x hadded)
  · rcases List.mem_cons.mp ((events_schedule _ _ _).mem_iff.mp hold) with rfl | hold
    · exact laws.defined_of_lt hnext
    · exact hdefined x ((Heap.toList_of_pop? hpop).mem_iff.mp (List.mem_cons_of_mem e hold))

/-- A pass whose first command has been run. -/
theorem passBooked_of_due {fuel fired : Nat} {c d : Clock τ κ} {s t : Booked τ κ ω} {e : Event τ κ}
    {rest : Heap (Event τ κ)} [Sub τ] (hpop : c.events.pop? Event.before = some (e, rest))
    (hdue : e.due ≤ now)
    (hrun : (host.fire e.source.command).runBooked host (pendingBooked host fuel)
      (startBooked host fuel)
      (c.reschedule e rest now, s.enter (.taken e now (c.nextEvent e now))) = .ok () (d, t)) :
    passBooked host (fuel + 1) now fired (c, s) =
      passBooked host fuel now (fired + 1) (d.countFiring, t) := by
  rw [passBooked_succ, hpop]
  simp only [if_pos hdue]
  show EStateM.bind _ _ _ = _
  rw [EStateM.bind, hrun]
  rfl

/-- A pass that finds nothing due ends at once. -/
theorem passBooked_of_none_due [Sub τ] (fuel fired : Nat) {c : Clock τ κ} {s : Booked τ κ ω}
    (hnone : ∀ e ∈ c.events.toList, ¬ e.due ≤ now) :
    passBooked host (fuel + 1) now fired (c, s) = .ok fired (c, s) := by
  rw [passBooked_succ]
  cases hpop : c.events.pop? Event.before with
  | none => rfl
  | some popped =>
    obtain ⟨e, rest⟩ := popped
    exact if_neg (hnone e ((Heap.toList_of_pop? hpop).mem_iff.mp List.mem_cons_self))

/-- **A pass on a clock whose events are due in this order** ends, whatever its fuel is, if that is
    more than they are. -/
theorem exists_pass [Sub τ] (laws : TimeLaws τ) (hnow : now ≤ now) (order : List (Event τ κ)) :
    ∀ (c : Clock τ κ) (sources : List (Source τ κ)) (ledger : Ledger τ κ) (w : ω),
    Conserved c sources → (∀ e ∈ c.events.toList, e.Defined) →
    order.Perm (c.dueEvents now) → (order.Pairwise fun a b => a.before b = true) →
    (∀ e ∈ order, e.Regular host now I) → I w →
    ∃ entries count d v, ExactPass now c order entries count d ∧ I v ∧
      ∀ fuel fired, order.length < fuel → passBooked host fuel now fired (c, (ledger, w)) =
        .ok (fired + count) (d, (ledger ++ entries, v)) := by
  induction order with
  | nil =>
    intro c sources ledger w _ hdefined hperm _ _ hw
    have hnone : ∀ e ∈ c.events.toList, ¬ e.due ≤ now := by
      intro e he hdue
      have hmem := hperm.mem_iff.mpr (mem_dueEvents.mpr ⟨he, hdue⟩)
      exact absurd hmem List.not_mem_nil
    have hlater : ∀ e ∈ c.events.toList, now < e.due :=
      fun e he => (laws.not_le_iff hnow (hdefined e he)).mp (hnone e he)
    refine ⟨[], 0, c, w, .nothing hlater hnone, hw, fun fuel fired hfuel => ?_⟩
    have hfuel : 0 < fuel := hfuel
    obtain ⟨fuel, rfl⟩ : ∃ n, fuel = n + 1 := ⟨fuel - 1, by omega⟩
    rw [List.append_nil]
    exact passBooked_of_none_due fuel fired hnone
  | cons e order ih =>
    intro c sources ledger w hc hdefined hperm hsorted hregular hw
    obtain ⟨hlater, hagain, hcommand⟩ := hregular e List.mem_cons_self
    obtain ⟨_, hdue⟩ := mem_dueEvents.mp (hperm.mem_iff.mp List.mem_cons_self)
    obtain ⟨rest, hpop⟩ := exists_pop?_of_order laws hc hdefined hperm hsorted
    have hnext : now < nextDue e now :=
      lt_nextDue hagain (laws.not_le_iff hnow (laws.defined_of_lt hlater)).mp
    obtain ⟨entries, d, v, hepisode, hv, hrun⟩ := exists_episode laws (host.fire e.source.command)
      (c.reschedule e rest now) sources (ledger ++ [.taken e now (c.nextEvent e now)]) w
      (hcommand w hw) (hc.reschedule laws hpop hdue)
    have hledger : ledger ++ [.taken e now (c.nextEvent e now)] ++ entries =
        ledger ++ .taken e now (c.nextEvent e now) :: entries :=
      (List.append_cons _ _ _).symm
    by_cases hstop : .dropped ∈ entries
    · -- nothing is left that is due
      have hexact : ExactPass now c (e :: order) _ 1 d.countFiring := .fire_last hepisode hstop
      have hnone : ∀ x ∈ d.countFiring.events.toList, ¬ x.due ≤ now :=
        fun x hx => laws.not_le_of_lt (hexact.later x hx)
      refine ⟨_, 1, d.countFiring, v, hexact, hv, fun fuel fired hfuel => ?_⟩
      have hfuel : order.length + 1 < fuel := hfuel
      obtain ⟨fuel, rfl⟩ : ∃ n, fuel = n + 1 + 1 := ⟨fuel - 2, by omega⟩
      rw [passBooked_of_due hpop hdue (hrun _ _), passBooked_of_none_due fuel _ hnone, hledger]
    · -- the rest of the list is left
      have hleft : Leftover now c e entries d := by
        refine hepisode.leftover hstop hpop hdue (laws.not_le_of_lt hnext) fun x hx => ?_
        exact laws.not_le_of_lt (hepisode.later x hx)
      have hdefined' := hepisode.defined laws hpop hnext hdefined
      have hperm' : order.Perm (d.countFiring.dueEvents now) :=
        (hperm.trans hleft.due.symm).cons_inv
      obtain ⟨sources', hconserved⟩ := hepisode.conserved
      obtain ⟨more, count, d', v', hrest, hv', hpass⟩ := ih d.countFiring sources'
        (ledger ++ .taken e now (c.nextEvent e now) :: entries) v (hconserved.congr rfl rfl)
        hdefined' hperm' (List.pairwise_cons.mp hsorted).2
        (fun x hx => hregular x (List.mem_cons_of_mem e hx)) hv
      refine ⟨_, count + 1, d', v', hrest.fire_on hepisode hstop hleft, hv', ?_⟩
      intro fuel fired hfuel
      have hfuel : order.length + 1 < fuel := hfuel
      obtain ⟨fuel, rfl⟩ : ∃ n, fuel = n + 1 := ⟨fuel - 1, by omega⟩
      rw [passBooked_of_due hpop hdue (hrun _ _), hledger, hpass fuel (fired + 1) (by omega),
        List.append_assoc, List.cons_append, Nat.add_right_comm, Nat.add_assoc]

/-! ## The main statement -/

omit [Zero τ] in
/-- When an event is due again, seen from the time of the pass. -/
theorem nextDue_eq (laws : TimeLaws τ) {e : Event τ κ} (hnow : now ≤ now)
    (hlater : e.due < e.due + e.source.interval) :
    nextDue e now = if now < e.due + e.source.interval then e.due + e.source.interval
      else now + e.source.interval := by
  have hiff := laws.not_le_iff hnow (laws.defined_of_lt hlater)
  rw [nextDue]
  by_cases hnext : now < e.due + e.source.interval
  · rw [if_pos hnext, if_neg (hiff.mpr hnext)]
  · rw [if_neg hnext, if_pos (Classical.byContradiction fun hnot => hnext (hiff.mp hnot))]

/-- **One pass is exact.**

    Take a clock with one event for each source, as whoever has control finds it
    (`Session.accounted`, `Control.accounted`), all its times being defined, as they are in a linear
    order (`timeLaws_of_linearOrder`).  Let the commands of what is due only add sources and stop
    the clock.  Then a pass ends, and comes to the same whatever its fuel is, if that is more than
    there are events due.

    It fires the first ones of the events that were due, in the order of their times and numbers,
    and runs no other commands; it returns and counts how many.  Whatever it leaves comes after the
    time of the pass.  What was fired is due again one interval after it was due, or one interval
    after the pass if the other time has passed.

    If the clock is not stopped, all that was due has been fired, and the events are those that were
    not due, as they were, those that come back and those that were added.  If it is stopped, the
    firing whose command did so was the last one, and the events are those that were added after
    that: none if there was none. -/
theorem pass_is_exact [Sub τ] (laws : TimeLaws τ) (host : Host τ κ ω ε) {c : Clock τ κ}
    {sources : List (Source τ κ)} (hc : Conserved c sources)
    (hdefined : ∀ e ∈ c.events.toList, e.Defined) {w : ω} (hnow : host.now w ≤ host.now w)
    {I : ω → Prop} (hw : I w)
    (hregular : ∀ e ∈ c.dueEvents (host.now w), e.Regular host (host.now w) I) :
    let now := host.now w
    ∃ order : List (Event τ κ),
      order.Perm (c.dueEvents now) ∧ (order.Pairwise fun a b => a.before b = true) ∧
      ∃ (entries : Ledger τ κ) (count : Nat) (d : Clock τ κ) (v : ω),
        (∀ fuel, order.length < fuel →
          runPending host fuel (c, w) = .ok count (d, v) ∧
          passBooked host fuel now 0 (c, ([], w)) = .ok count (d, (entries, v)) ∧
          (firings host fuel (.runPending fun _ => .done) (c, w)).map (·.1) =
            (order.take count).map (·.source.command)) ∧
        entries.taken.map (·.1) = order.take count ∧
        d.dispatched = c.dispatched + count ∧
        (∀ e ∈ d.events.toList, now < e.due) ∧
        (∀ e again, (e, again) ∈ entries.taken → again.source = e.source ∧
          again.due = if now < e.due + e.source.interval then e.due + e.source.interval
            else now + e.source.interval) ∧
        (.dropped ∉ entries → count = order.length ∧
          d.events.toList.Perm (c.laterEvents now ++ entries.taken.map (·.2) ++ entries.added)) ∧
        ∀ before after : Ledger τ κ, entries = before ++ .dropped :: after →
          count = before.taken.length ∧ (after.added = [] → d.events = .empty) ∧
            (.dropped ∉ after → d.events.toList.Perm after.added) := by
  intro now
  obtain ⟨order, hperm, hsorted⟩ := exists_order laws hc hdefined now
  have hall : ∀ e ∈ order, e.Regular host now I :=
    fun e he => hregular e (hperm.mem_iff.mp he)
  obtain ⟨entries, count, d, v, hexact, _, hpass⟩ :=
    exists_pass laws hnow order c sources [] w hc hdefined hperm hsorted hall hw
  refine ⟨order, hperm, hsorted, entries, count, d, v, fun fuel hfuel => ?_, hexact.fired,
    hexact.dispatched, hexact.later, fun e again htaken => ?_, hexact.kept,
    fun before after heq => ?_⟩
  · have hbooked := hpass fuel 0 hfuel
    rw [Nat.zero_add, List.nil_append] at hbooked
    have hbare := projects_passBooked host fuel now 0 (c, ([], w))
    rw [hbooked] at hbare
    refine ⟨hbare.symm, hbooked, ?_⟩
    rw [← hexact.fired, List.map_map]
    exact firings_of_booked hbooked
  · -- what was fired was due
    have he : e ∈ order := by
      have hmem : e ∈ entries.taken.map (·.1) := List.mem_map.mpr ⟨_, htaken, rfl⟩
      rw [hexact.fired] at hmem
      exact List.mem_of_mem_take hmem
    obtain ⟨hdue, hsource⟩ := hexact.again e again htaken
    exact ⟨hsource, hdue.trans (nextDue_eq laws hnow (hall e he).later)⟩
  · obtain ⟨hcount, hafter, hlast⟩ := hexact.dropped before after heq
    refine ⟨hcount, fun hnone => ?_, hlast⟩
    cases hevents : d.events with
    | empty => rfl
    | node l e r =>
      have he := hafter e (hevents ▸ List.mem_cons_self)
      rw [hnone] at he
      exact absurd he List.not_mem_nil

/-- Three sources are due, the first one since long ago.  Its command adds a source, and that of the
    second one stops the clock, so the third one is not fired. -/
theorem pass_is_exact_of_stop :
    let first : Source ℚ String := ⟨"first", 1, "extend"⟩
    let second : Source ℚ String := ⟨"second", 2, "stop"⟩
    let third : Source ℚ String := ⟨"third", 2, ""⟩
    let extra : Source ℚ String := ⟨"extra", 1, ""⟩
    let host : Host ℚ String ℚ Empty := {
      now := id
      fire := fun k =>
        if k = "extend" then .add extra .done else if k = "stop" then .stop .done else .done
      sleep := fun _ => .done
      told := fun _ now => now }
    let c := ((({} : Clock ℚ String).schedule first 1).schedule second 2).schedule third 2
    ∃ d v, (∀ fuel, 3 < fuel → runPending host fuel (c, 5/2) = .ok 2 (d, v)) ∧
      d.dispatched = 2 ∧ d.events = .empty := by
  intro first second third extra host c
  have laws : TimeLaws ℚ := timeLaws_of_linearOrder
  have hc : Conserved c [third, second, first] :=
    (((Conserved.of_empty rfl).schedule laws first 1).schedule laws second 2).schedule laws third 2
  have hdue : c.dueEvents (5/2) = [⟨1, 0, first⟩, ⟨2, 1, second⟩, ⟨2, 2, third⟩] := by
    decide +kernel
  have hregular : ∀ e ∈ c.dueEvents (5/2), e.Regular host (5/2) (· = 5/2) := by
    rw [hdue]
    intro e he
    have hcases : e = ⟨1, 0, first⟩ ∨ e = ⟨2, 1, second⟩ ∨ e = ⟨2, 2, third⟩ := by
      simpa using he
    rcases hcases with rfl | rfl | rfl
    · refine ⟨by decide +kernel, by decide +kernel, ?_⟩
      rintro w rfl
      exact ⟨by decide +kernel, le_refl _, by decide +kernel, rfl⟩
    · refine ⟨by decide +kernel, by decide +kernel, ?_⟩
      rintro w rfl
      exact fun n => rfl
    · refine ⟨by decide +kernel, by decide +kernel, ?_⟩
      rintro w rfl
      exact rfl
  obtain ⟨order, hperm, _, entries, count, d, v, hpass, _, hdispatched, _, _, _, hdropped⟩ :=
    pass_is_exact laws host hc (fun _ _ => le_refl _) (w := 5/2) (le_refl _) (I := (· = 5/2)) rfl
      hregular
  have hlength : order.length = 3 := by
    rw [hperm.length_eq]
    exact congrArg List.length hdue
  rw [hlength] at hpass
  have hentries : entries = [.taken ⟨1, 0, first⟩ (5/2) ⟨7/2, 3, first⟩,
      .added ⟨7/2, 4, extra⟩ (5/2), .taken ⟨2, 1, second⟩ (5/2) ⟨4, 5, second⟩] ++ [.dropped] := by
    have hbooked := congrArg (fun result => (stateLeft result).2.1) (hpass 4 (by decide)).2.1
    refine hbooked.symm.trans ?_
    decide +kernel
  obtain ⟨hcount, hempty, _⟩ := hdropped _ [] hentries
  obtain rfl : count = 2 := hcount
  exact ⟨d, v, fun fuel hfuel => (hpass fuel hfuel).1, hdispatched, hempty rfl⟩

end Ls8.Clock
