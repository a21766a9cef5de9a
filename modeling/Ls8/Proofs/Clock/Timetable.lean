import Ls8.Clock.Event
import Mathlib.Algebra.Order.Archimedean.Basic
import Mathlib.Data.Finset.Lattice.Fold
import Mathlib.Data.Finset.Prod
import Mathlib.Data.Fintype.Card
import Mathlib.Tactic.Linarith
import Mathlib.Tactic.Ring

/-
  The timetable of periodic sources that start together.

  Every source fires one interval after the origin, and again after each further interval.  Firings
  due at the same time are ordered: the source with the longer interval comes first, and of equal
  intervals the one that is listed first (`Firing.Precedes`).

  1. **Cuts.**  How far a timetable has been carried out is told by how many firings each source has
     made.  Such numbers are a cut if all firings made precede all others (`Cut`).  If the first of
     all firings to come is made, the numbers are a cut again (`Cut.advance`).

  2. **Ties.**  Of two firings due at one time, the one that was scheduled earlier precedes
     (`precedes_next_advance`), and this is the reason for the order among them.  The last firing of
     its source was earlier, because its interval is longer; or it was at the same time, and then it
     came first for the same reason.

  3. **Records.**  The firings made so far are an initial part of the timetable
     (`Records.initial`), and only so many firings come up to a given one (`exists_bound`).
-/

namespace Ls8.Clock

/-- **A timetable:** sources with positive intervals, and the time at which they start. -/
structure Timetable (κ : Type) where
  sources : List (Source ℚ κ)
  origin : ℚ
  positive : ∀ s ∈ sources, 0 < s.interval

variable {κ : Type} {T : Timetable κ}

/-- **A firing of a source,** with the number of firings of that source before it. -/
structure Firing (T : Timetable κ) where
  index : Fin T.sources.length
  round : Nat
  deriving DecidableEq

namespace Firing

/-- The source that fires. -/
def source (f : Firing T) : Source ℚ κ := T.sources[f.index]

/-- **When a firing is due:** the firings of a source are one interval apart, and the first one is
    one interval after the origin. -/
def time (f : Firing T) : ℚ := T.origin + (f.round + 1) * f.source.interval

/-- **The order of firings:** by time; at the same time the longer interval comes first, and of
    equal intervals the source that is listed first. -/
def Precedes (f g : Firing T) : Prop :=
  f.time < g.time ∨
    f.time = g.time ∧
      (g.source.interval < f.source.interval ∨
        f.source.interval = g.source.interval ∧ f.index < g.index)

variable {f g h : Firing T}

theorem interval_pos (f : Firing T) : 0 < f.source.interval :=
  T.positive _ (List.getElem_mem _)

theorem Precedes.time_le (hfg : f.Precedes g) : f.time ≤ g.time := by
  rcases hfg with hlt | ⟨heq, _⟩
  · exact le_of_lt hlt
  · exact le_of_eq heq

theorem Precedes.trans (hfg : f.Precedes g) (hgh : g.Precedes h) : f.Precedes h := by
  rcases hfg with hlt | ⟨heq, hfg⟩
  · exact .inl (lt_of_lt_of_le hlt hgh.time_le)
  · rcases hgh with hlt | ⟨heq', hgh⟩
    · exact .inl (heq ▸ hlt)
    · refine .inr ⟨heq.trans heq', ?_⟩
      rcases hfg with hlonger | ⟨hsame, hindex⟩
      · rcases hgh with hlonger' | ⟨hsame', _⟩
        · exact .inl (lt_trans hlonger' hlonger)
        · exact .inl (hsame' ▸ hlonger)
      · rcases hgh with hlonger' | ⟨hsame', hindex'⟩
        · exact .inl (hsame ▸ hlonger')
        · exact .inr ⟨hsame.trans hsame', lt_trans hindex hindex'⟩

theorem Precedes.irrefl (f : Firing T) : ¬ f.Precedes f := by
  rintro (hlt | ⟨_, hlonger | ⟨_, hindex⟩⟩)
  · exact lt_irrefl _ hlt
  · exact lt_irrefl _ hlonger
  · exact lt_irrefl _ hindex

theorem Precedes.asymm (hfg : f.Precedes g) : ¬ g.Precedes f :=
  fun hgf => Precedes.irrefl f (hfg.trans hgf)

/-- Each further firing of a source is one interval later. -/
theorem time_succ (i : Fin T.sources.length) (r : Nat) :
    (⟨i, r + 1⟩ : Firing T).time = (⟨i, r⟩ : Firing T).time + T.sources[i].interval := by
  show T.origin + (((r + 1 : Nat) : ℚ) + 1) * T.sources[i].interval =
    T.origin + ((r : ℚ) + 1) * T.sources[i].interval + T.sources[i].interval
  push_cast
  ring

/-- The firings of one source follow each other. -/
theorem precedes_of_round_lt {i : Fin T.sources.length} {a b : Nat} (hab : a < b) :
    (⟨i, a⟩ : Firing T).Precedes ⟨i, b⟩ := by
  have hinterval : 0 < T.sources[i].interval := T.positive _ (List.getElem_mem _)
  have hrounds : (a : ℚ) < b := by exact_mod_cast hab
  refine .inl ?_
  show T.origin + (a + 1) * T.sources[i].interval < T.origin + (b + 1) * T.sources[i].interval
  have hmul := mul_lt_mul_of_pos_right hrounds hinterval
  linarith

end Firing

/-! ## How far a timetable has been carried out -/

namespace Timetable

open Firing

variable {made : Fin T.sources.length → Nat} {i j : Fin T.sources.length} {f : Firing T}

/-- The next firing of a source, if each has made so many. -/
def next (T : Timetable κ) (made : Fin T.sources.length → Nat) (i : Fin T.sources.length) :
    Firing T :=
  ⟨i, made i⟩

/-- The numbers of firings after one more of one source. -/
def advance {n : Nat} (made : Fin n → Nat) (i : Fin n) : Fin n → Nat :=
  Function.update made i (made i + 1)

theorem next_advance_self : T.next (advance made i) i = ⟨i, made i + 1⟩ := by
  rw [next, advance, Function.update_self]

theorem next_advance_of_ne (h : j ≠ i) : T.next (advance made i) j = T.next made j := by
  rw [next, advance, Function.update_of_ne h, next]

/-- **All firings made precede all others.** -/
def Cut (T : Timetable κ) (made : Fin T.sources.length → Nat) : Prop :=
  ∀ (f : Firing T) i, f.round < made f.index → f.Precedes (T.next made i)

/-- The next firing of one source precedes those of all others. -/
def First (T : Timetable κ) (made : Fin T.sources.length → Nat) (i : Fin T.sources.length) : Prop :=
  ∀ j, j ≠ i → (T.next made i).Precedes (T.next made j)

theorem First.time_le (h : T.First made i) (j : Fin T.sources.length) :
    (T.next made i).time ≤ (T.next made j).time := by
  by_cases hij : j = i
  · rw [hij]
  · exact (h j hij).time_le

/-- The first of the next firings precedes all firings that have not been made. -/
theorem First.precedes (h : T.First made i) (hf : made f.index ≤ f.round) :
    f = T.next made i ∨ (T.next made i).Precedes f := by
  obtain ⟨j, r⟩ := f
  -- it is the next firing of its source or comes after that
  have hsame : T.next made j = ⟨j, r⟩ ∨ (T.next made j).Precedes ⟨j, r⟩ := by
    rcases Nat.eq_or_lt_of_le hf with heq | hlt
    · exact .inl (by rw [next, heq])
    · exact .inr (precedes_of_round_lt hlt)
  by_cases hij : j = i
  · subst hij
    exact hsame.imp_left Eq.symm
  · rcases hsame with heq | hlater
    · exact .inr (heq ▸ h j hij)
    · exact .inr ((h j hij).trans hlater)

/-- What has been made after one more firing: what had been made, or that firing. -/
theorem lt_advance_iff : f.round < advance made i f.index ↔
    f.round < made f.index ∨ f = T.next made i := by
  obtain ⟨j, r⟩ := f
  by_cases hij : j = i
  · subst hij
    simp only [advance, Function.update_self, next, Firing.mk.injEq, true_and]
    omega
  · simp [advance, next, hij]

theorem cut_zero : T.Cut fun _ => 0 :=
  fun _ _ h => absurd h (Nat.not_lt_zero _)

/-- **Making the first of all firings to come** leaves a cut. -/
theorem Cut.advance (h : T.Cut made) (hfirst : T.First made i) :
    T.Cut (advance made i) := by
  intro f j hf
  -- the firing that is made precedes the next ones
  have hmade : (T.next made i).Precedes (T.next (Timetable.advance made i) j) := by
    by_cases hij : j = i
    · subst hij
      rw [next_advance_self]
      exact precedes_of_round_lt (Nat.lt_succ_self _)
    · rw [next_advance_of_ne hij]
      exact hfirst j hij
  rcases lt_advance_iff.mp hf with hold | rfl
  · exact (h f i hold).trans hmade
  · exact hmade

/-- **Of two firings due at one time, the one that was scheduled earlier precedes.** -/
theorem precedes_next_advance (h : T.Cut made)
    (htime : (T.next made j).time = (T.next (advance made i) i).time) :
    (T.next made j).Precedes (T.next (advance made i) i) := by
  refine .inr ⟨htime, ?_⟩
  show T.sources[i].interval < T.sources[j].interval ∨
    T.sources[j].interval = T.sources[i].interval ∧ j < i
  rw [next_advance_self, time_succ] at htime
  rcases hr : made j with _ | r
  · -- the first firing of its source: the interval reaches back to the origin
    rw [next, hr] at htime
    have hfirst : T.origin + (((0 : Nat) : ℚ) + 1) * T.sources[j].interval =
        T.origin + ((made i : ℚ) + 1) * T.sources[i].interval + T.sources[i].interval := htime
    have hi : 0 < T.sources[i].interval := T.positive _ (List.getElem_mem _)
    have hnonneg : 0 ≤ (made i : ℚ) * T.sources[i].interval :=
      mul_nonneg (Nat.cast_nonneg _) (le_of_lt hi)
    left
    push_cast at hfirst
    linarith
  · -- the firing before it was made before the last one of the other source
    rw [next, hr, time_succ] at htime
    rcases h ⟨j, r⟩ i (by rw [hr]; exact Nat.lt_succ_self r) with hlt | ⟨_, hprecedes⟩
    · rw [next] at hlt
      left
      linarith
    · exact hprecedes

/-! ## The firings made so far -/

/-- **An initial part of a timetable,** in order. -/
structure Initial (firings : List (Firing T)) : Prop where
  ordered : firings.Pairwise Precedes
  complete : ∀ f ∈ firings, ∀ g : Firing T, g.Precedes f → g ∈ firings

/-- The firings that have been made, in order. -/
structure Records (made : Fin T.sources.length → Nat) (firings : List (Firing T)) : Prop where
  ordered : firings.Pairwise Precedes
  mem_iff : ∀ f, f ∈ firings ↔ f.round < made f.index

variable {firings : List (Firing T)}

theorem records_nil : Records (T := T) (fun _ => 0) [] where
  ordered := .nil
  mem_iff := by simp

/-- One more firing. -/
theorem Records.snoc (h : Records made firings) (hcut : T.Cut made) (i : Fin T.sources.length) :
    Records (advance made i) (firings ++ [T.next made i]) where
  ordered := by
    refine List.pairwise_append.mpr ⟨h.ordered, List.pairwise_singleton _ _, ?_⟩
    intro f hf g hg
    rw [List.mem_singleton.mp hg]
    exact hcut f i ((h.mem_iff f).mp hf)
  mem_iff := by
    intro f
    rw [List.mem_append, List.mem_singleton, h.mem_iff, lt_advance_iff]

/-- The firings made by a cut are an initial part of the timetable. -/
theorem Records.initial (h : Records made firings) (hcut : T.Cut made) : Initial firings where
  ordered := h.ordered
  complete := by
    intro f hf g hgf
    rw [h.mem_iff]
    by_contra hnot
    -- a firing that has not been made does not precede one that has
    have hnext := hcut f g.index ((h.mem_iff f).mp hf)
    have hfg : f.Precedes g := by
      rcases Nat.eq_or_lt_of_le (Nat.not_lt.mp hnot) with heq | hlt
      · rwa [next, heq] at hnext
      · exact hnext.trans (precedes_of_round_lt hlt)
    exact hfg.asymm hgf

/-- The next firing of all is the earliest that has not been made. -/
theorem Records.isLeast_time (h : Records made firings) (hfirst : T.First made i) :
    IsLeast { t | ∃ g : Firing T, g ∉ firings ∧ g.time = t } (T.next made i).time := by
  constructor
  · refine ⟨T.next made i, ?_, rfl⟩
    rw [h.mem_iff]
    exact Nat.lt_irrefl _
  · rintro t ⟨g, hg, rfl⟩
    rw [h.mem_iff] at hg
    rcases hfirst.precedes (Nat.not_lt.mp hg) with rfl | hprecedes
    · exact le_rfl
    · exact hprecedes.time_le

/-! ## How many firings there are up to one -/

/-- Up to a given time each source fires only so often. -/
theorem exists_round_lt (T : Timetable κ) (t : ℚ) :
    ∃ rounds, ∀ g : Firing T, g.time ≤ t → g.round < rounds := by
  have hone (i : Fin T.sources.length) :
      ∃ rounds : Nat, t - T.origin < rounds * T.sources[i].interval := by
    have hinterval : 0 < T.sources[i].interval := T.positive _ (List.getElem_mem _)
    obtain ⟨rounds, hrounds⟩ := exists_nat_gt ((t - T.origin) / T.sources[i].interval)
    exact ⟨rounds, (div_lt_iff₀ hinterval).mp hrounds⟩
  choose rounds hrounds using hone
  refine ⟨Finset.univ.sup rounds, ?_⟩
  intro g hg
  have hinterval : 0 < T.sources[g.index].interval := g.interval_pos
  have htime : T.origin + ((g.round : ℚ) + 1) * T.sources[g.index].interval ≤ t := hg
  have hmul : (g.round : ℚ) * T.sources[g.index].interval <
      rounds g.index * T.sources[g.index].interval := by
    linarith [hrounds g.index]
  have hlt : (g.round : ℚ) < rounds g.index := lt_of_mul_lt_mul_right hmul (le_of_lt hinterval)
  exact lt_of_lt_of_le (by exact_mod_cast hlt) (Finset.le_sup (Finset.mem_univ g.index))

/-- Different firings with few rounds are few. -/
theorem length_le (hordered : firings.Pairwise Precedes) {rounds : Nat}
    (hrounds : ∀ g ∈ firings, g.round < rounds) :
    firings.length ≤ T.sources.length * rounds := by
  let place (g : Firing T) : Fin T.sources.length × Nat := (g.index, g.round)
  have hinjective : Function.Injective place := by
    rintro ⟨i, r⟩ ⟨j, r'⟩ h
    obtain ⟨rfl, rfl⟩ := Prod.mk.inj h
    rfl
  have hnodup : (firings.map place).Nodup := by
    refine List.Nodup.map hinjective (hordered.imp fun {g h} hgh => ?_)
    rintro rfl
    exact Precedes.irrefl g hgh
  have hsubset : (firings.map place).toFinset ⊆ Finset.univ ×ˢ Finset.range rounds := by
    intro p hp
    obtain ⟨g, hg, rfl⟩ := List.mem_map.mp (List.mem_toFinset.mp hp)
    exact Finset.mem_product.mpr ⟨Finset.mem_univ _, Finset.mem_range.mpr (hrounds g hg)⟩
  have hcard := Finset.card_le_card hsubset
  rw [List.toFinset_card_of_nodup hnodup, List.length_map, Finset.card_product, Finset.card_univ,
    Fintype.card_fin, Finset.card_range] at hcard
  exact hcard

/-- **Only so many firings come before a given one:** an initial part of the timetable that is long
    enough contains it. -/
theorem exists_bound (f : Firing T) :
    ∃ bound, ∀ firings : List (Firing T), Initial firings → bound < firings.length → f ∈ firings := by
  obtain ⟨rounds, hrounds⟩ := T.exists_round_lt f.time
  refine ⟨T.sources.length * rounds, ?_⟩
  intro firings hinitial hlong
  by_contra hnot
  -- without `f` in it, the part ends at or before the time of `f`
  have hearlier : ∀ g ∈ firings, g.time ≤ f.time := by
    intro g hg
    by_contra hlater
    exact hnot (hinitial.complete g hg f (.inl (not_le.mp hlater)))
  have hle := length_le hinitial.ordered fun g hg => hrounds g (hearlier g hg)
  omega

end Timetable

end Ls8.Clock
