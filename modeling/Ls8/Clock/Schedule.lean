import Ls8.Clock.Basic
import Ls8.Clock.Heap.Order

/-
  The schedule of a clock over times that are linearly ordered.

  Main statements: events are put into an order (`orders_before`), so whatever holds of the heaps of
  an order holds of the events of a clock; scheduling keeps them a heap (`isHeap_events_schedule`).
-/

namespace Ls8.Clock

variable {τ κ : Type} [LE τ] [LT τ] [DecidableLE τ] [DecidableLT τ]

/-- **Events over a linear order of times are put into an order.** -/
theorem orders_before (hlt : ∀ s t : τ, s < t ↔ s ≤ t ∧ ¬ t ≤ s)
    (htrans : ∀ s t u : τ, s ≤ t → t ≤ u → s ≤ u) (htotal : ∀ s t : τ, s ≤ t ∨ t ≤ s) :
    Heap.Orders (Event.before : Event τ κ → Event τ κ → Bool) := by
  -- an event does not come before another one if it is due later, or at the same time but was not
  -- scheduled earlier
  have key (a b : Event τ κ) : a.before b = false ↔
      b.due ≤ a.due ∧ (a.due ≤ b.due → b.sequence ≤ a.sequence) := by
    simp only [Event.before, hlt, Bool.or_eq_false_iff, Bool.and_eq_false_iff, decide_eq_false_iff_not,
      not_and, Classical.not_not, Nat.not_lt]
    constructor
    · rintro ⟨h1, h2⟩
      have hba : b.due ≤ a.due := (htotal b.due a.due).elim id h1
      refine ⟨hba, fun hab => ?_⟩
      rcases h2 with (h2 | h2) | h2
      · exact absurd hab h2
      · exact absurd hba h2
      · exact h2
    · rintro ⟨hba, hs⟩
      refine ⟨fun _ => hba, ?_⟩
      by_cases hab : a.due ≤ b.due
      · exact .inr (hs hab)
      · exact .inl (.inl hab)
  constructor
  · intro a b h
    rw [key]
    simp only [Event.before, hlt, Bool.or_eq_true, Bool.and_eq_true, decide_eq_true_eq] at h
    rcases h with ⟨hab, hnot⟩ | ⟨⟨hab, _⟩, hs⟩
    · exact ⟨hab, fun hba => absurd hba hnot⟩
    · exact ⟨hab, fun _ => Nat.le_of_lt hs⟩
  · intro a b c hba hcb
    rw [key] at hba hcb ⊢
    refine ⟨htrans _ _ _ hba.1 hcb.1, fun hca => ?_⟩
    exact Nat.le_trans (hba.2 (htrans _ _ _ hcb.1 hca)) (hcb.2 (htrans _ _ _ hca hba.1))

/-- Scheduling keeps the events a heap. -/
theorem isHeap_events_schedule (ho : Heap.Orders (Event.before : Event τ κ → Event τ κ → Bool))
    {c : Clock τ κ} (hc : c.events.IsHeap Event.before) (source : Source τ κ) (due : τ) :
    (c.schedule source due).events.IsHeap Event.before :=
  Heap.isHeap_push ho _ hc

end Ls8.Clock
