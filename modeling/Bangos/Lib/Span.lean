import Mathlib.Order.Defs.LinearOrder
import Mathlib.Tactic.Order
import Mathlib.Data.Fin.Basic

/-!
# Families of half-open intervals

A table of half-open intervals in a linear order, some of whose slots are in use.  A table
operation changes one slot, so one rule (`Apart.update`) says what keeps the family
disjoint: the interval put into the slot stays apart from the intervals of the other slots.
-/

/-- A half-open interval `[lo, hi)`. -/
structure Span (α : Type*) where
  /-- The first point. -/
  lo : α
  /-- The first point after the interval. -/
  hi : α

namespace Span

variable {α ι : Type*} [LinearOrder α] {s t u : Span α} {x a b c : α}

/-- `x` lies in the interval. -/
def Has (s : Span α) (x : α) : Prop := s.lo ≤ x ∧ x < s.hi

instance (s : Span α) (x : α) : Decidable (s.Has x) :=
  inferInstanceAs (Decidable (_ ∧ _))

/-- One interval ends before the other begins. -/
def Apart (s t : Span α) : Prop := s.hi ≤ t.lo ∨ t.hi ≤ s.lo

instance (s t : Span α) : Decidable (s.Apart t) :=
  inferInstanceAs (Decidable (_ ∨ _))

lemma Apart.symm (h : s.Apart t) : t.Apart s := Or.symm h

lemma Apart.not_has (h : s.Apart t) (hx : s.Has x) : ¬ t.Has x := by
  rintro ⟨h₁, h₂⟩
  rcases h with h | h
  · exact absurd (hx.2.trans_le (h.trans h₁)) (lt_irrefl _)
  · exact absurd (h₂.trans_le (h.trans hx.1)) (lt_irrefl _)

lemma Apart.mono (h : s.Apart t) (hlo : s.lo ≤ u.lo) (hhi : u.hi ≤ s.hi) : u.Apart t := by
  rcases h with h | h
  · exact Or.inl (hhi.trans h)
  · exact Or.inr (h.trans hlo)

/-- A non-empty interval apart from two adjacent ones is apart from their union. -/
lemma Apart.join (h₁ : Apart ⟨a, b⟩ t) (h₂ : Apart ⟨b, c⟩ t) (ht : t.lo < t.hi) :
    Apart ⟨a, c⟩ t := by
  rcases h₂ with h₂ | h₂
  · exact Or.inl h₂
  rcases h₁ with h₁ | h₁
  · exact absurd (ht.trans_le (h₂.trans h₁)) (lt_irrefl _)
  · exact Or.inr h₁

/-- The intervals `f i` of the slots in use are pairwise apart. -/
def PairwiseApart (used : ι → Bool) (f : ι → Span α) : Prop :=
  ∀ i j, i ≠ j → used i = true → used j = true → (f i).Apart (f j)

/-- Changing slot `k` keeps a family disjoint when the new interval, if the slot is in use
afterwards, is apart from those of the other slots. -/
lemma PairwiseApart.update [DecidableEq ι] {used : ι → Bool} {f : ι → Span α}
    (h : PairwiseApart used f) {k : ι} {b : Bool}
    (hs : b = true → ∀ j, j ≠ k → used j = true → s.Apart (f j)) :
    PairwiseApart (Function.update used k b) (Function.update f k s) := by
  intro i j hij hi hj
  by_cases hik : i = k
  · have hjk : j ≠ k := fun e => hij (hik.trans e.symm)
    rw [hik, Function.update_self] at hi ⊢
    rw [Function.update_of_ne hjk] at hj ⊢
    exact hs hi j hjk hj
  · rw [Function.update_of_ne hik] at hi ⊢
    by_cases hjk : j = k
    · rw [hjk, Function.update_self] at hj ⊢
      exact (hs hj i hik hi).symm
    · rw [Function.update_of_ne hjk] at hj ⊢
      exact h i j hij hi hj

end Span
