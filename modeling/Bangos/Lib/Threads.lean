import Mathlib

/-!
# Tables of threads

A system of `n` threads keeps a place for each of them, `loc : Fin n → L`: where the thread is in
its code, with its local variables.  A step moves one thread, or one thread and another that it
wakes.  Invariants count the threads at places of some kind (`tally`); `tally_update` says how
the count changes when a thread moves, and is the only fact about counting that they need.
-/

namespace Threads

variable {n : ℕ} {L : Type*} {p : L → Bool} {loc : Fin n → L} {t u : Fin n} {l : L}

/-- The number of threads at places with the property `p`. -/
def tally (p : L → Bool) (loc : Fin n → L) : ℕ := ∑ t, (p (loc t)).toNat

/-- **Moving a thread** changes the count by that thread's part. -/
theorem tally_update (p : L → Bool) (loc : Fin n → L) (t : Fin n) (l : L) :
    tally p (Function.update loc t l) + (p (loc t)).toNat = tally p loc + (p l).toNat := by
  have hrest : ∀ u ∈ Finset.univ.erase t,
      (p (Function.update loc t l u)).toNat = (p (loc u)).toNat := by
    intro u hu
    rw [Function.update_of_ne (Finset.ne_of_mem_erase hu)]
  unfold tally
  rw [← Finset.add_sum_erase _ _ (Finset.mem_univ t), Finset.sum_congr rfl hrest,
    Function.update_self, ← Finset.add_sum_erase _ (fun t => (p (loc t)).toNat) (Finset.mem_univ t)]
  omega

lemma tally_pos_iff : 0 < tally p loc ↔ ∃ t, p (loc t) = true := by
  unfold tally
  rw [Finset.sum_pos_iff]
  constructor
  · rintro ⟨t, -, ht⟩
    exact ⟨t, by cases h : p (loc t) with
      | false => rw [h] at ht; exact absurd ht (by simp)
      | true => rfl⟩
  · rintro ⟨t, ht⟩
    exact ⟨t, Finset.mem_univ t, by rw [ht]; exact Nat.one_pos⟩

/-- A property of at most one thread. -/
lemma eq_of_tally_le_one (h : tally p loc ≤ 1) (ht : p (loc t) = true) (hu : p (loc u) = true) :
    t = u := by
  by_contra hne
  have hpair : ∑ v ∈ {t, u}, (p (loc v)).toNat ≤ tally p loc :=
    Finset.sum_le_sum_of_subset (Finset.subset_univ _)
  rw [Finset.sum_pair hne, ht, hu] at hpair
  exact absurd (hpair.trans h) (by simp)

lemma tally_congr {loc' : Fin n → L} (h : ∀ t, p (loc' t) = p (loc t)) :
    tally p loc' = tally p loc :=
  Finset.sum_congr rfl fun t _ => by rw [h t]

/-! ## Waking -/

/-- The first thread, in the order of the table, at a place with the property `p`. -/
def first (p : L → Bool) (loc : Fin n → L) : Option (Fin n) :=
  (List.finRange n).find? fun t => p (loc t)

lemma of_first (h : first p loc = some t) : p (loc t) = true :=
  List.find?_some (p := fun t => p (loc t)) h

/-- Move the first thread at a place with the property `p`, if there is one. -/
def wakeFirst (p : L → Bool) (woken : L → L) (loc : Fin n → L) : Fin n → L :=
  match first p loc with
  | none => loc
  | some t => Function.update loc t (woken (loc t))

/-- **Waking** moves one thread, unless there is none to wake. -/
theorem wakeFirst_cases (p : L → Bool) (woken : L → L) (loc : Fin n → L) :
    (∀ t, p (loc t) = false) ∧ wakeFirst p woken loc = loc ∨
      ∃ t, p (loc t) = true ∧ wakeFirst p woken loc = Function.update loc t (woken (loc t)) := by
  unfold wakeFirst
  cases h : first p loc with
  | none =>
    refine Or.inl ⟨fun t => ?_, rfl⟩
    have := List.find?_eq_none.mp h t (List.mem_finRange t)
    simpa using this
  | some t => exact Or.inr ⟨t, of_first h, rfl⟩

lemma wakeFirst_apply (p : L → Bool) (woken : L → L) (loc : Fin n → L) (u : Fin n) :
    wakeFirst p woken loc u = loc u ∨
      p (loc u) = true ∧ wakeFirst p woken loc u = woken (loc u) := by
  rcases wakeFirst_cases p woken loc with ⟨-, heq⟩ | ⟨t, ht, heq⟩
  · rw [heq]
    exact Or.inl rfl
  · rw [heq]
    by_cases hut : u = t
    · rw [hut, Function.update_self]
      exact Or.inr ⟨ht, rfl⟩
    · exact Or.inl (Function.update_of_ne hut _ _)

lemma wakeFirst_comp {K : Type*} (f : K → L) {woken : L → L} {woken' : K → K}
    (h : ∀ k, p (f k) = true → f (woken' k) = woken (f k)) (loc : Fin n → K) :
    f ∘ wakeFirst (p ∘ f) woken' loc = wakeFirst p woken (f ∘ loc) := by
  have hfirst : first p (f ∘ loc) = first (p ∘ f) loc := rfl
  unfold wakeFirst
  rw [hfirst]
  cases ht : first (p ∘ f) loc with
  | none => rfl
  | some t =>
    have hp : p (f (loc t)) = true := of_first (p := p ∘ f) ht
    dsimp only
    rw [Function.comp_update, h _ hp]
    rfl

end Threads
