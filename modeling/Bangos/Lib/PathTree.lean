import Mathlib

/-!
# Trees given by their paths

A tree of nodes in a store is a partial map from paths to addresses.  A path is read from the
node upwards, so that `i :: p` is child `i` of the node at `p`.  The map describes a tree when
every node has a parent and no two paths share an address; hanging a fresh node below an
existing one keeps it a tree.
-/

namespace PathTree

variable {ι α : Type*}

/-- The map `T` from paths to addresses describes a tree. -/
structure IsTree (T : List ι → Option α) : Prop where
  parent : ∀ {i p b}, T (i :: p) = some b → ∃ a, T p = some a
  inj : ∀ {p q a}, T p = some a → T q = some a → p = q

variable {T : List ι → Option α} {p q : List ι} {i : ι} {a b : α}

lemma IsTree.child_none (h : IsTree T) (hp : T p = none) : T (i :: p) = none := by
  by_contra hne
  obtain ⟨b, hb⟩ := Option.ne_none_iff_exists'.mp hne
  obtain ⟨a, ha⟩ := h.parent hb
  exact absurd (hp.symm.trans ha) (by simp)

variable [DecidableEq ι]

/-- The tree with a node `b` added at the path `p`. -/
def insert (T : List ι → Option α) (p : List ι) (b : α) : List ι → Option α :=
  Function.update T p (some b)

@[simp] lemma insert_self : insert T p b p = some b := Function.update_self ..

lemma insert_of_ne (h : q ≠ p) : insert T p b q = T q := Function.update_of_ne h ..

lemma insert_of_some (hnone : T p = none) (h : T q = some a) : insert T p b q = some a := by
  rw [insert_of_ne, h]
  rintro rfl
  exact absurd (hnone.symm.trans h) (by simp)

lemma insert_cases (h : insert T p b q = some a) : (q = p ∧ a = b) ∨ (q ≠ p ∧ T q = some a) := by
  by_cases hq : q = p
  · subst hq
    rw [insert_self] at h
    exact Or.inl ⟨rfl, (Option.some.inj h).symm⟩
  · rw [insert_of_ne hq] at h
    exact Or.inr ⟨hq, h⟩

lemma insert_eq_none (h : insert T p b q = none) : q ≠ p ∧ T q = none := by
  by_cases hq : q = p
  · subst hq
    rw [insert_self] at h
    cases h
  · rw [insert_of_ne hq] at h
    exact ⟨hq, h⟩

/-- A fresh node below an existing one. -/
theorem IsTree.insert (h : IsTree T) (hp : T p = some a) (hnone : T (i :: p) = none)
    (hfresh : ∀ q, T q ≠ some b) : IsTree (insert T (i :: p) b) where
  parent {j q c} hc := by
    rcases insert_cases hc with ⟨hq, -⟩ | ⟨-, hq⟩
    · obtain ⟨-, rfl⟩ := List.cons.inj hq
      exact ⟨a, insert_of_some hnone hp⟩
    · obtain ⟨c', hc'⟩ := h.parent hq
      exact ⟨c', insert_of_some hnone hc'⟩
  inj {q r c} hq hr := by
    rcases insert_cases hq with ⟨rfl, rfl⟩ | ⟨-, hTq⟩
    · rcases insert_cases hr with ⟨rfl, -⟩ | ⟨-, hTr⟩
      · rfl
      · exact absurd hTr (hfresh r)
    · rcases insert_cases hr with ⟨rfl, rfl⟩ | ⟨-, hTr⟩
      · exact absurd hTq (hfresh q)
      · exact h.inj hTq hTr

end PathTree
