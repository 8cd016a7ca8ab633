import Bangos.Lib.Runs
import Bangos.Lib.Span
import Bangos.Syscall.Memory

/-!
# The table of virtual memory areas stays disjoint

The areas in use should be non-empty, page-aligned and pairwise disjoint (`VmasWf`).  Every
change of the table goes through `vma_create` or shrinks an area, so there are two rules:
shrinking an area is always fine, and `vma_create` is fine on a range no area meets.
-/

namespace Bangos.Mm

/-- The addresses of an area. -/
def VmArea.span (v : VmArea) : Span ℕ := ⟨v.start, v.endAddr⟩

/-- The areas in use are non-empty, page-aligned and pairwise disjoint. -/
structure VmasWf (vs : VmaTable) : Prop where
  nonempty : ∀ i, (vs i).used = true → (vs i).start < (vs i).endAddr
  aligned : ∀ i, (vs i).used = true → 4096 ∣ (vs i).start ∧ 4096 ∣ (vs i).endAddr
  apart : Span.PairwiseApart (fun i => (vs i).used) fun i => (vs i).span

/-- The areas in use are non-empty and pairwise disjoint; they need not be aligned. -/
structure VmasDisjoint (vs : VmaTable) : Prop where
  nonempty : ∀ i, (vs i).used = true → (vs i).start < (vs i).endAddr
  apart : Span.PairwiseApart (fun i => (vs i).used) fun i => (vs i).span

/-- The areas in use are page-aligned. -/
def VmasAligned (vs : VmaTable) : Prop :=
  ∀ i, (vs i).used = true → 4096 ∣ (vs i).start ∧ 4096 ∣ (vs i).endAddr

lemma VmasWf.disjoint {vs : VmaTable} (h : VmasWf vs) : VmasDisjoint vs := ⟨h.nonempty, h.apart⟩

lemma VmasDisjoint.wf {vs : VmaTable} (h : VmasDisjoint vs) (ha : VmasAligned vs) : VmasWf vs :=
  ⟨h.nonempty, ha, h.apart⟩

/-- Some area in use contains `x`. -/
def Covered (vs : VmaTable) (x : ℕ) : Prop := ∃ i, (vs i).used = true ∧ (vs i).span.Has x

section Tables

variable {vs vs' : VmaTable} {start endAddr x : ℕ} {i j : Fin maxProcessVmas} {v : VmArea}

lemma vmasWf_empty : VmasWf fun _ => VmArea.empty where
  nonempty _ h := by cases h
  aligned _ h := by cases h
  apart _ _ _ h := by cases h

/-- Areas in use that share an address are one area. -/
lemma VmasDisjoint.eq_of_has (h : VmasDisjoint vs) (hi : (vs i).used = true)
    (hj : (vs j).used = true) (hix : (vs i).span.Has x) (hjx : (vs j).span.Has x) : i = j := by
  by_contra hij
  exact (h.apart i j hij hi hj).not_has hix hjx

lemma VmasWf.eq_of_has (h : VmasWf vs) (hi : (vs i).used = true) (hj : (vs j).used = true)
    (hix : (vs i).span.Has x) (hjx : (vs j).span.Has x) : i = j :=
  h.disjoint.eq_of_has hi hj hix hjx

lemma forall_used_update {P : VmArea → Prop} (h : ∀ j, (vs j).used = true → P (vs j))
    (hv : v.used = true → P v) (j : Fin maxProcessVmas)
    (hj : (Function.update vs i v j).used = true) : P (Function.update vs i v j) := by
  by_cases hji : j = i
  · subst hji
    rw [Function.update_self] at hj ⊢
    exact hv hj
  · rw [Function.update_of_ne hji] at hj ⊢
    exact h j hj

lemma VmasDisjoint.update (h : VmasDisjoint vs) (hne : v.used = true → v.start < v.endAddr)
    (hap : v.used = true → ∀ j, j ≠ i → (vs j).used = true → v.span.Apart (vs j).span) :
    VmasDisjoint (Function.update vs i v) where
  nonempty := forall_used_update (P := fun v => v.start < v.endAddr) h.nonempty hne
  apart := by
    have hupd := h.apart.update hap
    convert hupd using 1 <;>
    · funext j
      by_cases hji : j = i
      · subst hji; simp
      · simp [hji]

lemma VmasAligned.update (h : VmasAligned vs)
    (hv : v.used = true → 4096 ∣ v.start ∧ 4096 ∣ v.endAddr) :
    VmasAligned (Function.update vs i v) :=
  forall_used_update (P := fun v => 4096 ∣ v.start ∧ 4096 ∣ v.endAddr) h hv

lemma VmasDisjoint.shrink (h : VmasDisjoint vs) (hi : (vs i).used = true)
    (hne : v.start < v.endAddr) (hlo : (vs i).start ≤ v.start)
    (hhi : v.endAddr ≤ (vs i).endAddr) : VmasDisjoint (Function.update vs i v) :=
  h.update (fun _ => hne) fun _ j hji hj => (h.apart i j (Ne.symm hji) hi hj).mono hlo hhi

lemma VmasWf.shrink (h : VmasWf vs) (hi : (vs i).used = true)
    (hne : v.start < v.endAddr) (hal : 4096 ∣ v.start ∧ 4096 ∣ v.endAddr)
    (hlo : (vs i).start ≤ v.start) (hhi : v.endAddr ≤ (vs i).endAddr) :
    VmasWf (Function.update vs i v) :=
  (h.disjoint.shrink hi hne hlo hhi).wf (VmasAligned.update h.aligned fun _ => hal)

lemma VmasDisjoint.not_covered_shrink (h : VmasDisjoint vs) (hi : (vs i).used = true)
    (hx : (vs i).span.Has x) (hv : v.used = true → ¬ v.span.Has x) :
    ¬ Covered (Function.update vs i v) x := by
  rintro ⟨j, hj, hjx⟩
  by_cases hji : j = i
  · subst hji
    rw [Function.update_self] at hj hjx
    exact hv hj hjx
  · rw [Function.update_of_ne hji] at hj hjx
    exact hji (h.eq_of_has hj hi hjx hx)

lemma covered_update (hx : Covered (Function.update vs i v) x) :
    v.span.Has x ∨ Covered vs x := by
  obtain ⟨j, hj, hjx⟩ := hx
  by_cases hji : j = i
  · subst hji
    rw [Function.update_self] at hjx
    exact Or.inl hjx
  · rw [Function.update_of_ne hji] at hj hjx
    exact Or.inr ⟨j, hj, hjx⟩

lemma VmasDisjoint.apart_of_not_covered (h : VmasDisjoint vs) (hlt : start < endAddr)
    (hfree : ∀ x, start ≤ x → x < endAddr → ¬ Covered vs x) (hj : (vs j).used = true) :
    Span.Apart ⟨start, endAddr⟩ (vs j).span := by
  have hne := h.nonempty j hj
  by_contra hap
  simp only [Span.Apart, VmArea.span, not_or, not_le] at hap
  exact hfree (max start (vs j).start) (le_max_left _ _) (max_lt hlt hap.1)
    ⟨j, hj, le_max_right _ _, max_lt hap.2 hne⟩

/-! ## What `vma_create` does -/

/-- All that `vma_create` can do to the table: nothing, extend an area that touches the
range, or fill a free slot. -/
inductive Grown (vs : VmaTable) (start endAddr : ℕ) : VmaTable → Prop
  | same : Grown vs start endAddr vs
  | right (i : Fin maxProcessVmas) (hu : (vs i).used = true) (he : (vs i).endAddr = start) :
      Grown vs start endAddr (Function.update vs i { vs i with endAddr := endAddr })
  | left (i : Fin maxProcessVmas) (hu : (vs i).used = true) (hs : (vs i).start = endAddr) :
      Grown vs start endAddr (Function.update vs i { vs i with start := start })
  | fresh (i : Fin maxProcessVmas) (hu : (vs i).used = false) (prot flags : ℕ) :
      Grown vs start endAddr (Function.update vs i ⟨start, endAddr, prot, flags, true⟩)

lemma vmaCreate_grown (vs : VmaTable) (start endAddr prot flags : ℕ) :
    Grown vs start endAddr (vmaCreate vs start endAddr prot flags).2 := by
  unfold vmaCreate
  split
  · exact .same
  split
  · rename_i i hfind
    have hjoins := List.find?_some hfind
    simp only [VmArea.joins, Bool.and_eq_true, Bool.or_eq_true, decide_eq_true_eq,
      beq_iff_eq] at hjoins
    obtain ⟨⟨⟨hu, -⟩, -⟩, hcase⟩ := hjoins
    dsimp only
    unfold VmArea.join
    split_ifs with hin hend
    · rw [Function.update_eq_self]
      exact .same
    · exact .right i hu hend
    · exact .left i hu ((hcase.resolve_left (not_or.mpr ⟨hin, hend⟩)))
  · split
    · rename_i i hfind
      have hfree := List.find?_some hfind
      exact .fresh i (by simpa using hfree) prot flags
    · exact .same

lemma Grown.disjoint (hg : Grown vs start endAddr vs') (h : VmasDisjoint vs)
    (hlt : start < endAddr)
    (hap : ∀ j, (vs j).used = true → Span.Apart ⟨start, endAddr⟩ (vs j).span) :
    VmasDisjoint vs' := by
  cases hg with
  | same => exact h
  | right i hu hend =>
    refine h.update (fun _ => ?_) fun _ j hji hj => ?_
    · exact lt_of_lt_of_le (h.nonempty i hu) (hend ▸ hlt.le)
    · refine Span.Apart.join ?_ (hap j hj) (h.nonempty j hj)
      exact hend ▸ h.apart i j (Ne.symm hji) hu hj
  | left i hu hst =>
    refine h.update (fun _ => ?_) fun _ j hji hj => ?_
    · exact lt_of_le_of_lt (hst ▸ hlt.le) (h.nonempty i hu)
    · refine Span.Apart.join (hap j hj) ?_ (h.nonempty j hj)
      exact hst ▸ h.apart i j (Ne.symm hji) hu hj
  | fresh i hu prot flags => exact h.update (fun _ => hlt) fun _ j _ hj => hap j hj

lemma Grown.aligned (hg : Grown vs start endAddr vs') (h : VmasAligned vs)
    (hs : 4096 ∣ start) (he : 4096 ∣ endAddr) : VmasAligned vs' := by
  cases hg with
  | same => exact h
  | right i hu _ => exact h.update fun _ => ⟨(h i hu).1, he⟩
  | left i hu _ => exact h.update fun _ => ⟨hs, (h i hu).2⟩
  | fresh i _ prot flags => exact h.update fun _ => ⟨hs, he⟩

lemma Grown.wf (hg : Grown vs start endAddr vs') (h : VmasWf vs) (hlt : start < endAddr)
    (hs : 4096 ∣ start) (he : 4096 ∣ endAddr)
    (hap : ∀ j, (vs j).used = true → Span.Apart ⟨start, endAddr⟩ (vs j).span) : VmasWf vs' :=
  (hg.disjoint h.disjoint hlt hap).wf (hg.aligned h.aligned hs he)

lemma Grown.covered (hg : Grown vs start endAddr vs') (hx : Covered vs' x) :
    Covered vs x ∨ start ≤ x ∧ x < endAddr := by
  cases hg with
  | same => exact Or.inl hx
  | right i hu hend =>
    rcases covered_update hx with ⟨h₁, h₂⟩ | h
    · by_cases hxe : x < (vs i).endAddr
      · exact Or.inl ⟨i, hu, h₁, hxe⟩
      · exact Or.inr ⟨by omega, h₂⟩
    · exact Or.inl h
  | left i hu hst =>
    rcases covered_update hx with ⟨h₁, h₂⟩ | h
    · by_cases hxs : (vs i).start ≤ x
      · exact Or.inl ⟨i, hu, hxs, h₂⟩
      · exact Or.inr ⟨h₁, by omega⟩
    · exact Or.inl h
  | fresh i hu prot flags => exact (covered_update hx).symm

lemma vmaCreate_disjoint (h : VmasDisjoint vs) (prot flags : ℕ)
    (hfree : ∀ x, start ≤ x → x < endAddr → ¬ Covered vs x) :
    VmasDisjoint (vmaCreate vs start endAddr prot flags).2 := by
  by_cases hlt : start < endAddr
  · exact (vmaCreate_grown vs start endAddr prot flags).disjoint h hlt
      fun j hj => h.apart_of_not_covered hlt hfree hj
  · simpa [vmaCreate, not_lt.mp hlt] using h

/-- What `vma_create` needs to keep the table disjoint: the range is empty or meets no area,
or nothing is stored, because the first area it would join contains the range already, or
because it joins none and no slot is free. -/
def VmaFits (vs : VmaTable) (start endAddr prot flags : ℕ) : Prop :=
  endAddr ≤ start ∨ (∀ i, (vs i).used = true → Span.Apart ⟨start, endAddr⟩ (vs i).span) ∨
    (∃ i, ((List.finRange maxProcessVmas).find? fun i => (vs i).joins start endAddr prot flags) =
        some i ∧ (vs i).start ≤ start ∧ endAddr ≤ (vs i).endAddr) ∨
    (∀ i, (vs i).joins start endAddr prot flags = false) ∧ ∀ i, (vs i).used = true

instance (vs : VmaTable) (start endAddr prot flags : ℕ) :
    Decidable (VmaFits vs start endAddr prot flags) :=
  inferInstanceAs (Decidable (_ ∨ _))

lemma vmaCreate_wf (h : VmasWf vs) {prot flags : ℕ} (hs : 4096 ∣ start) (he : 4096 ∣ endAddr)
    (hfit : VmaFits vs start endAddr prot flags) :
    VmasWf (vmaCreate vs start endAddr prot flags).2 := by
  by_cases hle : endAddr ≤ start
  · simpa [vmaCreate, hle] using h
  rcases hfit with hle' | hap | ⟨i, hfind, hin⟩ | ⟨hjoin, hfull⟩
  · exact absurd hle' hle
  · exact (vmaCreate_grown vs start endAddr prot flags).wf h (not_le.mp hle) hs he hap
  · simpa [vmaCreate, hle, hfind, VmArea.join, hin] using h
  · have hnone : (List.finRange maxProcessVmas).find?
        (fun i => (vs i).joins start endAddr prot flags) = none := by simp [hjoin]
    have hslot : (List.finRange maxProcessVmas).find? (fun i => !(vs i).used) = none := by
      simp [hfull]
    simpa [vmaCreate, hle, hnone, hslot] using h

/-! ## Removing and protecting ranges -/

/-- The facts about a range that the loops use: it is non-empty and page-aligned. -/
structure PageRange (start endAddr : ℕ) : Prop where
  lt : start < endAddr
  dvd_start : 4096 ∣ start
  dvd_end : 4096 ∣ endAddr

lemma vmaCut_disjoint (h : VmasDisjoint vs) (hlt : start < endAddr)
    (hmeets : (vs i).meets start endAddr = true) : VmasDisjoint (vmaCut vs start endAddr i) := by
  simp only [VmArea.meets, Bool.and_eq_true, decide_eq_true_eq] at hmeets
  obtain ⟨hu, hlo, hhi⟩ := hmeets
  unfold vmaCut
  dsimp only
  split_ifs with h₁ h₂ h₃
  · exact h.update (fun hf => by cases hf) fun hf => by cases hf
  · exact h.shrink hu h₂.2 hhi.le le_rfl
  · exact h.shrink hu h₃.1 le_rfl hlo.le
  · have hst : (vs i).start < start := by omega
    have hcut := h.shrink (v := { vs i with endAddr := start }) hu hst le_rfl hlo.le
    refine vmaCreate_disjoint hcut _ _ fun x hx₁ hx₂ => ?_
    refine h.not_covered_shrink hu ⟨hhi.le.trans hx₁, hx₂⟩ fun _ hx => ?_
    exact absurd (hx.2.trans_le (hlt.le.trans hx₁)) (lt_irrefl _)

lemma vmaCut_aligned (h : VmasAligned vs) (hr : PageRange start endAddr)
    (hmeets : (vs i).meets start endAddr = true) : VmasAligned (vmaCut vs start endAddr i) := by
  simp only [VmArea.meets, Bool.and_eq_true] at hmeets
  have hal := h i hmeets.1
  unfold vmaCut
  dsimp only
  split_ifs
  · exact h.update fun hf => by cases hf
  · exact h.update fun _ => ⟨hr.dvd_end, hal.2⟩
  · exact h.update fun _ => ⟨hal.1, hr.dvd_start⟩
  · exact (vmaCreate_grown ..).aligned (h.update fun _ => ⟨hal.1, hr.dvd_start⟩) hr.dvd_end hal.2

lemma vmaCut_wf (h : VmasWf vs) (hr : PageRange start endAddr)
    (hmeets : (vs i).meets start endAddr = true) : VmasWf (vmaCut vs start endAddr i) :=
  (vmaCut_disjoint h.disjoint hr.lt hmeets).wf (vmaCut_aligned h.aligned hr hmeets)

lemma vmaRemove_wf (h : VmasWf vs) (m : Mem) (hs : 4096 ∣ start) (he : 4096 ∣ endAddr) :
    VmasWf (vmaRemove m vs start endAddr).2.2 := by
  unfold vmaRemove
  split_ifs with hlt
  · exact h
  refine List.foldlRecOn (motive := fun s : Mem × VmaTable => VmasWf s.2) _ _ h
    fun s hs' i _ => ?_
  unfold vmaRemoveStep
  dsimp only
  split_ifs with hmeets
  · exact vmaCut_wf hs' ⟨not_le.mp hlt, hs, he⟩ hmeets
  · exact hs'

/-- The range starts inside area `i` and ends behind it. -/
def Tail (vs : VmaTable) (start endAddr : ℕ) (i : Fin maxProcessVmas) : Prop :=
  (vs i).used = true ∧ (vs i).start < start ∧ start < (vs i).endAddr ∧ (vs i).endAddr < endAddr

instance (vs : VmaTable) (start endAddr : ℕ) (i : Fin maxProcessVmas) :
    Decidable (Tail vs start endAddr i) :=
  inferInstanceAs (Decidable (_ ∧ _))

/-- What `vma_protect` needs: when it protects the tail of an area, the rest of the range
meets no other area. -/
def TailApart (vs : VmaTable) (start endAddr : ℕ) : Prop :=
  ∀ i, Tail vs start endAddr i → ∀ j, j ≠ i → (vs j).used = true →
    Span.Apart ⟨(vs i).endAddr, endAddr⟩ (vs j).span

instance (vs : VmaTable) (start endAddr : ℕ) : Decidable (TailApart vs start endAddr) :=
  inferInstanceAs (Decidable (∀ _, _))

/-- The same in terms of addresses: behind an area whose tail is protected, no address of
the range is covered. -/
def TailFree (vs : VmaTable) (start endAddr : ℕ) : Prop :=
  ∀ i, Tail vs start endAddr i → ∀ x, (vs i).endAddr ≤ x → x < endAddr → ¬ Covered vs x

lemma TailApart.free (h : TailApart vs start endAddr) : TailFree vs start endAddr := by
  rintro i ht x hx₁ hx₂ ⟨j, hj, hjx⟩
  by_cases hji : j = i
  · subst hji
    exact absurd hjx.2 (not_lt.mpr hx₁)
  · exact (h i ht j hji hj).not_has ⟨hx₁, hx₂⟩ hjx

/-- An area that `vma_create` extends or adds, with a range that starts at or behind `start`
and ends at or behind `endAddr`, has no tail in `[start, endAddr)`. -/
lemma Grown.tail {s e : ℕ} (hg : Grown vs s e vs') (hs : start ≤ s) (he : endAddr ≤ e)
    (ht : Tail vs' start endAddr j) : vs' j = vs j := by
  obtain ⟨-, h₁, -, h₂⟩ := ht
  cases hg with
  | same => rfl
  | right i _ _ | left i _ _ | fresh i _ _ _ =>
    by_cases hji : j = i
    · subst hji
      simp only [Function.update_self] at h₁ h₂
      omega
    · rw [Function.update_of_ne hji]

/-- A turn of `vma_protect` adds no coverage but, behind an area whose tail it protects, the
rest of the range. -/
lemma vmaReprotect_covered {newProt : ℕ}
    (hmeets : (vs i).meets start endAddr = true)
    (hx : Covered (vmaReprotect vs start endAddr newProt i) x) :
    Covered vs x ∨ Tail vs start endAddr i ∧ (vs i).endAddr ≤ x ∧ x < endAddr := by
  simp only [VmArea.meets, Bool.and_eq_true, decide_eq_true_eq] at hmeets
  obtain ⟨hu, hlo, hhi⟩ := hmeets
  have hin : (vs i).start ≤ x → x < (vs i).endAddr → Covered vs x := fun h₁ h₂ => ⟨i, hu, h₁, h₂⟩
  unfold vmaReprotect at hx
  dsimp only at hx
  split_ifs at hx with h₁ h₂ h₃
  · rcases covered_update hx with ⟨ha, hb⟩ | hc
    · exact Or.inl (hin ha hb)
    · exact Or.inl hc
  · rcases (vmaCreate_grown ..).covered hx with hc | hc
    · rcases covered_update hc with ⟨ha, hb⟩ | hc
      · exact Or.inl (hin ha (lt_trans hb h₂.2))
      · exact Or.inl hc
    · exact Or.inl (hin (by omega) hc.2)
  · rcases (vmaCreate_grown ..).covered hx with hc | hc
    · rcases covered_update hc with ⟨ha, hb⟩ | hc
      · exact Or.inl (hin ha (lt_trans hb hlo))
      · exact Or.inl hc
    · by_cases hxe : x < (vs i).endAddr
      · exact Or.inl (hin (by omega) hxe)
      · exact Or.inr ⟨⟨hu, h₃.1, hlo, by omega⟩, by omega, hc.2⟩
  · rcases (vmaCreate_grown ..).covered hx with hc | hc
    · rcases (vmaCreate_grown ..).covered hc with hc | hc
      · rcases covered_update hc with ⟨ha, hb⟩ | hc
        · exact Or.inl (hin ha (lt_trans hb hlo))
        · exact Or.inl hc
      · exact Or.inl (hin (by omega) (by omega))
    · exact Or.inl (hin (by omega) hc.2)

/-- An area with a tail in the range after a turn of `vma_protect` is one the turn left
alone. -/
lemma vmaReprotect_tail {newProt : ℕ} (hmeets : (vs i).meets start endAddr = true)
    (hlt : start < endAddr)
    (ht : Tail (vmaReprotect vs start endAddr newProt i) start endAddr j) :
    j ≠ i ∧ vmaReprotect vs start endAddr newProt i j = vs j := by
  simp only [VmArea.meets, Bool.and_eq_true, decide_eq_true_eq] at hmeets
  obtain ⟨hu, hlo, hhi⟩ := hmeets
  -- the area as the turn first shrinks it has no tail, so `j` is another slot
  have key : ∀ v : VmArea, (start ≤ v.start ∨ v.endAddr ≤ start) →
      Tail (Function.update vs i v) start endAddr j →
      j ≠ i ∧ Function.update vs i v j = vs j := by
    intro v hv ht
    have hji : j ≠ i := by
      rintro rfl
      obtain ⟨-, h₁, h₂, -⟩ := ht
      rw [Function.update_self] at h₁ h₂
      omega
    exact ⟨hji, Function.update_of_ne hji _ _⟩
  have grow : ∀ {w w' : VmaTable} {s e : ℕ}, Grown w s e w' → start ≤ s → endAddr ≤ e →
      (Tail w start endAddr j → j ≠ i ∧ w j = vs j) → Tail w' start endAddr j →
      j ≠ i ∧ w' j = vs j := by
    intro w w' s e hg hs he hw ht
    have hj := hg.tail hs he ht
    have htw : Tail w start endAddr j := by
      unfold Tail at ht ⊢
      rwa [hj] at ht
    exact hj ▸ hw htw
  unfold vmaReprotect at ht ⊢
  dsimp only at ht ⊢
  split_ifs at ht ⊢ with h₁ h₂ h₃
  · exact key _ (Or.inl h₁.1) ht
  · exact grow (vmaCreate_grown ..) hlt.le h₂.2.le (key _ (Or.inl h₂.1)) ht
  · exact grow (vmaCreate_grown ..) le_rfl le_rfl (key _ (Or.inr le_rfl)) ht
  · exact grow (vmaCreate_grown ..) hlt.le (by omega)
      (grow (vmaCreate_grown ..) le_rfl le_rfl (key _ (Or.inr le_rfl))) ht

lemma Tail.of_reprotect {newProt : ℕ} (hmeets : (vs i).meets start endAddr = true)
    (hlt : start < endAddr)
    (ht : Tail (vmaReprotect vs start endAddr newProt i) start endAddr j) :
    Tail vs start endAddr j := by
  have hj := (vmaReprotect_tail hmeets hlt ht).2
  unfold Tail at ht ⊢
  rwa [hj] at ht

/-- A turn of `vma_protect` keeps the table disjoint when, if it protects the tail of an area,
nothing is behind that in the range. -/
lemma vmaReprotect_disjoint (h : VmasDisjoint vs) (hlt : start < endAddr)
    (hfree : Tail vs start endAddr i → ∀ x, (vs i).endAddr ≤ x → x < endAddr → ¬ Covered vs x)
    (hmeets : (vs i).meets start endAddr = true) (newProt : ℕ) : VmasDisjoint (vmaReprotect vs start endAddr newProt i) := by
  simp only [VmArea.meets, Bool.and_eq_true, decide_eq_true_eq] at hmeets
  obtain ⟨hu, hlo, hhi⟩ := hmeets
  unfold vmaReprotect
  dsimp only
  split_ifs with h₁ h₂ h₃
  · exact h.shrink hu (h.nonempty i hu) le_rfl le_rfl
  · have hcut := h.shrink (v := { vs i with endAddr := endAddr, prot := newProt }) hu hhi le_rfl
      h₂.2.le
    refine vmaCreate_disjoint hcut _ _ fun x hx₁ hx₂ => ?_
    exact h.not_covered_shrink hu ⟨hhi.le.trans hx₁, hx₂⟩ fun _ hx => absurd hx.2 (not_lt.mpr hx₁)
  · have hcut := h.shrink (v := { vs i with endAddr := start }) hu h₃.1 le_rfl hlo.le
    refine vmaCreate_disjoint hcut _ _ fun x hx₁ hx₂ => ?_
    by_cases hxe : x < (vs i).endAddr
    · exact h.not_covered_shrink hu ⟨h₃.1.le.trans hx₁, hxe⟩
        fun _ hx => absurd hx.2 (not_lt.mpr hx₁)
    · intro hx
      rcases covered_update hx with hx | hx
      · exact absurd hx.2 (not_lt.mpr hx₁)
      · exact hfree ⟨hu, h₃.1, hlo, by omega⟩ x (not_lt.mp hxe) hx₂ hx
  · have hst : (vs i).start < start := by omega
    have hend : endAddr < (vs i).endAddr := by omega
    have hsub : ∀ x, start ≤ x → x < (vs i).endAddr →
        ¬ Covered (Function.update vs i { vs i with endAddr := start }) x := fun x hx₁ hx₂ =>
      h.not_covered_shrink hu ⟨hst.le.trans hx₁, hx₂⟩ fun _ hx => absurd hx.2 (not_lt.mpr hx₁)
    have hmid := vmaCreate_disjoint (h.shrink (v := { vs i with endAddr := start }) hu hst le_rfl
      hlo.le) newProt (vs i).flags fun x hx₁ hx₂ => hsub x hx₁ (hx₂.trans hend)
    refine vmaCreate_disjoint hmid _ _ fun x hx₁ hx₂ hx => ?_
    rcases (vmaCreate_grown ..).covered hx with hx | hx
    · exact hsub x (hlt.le.trans hx₁) hx₂ hx
    · exact absurd hx.2 (not_lt.mpr hx₁)

lemma vmaReprotect_aligned (h : VmasAligned vs) (hr : PageRange start endAddr)
    (hmeets : (vs i).meets start endAddr = true) (newProt : ℕ) :
    VmasAligned (vmaReprotect vs start endAddr newProt i) := by
  simp only [VmArea.meets, Bool.and_eq_true] at hmeets
  have hal := h i hmeets.1
  have hcut : ∀ q, VmasAligned (Function.update vs i
      ⟨(vs i).start, start, q, (vs i).flags, (vs i).used⟩) := fun _ =>
    h.update fun _ => ⟨hal.1, hr.dvd_start⟩
  unfold vmaReprotect
  dsimp only
  split_ifs
  · exact h.update fun _ => hal
  · exact (vmaCreate_grown ..).aligned (h.update fun _ => ⟨hal.1, hr.dvd_end⟩) hr.dvd_end hal.2
  · exact (vmaCreate_grown ..).aligned (hcut _) hr.dvd_start hr.dvd_end
  · exact (vmaCreate_grown ..).aligned
      ((vmaCreate_grown ..).aligned (hcut _) hr.dvd_start hr.dvd_end) hr.dvd_end hal.2

lemma vmaReprotect_wf (h : VmasWf vs) (hr : PageRange start endAddr)
    (hfree : TailFree vs start endAddr) (hmeets : (vs i).meets start endAddr = true)
    (newProt : ℕ) : VmasWf (vmaReprotect vs start endAddr newProt i) :=
  (vmaReprotect_disjoint h.disjoint hr.lt (hfree i) hmeets newProt).wf
    (vmaReprotect_aligned h.aligned hr hmeets newProt)

lemma vmaReprotect_tailFree (h : VmasWf vs) (hr : PageRange start endAddr)
    (hfree : TailFree vs start endAddr) (hmeets : (vs i).meets start endAddr = true)
    (newProt : ℕ) : TailFree (vmaReprotect vs start endAddr newProt i) start endAddr := by
  intro j ht x hx₁ hx₂ hx
  obtain ⟨hji, hj⟩ := vmaReprotect_tail hmeets hr.lt ht
  have htj := ht.of_reprotect hmeets hr.lt
  rw [hj] at hx₁
  rcases vmaReprotect_covered hmeets hx with hc | ⟨hti, -, -⟩
  · exact hfree j htj x hx₁ hx₂ hc
  · -- both areas would contain `start`
    exact hji (h.eq_of_has htj.1 hti.1 ⟨htj.2.1.le, htj.2.2.1⟩ ⟨hti.2.1.le, hti.2.2.1⟩)

/-- `vma_protect` keeps the table well formed when the range has no area behind the one
whose tail it protects. -/
lemma vmaProtect_wf (h : VmasWf vs) (m : Mem) (hs : 4096 ∣ start) (he : 4096 ∣ endAddr)
    (newProt : ℕ) (hfree : TailApart vs start endAddr) :
    VmasWf (vmaProtect m vs start endAddr newProt).2.2 := by
  unfold vmaProtect
  split_ifs with hlt
  · exact h
  have hr : PageRange start endAddr := ⟨not_le.mp hlt, hs, he⟩
  refine (List.foldlRecOn (motive := fun s : Mem × VmaTable =>
    VmasWf s.2 ∧ TailFree s.2 start endAddr) _ _ ⟨h, hfree.free⟩ fun s hs' i _ => ?_).1
  unfold vmaProtectStep
  dsimp only
  split_ifs with hmeets
  · exact ⟨vmaReprotect_wf hs'.1 hr hs'.2 hmeets newProt,
      vmaReprotect_tailFree hs'.1 hr hs'.2 hmeets newProt⟩
  · exact hs'

end Tables

end Bangos.Mm

namespace Bangos.Syscall

open Bangos.Mm

/-! ## Runs of system calls -/

lemma dvd_pageAlign (x : ℕ) : 4096 ∣ pageAlign x := Dvd.intro_left _ rfl

lemma dvd_u64_add {x y : ℕ} (hx : 4096 ∣ x) (hy : 4096 ∣ y) : 4096 ∣ u64 (x + y) := by
  unfold u64
  omega

/-- The memory calls of one process that change its areas. -/
inductive VmaCall where
  | mmap (addr len prot flags : ℕ)
  | munmap (addr len : ℕ)
  | mprotect (addr len prot : ℕ)

/-- The state after a call. -/
def vmaCall (s : Mem × ProcVm) : VmaCall → Mem × ProcVm
  | .mmap addr len prot flags => (sysMmap s.1 s.2 addr len prot flags).2
  | .munmap addr len => (sysMunmap s.1 s.2 addr len).2
  | .mprotect addr len prot => (sysMprotect s.1 s.2 addr len prot).2

/-- Where `SYS_MMAP` puts a mapping: at `addr` when told so or when the hint is taken, and
at `mmap_curr_base` otherwise. -/
def mmapTarget (p : ProcVm) (addr flags : ℕ) : ℕ :=
  if flags.testBit 4 ∨
      (addr ≠ 0 ∧ addr % 4096 = 0 ∧ 0x40000000 ≤ addr ∧ vmaFind p.vmas addr = none) then addr
  else pageAlign p.mmapCurrBase

/-- The range of an `SYS_MMAP` call, unless it refuses the address, can be added to the
areas of the process. -/
def MmapFits (p : ProcVm) (addr len prot flags : ℕ) : Prop :=
  (flags.testBit 4 = true → addr ≠ 0 ∧ addr % 4096 = 0) →
    VmaFits p.vmas (mmapTarget p addr flags) (u64 (mmapTarget p addr flags + pageAlign len))
      (vmaProtOf prot) (vmaFlagsOf flags)

/-- The condition on a call: the range of a mapping fits, the range of an `SYS_MPROTECT`
that begins inside an area and ends behind it meets no other area; `SYS_MUNMAP` is always
fine. -/
def CallFits (s : Mem × ProcVm) : VmaCall → Prop
  | .mmap addr len prot flags => MmapFits s.2 addr len prot flags
  | .munmap _ _ => True
  | .mprotect addr len _ => TailApart s.2.vmas addr (u64 (addr + pageAlign len))

instance (s : Mem × ProcVm) : ∀ c, Decidable (CallFits s c)
  | .mmap _ _ _ _ => inferInstanceAs (Decidable (_ → _))
  | .munmap _ _ => inferInstanceAs (Decidable True)
  | .mprotect _ _ _ => inferInstanceAs (Decidable (TailApart _ _ _))

lemma mmapAddr_ok {p q : ProcVm} {addr alignedLen flags virt : ℕ}
    (h : mmapAddr p addr alignedLen flags = .ok (virt, q)) :
    virt = mmapTarget p addr flags ∧ 4096 ∣ virt ∧ q.vmas = p.vmas ∧
      (flags.testBit 4 = true → addr ≠ 0 ∧ addr % 4096 = 0) := by
  unfold mmapAddr at h
  unfold mmapTarget
  split_ifs at h with hfix hbad hhint
  · obtain ⟨rfl, rfl⟩ := Prod.mk.inj (Except.ok.inj h)
    rw [not_or, not_not] at hbad
    exact ⟨by simp [hfix], Nat.dvd_of_mod_eq_zero hbad.2, rfl, fun _ => hbad⟩
  · obtain ⟨rfl, rfl⟩ := Prod.mk.inj (Except.ok.inj h)
    exact ⟨by simp [hhint], Nat.dvd_of_mod_eq_zero hhint.2.1, rfl, fun hf => absurd hf hfix⟩
  · obtain ⟨rfl, rfl⟩ := Prod.mk.inj (Except.ok.inj h)
    rw [if_neg (not_or.mpr ⟨hfix, hhint⟩)]
    exact ⟨rfl, dvd_pageAlign _, rfl, fun hf => absurd hf hfix⟩

lemma sysMmap_wf {p : ProcVm} {addr len prot flags : ℕ} (m : Mem) (h : VmasWf p.vmas)
    (hfit : MmapFits p addr len prot flags) :
    VmasWf (sysMmap m p addr len prot flags).2.2.vmas := by
  unfold sysMmap
  split_ifs
  · exact h
  dsimp only
  split
  · exact h
  · rename_i virt q hok
    obtain ⟨hvirt, hal, hvmas, hfix⟩ := mmapAddr_ok hok
    have hwf := vmaCreate_wf h (hvirt ▸ hal) (dvd_u64_add (hvirt ▸ hal) (dvd_pageAlign len))
      (hfit hfix)
    rw [← hvirt, ← hvmas] at hwf
    split
    all_goals
      rename_i hcreate
      rw [hcreate] at hwf
      exact hwf

lemma sysMunmap_wf {p : ProcVm} (m : Mem) (addr len : ℕ) (h : VmasWf p.vmas) :
    VmasWf (sysMunmap m p addr len).2.2.vmas := by
  unfold sysMunmap
  split_ifs with hbad
  · exact h
  · have hal : 4096 ∣ addr := by omega
    exact vmaRemove_wf h m hal (dvd_u64_add hal (dvd_pageAlign len))

lemma sysMprotect_wf {p : ProcVm} {addr len : ℕ} (m : Mem) (prot : ℕ) (h : VmasWf p.vmas)
    (hfree : TailApart p.vmas addr (u64 (addr + pageAlign len))) :
    VmasWf (sysMprotect m p addr len prot).2.2.vmas := by
  unfold sysMprotect
  split_ifs with hbad
  · exact h
  · have hal : 4096 ∣ addr := by omega
    exact vmaProtect_wf h m hal (dvd_u64_add hal (dvd_pageAlign len)) _ hfree

/-- A call that meets its condition keeps the areas well formed. -/
lemma vmaCall_wf (s : Mem × ProcVm) (c : VmaCall) (h : VmasWf s.2.vmas) (hc : CallFits s c) :
    VmasWf (vmaCall s c).2.vmas := by
  cases c with
  | mmap addr len prot flags => exact sysMmap_wf s.1 h hc
  | munmap addr len => exact sysMunmap_wf s.1 addr len h
  | mprotect addr len prot => exact sysMprotect_wf s.1 prot h hc

/-- **The areas of a process stay non-empty, aligned and disjoint** in every run of memory
calls from `vmm_init_process` on, as long as every mapping made is apart from the areas
there are and no `SYS_MPROTECT` runs from the tail of one area into another. -/
theorem vmas_wf_of_calls (m : Mem) (pid : ℤ) (calls : List VmaCall)
    (h : Runs.StepsMeet vmaCall CallFits (m, vmmInitProcess pid) calls) :
    VmasWf (Runs.runFrom vmaCall (m, vmmInitProcess pid) calls).2.vmas :=
  Runs.invariant_runFrom (I := fun s : Mem × ProcVm => VmasWf s.2.vmas) vmaCall_wf
    vmasWf_empty h

/-- Two pages mapped for reading and writing, the second made read-only, the first
unmapped. -/
def protectHalfCalls : List VmaCall :=
  [.mmap 0 0x2000 3 0x22, .mprotect 0x700100001000 0x1000 1, .munmap 0x700100000000 0x1000]

theorem vmas_wf_protectHalf :
    VmasWf (Runs.runFrom vmaCall (mmInit (fun _ => 0) fun _ => false, vmmInitProcess 1)
      protectHalfCalls).2.vmas :=
  vmas_wf_of_calls _ 1 protectHalfCalls (by decide +kernel)

/-- Two pages mapped at a fixed address, then a read-only mapping fixed on the second. -/
def fixedTwiceCalls : List VmaCall := [.mmap 0x10000 0x2000 3 0x32, .mmap 0x11000 0x1000 1 0x32]

/-- A fixed mapping does not replace what it covers: the old area and the new one overlap. -/
theorem not_vmas_wf_fixedTwice :
    ¬ VmasWf (Runs.runFrom vmaCall (mmInit (fun _ => 0) fun _ => false, vmmInitProcess 1)
      fixedTwiceCalls).2.vmas := by
  intro h
  have hap := h.apart 0 1 (by decide) (by decide +kernel) (by decide +kernel)
  exact absurd hap (by decide +kernel)

end Bangos.Syscall
