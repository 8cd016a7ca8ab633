import Bangos.Mm.UserPages
import Bangos.Mm.VmaTable

/-!
# What the area functions do to the page tables

`vma_remove` unmaps pages inside its range and inside areas of the process, `vma_protect`
changes rights only, and a demand fault maps the page of its address.
-/

namespace Bangos.Mm

variable {m m' m'' : Mem} {T : List ℕ → Option ℕ} {vs : VmaTable} {start endAddr virt n : ℕ}
  {P Q : ℕ → Prop}

/-! ## Unmapping -/

/-- `m'` is `m` with some of the pages of addresses in `P` unmapped; the tables are the
same. -/
structure Unmaps (T : List ℕ → Option ℕ) (P : ℕ → Prop) (m m' : Mem) : Prop where
  shape : Shape m' T
  walk : ∀ v, walk m' v = walk m v ∨ walk m' v = none ∧ ∃ a, P a ∧ pageKey v = pageKey a
  free : freeFrames m ≤ freeFrames m'

/-- No 4 KB page of an address in `P` is mapped to a table. -/
def NoTable (T : List ℕ → Option ℕ) (P : ℕ → Prop) (m : Mem) : Prop :=
  ∀ a, P a → ∀ x, smallPage m a = some x → ∀ p, T p ≠ some (frameOf x.frame)

lemma Shape.unmaps_refl (h : Shape m T) : Unmaps T P m m := ⟨h, fun _ => Or.inl rfl, le_rfl⟩

lemma Unmaps.trans (h : Unmaps T P m m') (h' : Unmaps T P m' m'') : Unmaps T P m m'' where
  shape := h'.shape
  walk v := by
    rcases h'.walk v with he | hn
    · rw [he]
      exact h.walk v
    · exact Or.inr hn
  free := h.free.trans h'.free

lemma Shape.smallPage_eq (h : Shape m T) (v : ℕ) :
    smallPage m v = if T (path3 v) = none then none else walk m v := by
  rw [smallPage, h.getPte_eq, h.walk_eq, walkTree]
  cases T (path3 v) <;> simp

lemma Unmaps.noTable (h : Shape m T) (hu : Unmaps T P m m') (hno : NoTable T P m) :
    NoTable T P m' := by
  intro a ha x hx
  refine hno a ha x ?_
  rw [hu.shape.smallPage_eq] at hx
  rw [h.smallPage_eq]
  split_ifs at hx ⊢ with hp
  rcases hu.walk a with he | ⟨hn, -⟩
  · rw [← he, hx]
  · exact absurd (hn.symm.trans hx) (by simp)

lemma unmapPage_unmaps (h : Shape m T) (hno : NoTable T P m) (hv : P virt) :
    Unmaps T P m (unmapPage m virt) := by
  obtain ⟨hs, hw⟩ := unmapPage_spec h (hno virt hv)
  refine ⟨hs, fun v => ?_, freeFrames_unmapPage_ge m virt⟩
  rw [hw v]
  split_ifs with hk
  · exact Or.inr ⟨rfl, virt, hv, hk.1⟩
  · exact Or.inl rfl

lemma unmapUserPages_unmaps (h : Shape m T) (hno : NoTable T P m) (n : ℕ)
    (hP : ∀ i < n, P (pageAt virt i)) : Unmaps T P m (unmapUserPages m virt n) := by
  induction n with
  | zero => exact h.unmaps_refl
  | succ n ih =>
    have hn := ih fun i hi => hP i (by omega)
    exact hn.trans (unmapPage_unmaps hn.shape (hn.noTable h hno) (hP n (by omega)))

lemma vmaCut_covered {i : Fin maxProcessVmas} {x : ℕ}
    (hmeets : (vs i).meets start endAddr = true) (hx : Covered (vmaCut vs start endAddr i) x) :
    Covered vs x := by
  simp only [VmArea.meets, Bool.and_eq_true, decide_eq_true_eq] at hmeets
  obtain ⟨hu, hlo, hhi⟩ := hmeets
  have hin : (vs i).span.Has x → Covered vs x := fun hh => ⟨i, hu, hh⟩
  unfold vmaCut at hx
  dsimp only at hx
  split_ifs at hx with h₁ h₂ h₃
  · exact (covered_update hx).elim hin id
  · exact (covered_update hx).elim (fun hh => hin ⟨hhi.le.trans hh.1, hh.2⟩) id
  · exact (covered_update hx).elim (fun hh => hin ⟨hh.1, hh.2.trans hlo⟩) id
  · rcases (vmaCreate_grown _ _ _ _ _).covered hx with hc | ⟨h1, h2⟩
    · exact (covered_update hc).elim (fun hh => hin ⟨hh.1, hh.2.trans hlo⟩) id
    · exact hin ⟨hhi.le.trans h1, h2⟩

/-- The addresses of a range that lie in an area. -/
def CoveredIn (vs : VmaTable) (start endAddr a : ℕ) : Prop :=
  start ≤ a ∧ a < endAddr ∧ Covered vs a

lemma coveredIn_pageAt {i : Fin maxProcessVmas} {j : ℕ} (hend : endAddr ≤ 2 ^ 64)
    (hmeets : (vs i).meets start endAddr = true)
    (hj : j < (min endAddr (vs i).endAddr - max start (vs i).start) / pageSize) :
    CoveredIn vs start endAddr (pageAt (max start (vs i).start) j) := by
  simp only [VmArea.meets, Bool.and_eq_true, decide_eq_true_eq] at hmeets
  have heq : pageAt (max start (vs i).start) j = max start (vs i).start + j * 4096 := by
    unfold pageAt u64
    unfold pageSize at hj ⊢
    omega
  rw [heq]
  unfold pageSize at hj
  refine ⟨by omega, by omega, i, hmeets.1, ?_, ?_⟩
  · change (vs i).start ≤ _
    omega
  · change _ < (vs i).endAddr
    omega

/-- **`vma_remove`** unmaps pages of covered addresses of its range only. -/
theorem vmaRemove_unmaps (h : Shape m T) (hend : endAddr ≤ 2 ^ 64)
    (hno : NoTable T (CoveredIn vs start endAddr) m) :
    Unmaps T (CoveredIn vs start endAddr) m (vmaRemove m vs start endAddr).2.1 := by
  unfold vmaRemove
  split_ifs with hlt
  · exact h.unmaps_refl
  -- the areas only shrink, so that what is covered on the way was covered before
  refine (List.foldlRecOn (motive := fun s : Mem × VmaTable =>
    Unmaps T (CoveredIn vs start endAddr) m s.1 ∧ ∀ x, Covered s.2 x → Covered vs x) _ _
    ⟨h.unmaps_refl, fun _ hx => hx⟩ fun s hs i _ => ?_).1
  obtain ⟨hu, hc⟩ := hs
  unfold vmaRemoveStep
  dsimp only
  split_ifs with hmeets
  · refine ⟨hu.trans (unmapUserPages_unmaps hu.shape (hu.noTable h hno) _ fun j hj => ?_),
      fun x hx => hc x (vmaCut_covered hmeets hx)⟩
    obtain ⟨h1, h2, h3⟩ := coveredIn_pageAt hend hmeets hj
    exact ⟨h1, h2, hc _ h3⟩
  · exact ⟨hu, hc⟩

/-! ## Changing rights -/

/-- `m'` maps every page to the frame to which `m` maps it, with other rights for pages of
addresses in `P` only; the tables are the same. -/
structure SameFrames (T : List ℕ → Option ℕ) (P : ℕ → Prop) (m m' : Mem) : Prop where
  shape : Shape m' T
  frame : ∀ v, (walk m' v).map Pte.frame = (walk m v).map Pte.frame
  walk : ∀ v, walk m' v = walk m v ∨ ∃ a, P a ∧ pageKey v = pageKey a
  bitmap : m'.pageBitmap = m.pageBitmap

lemma Shape.sameFrames_refl (h : Shape m T) : SameFrames T P m m :=
  ⟨h, fun _ => rfl, fun _ => Or.inl rfl, rfl⟩

lemma SameFrames.trans (h : SameFrames T P m m') (h' : SameFrames T P m' m'') :
    SameFrames T P m m'' where
  shape := h'.shape
  frame v := (h'.frame v).trans (h.frame v)
  walk v := by
    rcases h'.walk v with he | ha
    · rw [he]
      exact h.walk v
    · exact Or.inr ha
  bitmap := h'.bitmap.trans h.bitmap

lemma pteFlags_cases (prot : ℕ) :
    pteFlags prot = 7 ∧ prot.testBit 1 = true ∨ pteFlags prot = 5 ∧ prot.testBit 1 = false := by
  unfold pteFlags
  cases prot.testBit 1 with
  | true => exact Or.inl ⟨rfl, rfl⟩
  | false => exact Or.inr ⟨rfl, rfl⟩

lemma leafPte_pteFlags (a prot : ℕ) :
    leafPte (frameOf a + pteFlags prot) = some ⟨frameOf a, prot.testBit 1, true⟩ := by
  have hentry : ∀ e, e = frameOf a + 7 ∨ e = frameOf a + 5 → isPresent e = true ∧
      isUser e = true ∧ frameOf e = frameOf a := by
    intro e he
    rw [isPresent_eq, isUser_eq, decide_eq_true_eq, decide_eq_true_eq]
    unfold frameOf at he ⊢
    omega
  rcases pteFlags_cases prot with ⟨hf, hb⟩ | ⟨hf, hb⟩
  · obtain ⟨hp, hu, hframe⟩ := hentry _ (Or.inl rfl)
    have hw : isWritable (frameOf a + 7) = true := by
      rw [isWritable_eq, decide_eq_true_eq]
      unfold frameOf
      omega
    rw [hf, hb, leafPte, if_pos hp, hframe, hu, hw]
  · obtain ⟨hp, hu, hframe⟩ := hentry _ (Or.inr rfl)
    have hw : isWritable (frameOf a + 5) = false := by
      rw [isWritable_eq, decide_eq_false_iff_not]
      unfold frameOf
      omega
    rw [hf, hb, leafPte, if_pos hp, hframe, hu, hw]

lemma pteFlags_lt (prot : ℕ) : pteFlags prot < 4096 := by
  rcases pteFlags_cases prot with ⟨h, -⟩ | ⟨h, -⟩ <;> rw [h] <;> norm_num

lemma modifyPageFlags_sameFrames (h : Shape m T) (prot : ℕ) (hv : P virt) :
    SameFrames T P m (modifyPageFlags m virt (pteFlags prot)) := by
  obtain ⟨hs, hw⟩ := modifyPageFlags_spec h virt (pteFlags_lt prot)
  rcases modifyPageFlags_cases m virt (pteFlags prot) with ⟨-, he⟩ | ⟨t, x, -, hx, hf, he⟩
  · rw [he]
    exact h.sameFrames_refl
  · refine ⟨hs, fun v => ?_, fun v => ?_, by rw [he, setEntry_pageBitmap]⟩
    · rw [hw v, hx]
      dsimp only
      split_ifs with hk
      · rw [walk_congr_key hk, h.walk_of_smallPage hx, hf]
        rw [leafPte_pteFlags, Option.map_some, Option.map_some, hf]
      · rfl
    · by_cases hk : pageKey v = pageKey virt
      · exact Or.inr ⟨virt, hv, hk⟩
      · exact Or.inl ((hw v).trans (if_neg hk))

lemma protectPages_sameFrames (h : Shape m T) (addr prot n : ℕ)
    (hP : ∀ i < n, P (addr + i * pageSize)) :
    SameFrames T P m (protectPages m addr (pteFlags prot) n) := by
  induction n with
  | zero => exact h.sameFrames_refl
  | succ n ih =>
    have hn := ih fun i hi => hP i (by omega)
    exact hn.trans (modifyPageFlags_sameFrames hn.shape _ (hP n (by omega)))

/-- **`vma_protect`** maps nothing anew, and changes rights in its range only. -/
theorem vmaProtect_sameFrames (h : Shape m T) (vs : VmaTable) (start endAddr newProt : ℕ) :
    SameFrames T (fun a => start ≤ a ∧ a < endAddr) m
      (vmaProtect m vs start endAddr newProt).2.1 := by
  unfold vmaProtect
  split_ifs with hlt
  · exact h.sameFrames_refl
  refine List.foldlRecOn (motive := fun s : Mem × VmaTable => SameFrames T _ m s.1) _ _
    h.sameFrames_refl fun s hs i _ => ?_
  unfold vmaProtectStep
  dsimp only
  split_ifs
  · refine hs.trans (protectPages_sameFrames hs.shape _ _ _ fun j hj => ?_)
    unfold pageSize at hj ⊢
    omega
  · exact hs

lemma walk_modifyPageFlags_self {x : Pte} (h : Shape m T) (prot : ℕ)
    (hx : smallPage m virt = some x) :
    walk (modifyPageFlags m virt (pteFlags prot)) virt = some ⟨x.frame, prot.testBit 1, true⟩ := by
  rcases modifyPageFlags_cases m virt (pteFlags prot) with ⟨hn, -⟩ | ⟨t, y, -, hy, hf, -⟩
  · rw [hn] at hx
    cases hx
  · obtain rfl : y = x := Option.some.inj (hy.symm.trans hx)
    rw [(modifyPageFlags_spec h virt (pteFlags_lt prot)).2 virt, if_pos rfl, hx]
    dsimp only
    rw [hf, leafPte_pteFlags]

lemma vmaProtect_mem_first (m : Mem) {vs : VmaTable} {start endAddr prot : ℕ}
    (hlt : start < endAddr) (h0 : (vs 0).meets start endAddr = true)
    (hrest : ∀ j ≠ 0, (vmaReprotect vs start endAddr prot 0 j).meets start endAddr = false) :
    (vmaProtect m vs start endAddr prot).2.1 = protectPages m (max start (vs 0).start)
      (pteFlags prot) ((min endAddr (vs 0).endAddr - max start (vs 0).start + (pageSize - 1)) /
        pageSize) := by
  have hl : List.finRange maxProcessVmas = 0 :: (List.finRange maxProcessVmas).tail := by decide
  have hne : ∀ j ∈ (List.finRange maxProcessVmas).tail, j ≠ 0 := by decide
  unfold vmaProtect
  rw [if_neg (by omega), hl, List.foldl_cons]
  -- the first turn does the work, and no later one finds an area in the range
  rw [show vmaProtectStep start endAddr prot (m, vs) 0 = _ from if_pos h0]
  refine congrArg Prod.fst (List.foldlRecOn (motive := fun s => s = _) _ _ rfl fun s hs j hj => ?_)
  subst hs
  exact if_neg (by rw [hrest j (hne j hj)]; simp)

/-! ## Demand faults -/

/-- The areas of an active process allow the access. -/
def faultAllowed (vs : VmaTable) (active : Bool) (faultAddr errorCode : ℕ) : Bool :=
  active && match vmaFind vs faultAddr with
    | none => false
    | some i => !(errorCode.testBit 0 && errorCode.testBit 1 && !(vs i).prot.testBit 1)

/-- All that `vmm_handle_page_fault` can do: refuse, or map a frame that was free at the page
of the address, with the rights of the area that `vma_find` finds. -/
lemma vmmHandlePageFault_found (m : Mem) (vs : VmaTable) (active : Bool)
    (faultAddr errorCode : ℕ) :
    (vmmHandlePageFault m vs active faultAddr errorCode = (-1, m) ∧
        (faultAllowed vs active faultAddr errorCode = false ∨ freeFrames m = 0)) ∨
      (faultAllowed vs active faultAddr errorCode = true ∧ ∃ i frame m1,
        vmaFind vs faultAddr = some i ∧ allocPage m = (some frame, m1) ∧
        vmmHandlePageFault m vs active faultAddr errorCode =
          (0, mapPage m1 (faultAddr / 4096 * 4096) frame (pteFlags (vs i).prot))) := by
  unfold vmmHandlePageFault faultAllowed
  cases active with
  | false => exact Or.inl ⟨rfl, Or.inl rfl⟩
  | true =>
    simp only [Bool.not_true, Bool.false_eq_true, if_false, Bool.true_and]
    cases hfind : vmaFind vs faultAddr with
    | none => exact Or.inl ⟨rfl, Or.inl rfl⟩
    | some i =>
      dsimp only
      by_cases hbad : (errorCode.testBit 0 && errorCode.testBit 1 &&
          !(vs i).prot.testBit 1) = true
      · rw [if_pos hbad]
        exact Or.inl ⟨rfl, Or.inl (by rw [hbad]; rfl)⟩
      rw [if_neg hbad]
      rw [Bool.not_eq_true] at hbad
      rcases ha : allocPage m with ⟨r, m1⟩
      cases r with
      | none =>
        refine Or.inl ⟨by rw [allocPages_eq_none ha], Or.inr ?_⟩
        by_contra hpos
        obtain ⟨a, m2, hsome⟩ := allocPage_isSome (Nat.pos_of_ne_zero hpos)
        exact absurd (ha.symm.trans hsome) (by simp)
      | some frame =>
        refine Or.inr ⟨by rw [hbad]; rfl, i, frame, m1, rfl, rfl, ?_⟩
        dsimp only
        -- the frame has been cleared by the allocator
        have hclear : ({ m1 with phys := ByteMem.fill m1.phys frame pageSize 0 } : Mem) = m1 := by
          obtain ⟨k, -, -, -, rfl, rfl⟩ := allocPages_eq_some (by decide) ha
          simp only [Nat.one_mul, ByteMem.fill_fill]
        rw [hclear, ite_self]

lemma vmmHandlePageFault_cases (m : Mem) (vs : VmaTable) (active : Bool)
    (faultAddr errorCode : ℕ) :
    (vmmHandlePageFault m vs active faultAddr errorCode = (-1, m) ∧
        (faultAllowed vs active faultAddr errorCode = false ∨ freeFrames m = 0)) ∨
      (faultAllowed vs active faultAddr errorCode = true ∧ ∃ frame m1 prot,
        allocPage m = (some frame, m1) ∧
        vmmHandlePageFault m vs active faultAddr errorCode =
          (0, mapPage m1 (faultAddr / 4096 * 4096) frame (pteFlags prot))) := by
  rcases vmmHandlePageFault_found m vs active faultAddr errorCode with h | ⟨hok, i, frame, m1, -, h⟩
  · exact Or.inl h
  · exact Or.inr ⟨hok, frame, m1, _, h⟩

end Bangos.Mm
