import Bangos.Mm.MapPage

/-!
# Runs of pages, frames of data

The specifications of `map_user_pages`, `unmap_page` and `modify_page_flags`, and the frame
rules for page tables: an allocation, a `free_page` of a frame that is no table, and a write
to bytes that belong to no table leave every translation alone.
-/

namespace Bangos.Mm

open ByteMem PathTree

variable {m m' : Mem} {T T' : List ℕ → Option ℕ} {p q : List ℕ} {t e f i j k n a virt phys : ℕ}
  {F G : Finset (List ℕ)}

/-! ## Frame rules -/

lemma Shape.of_same (h : Shape m T) (hroot : m'.kernelPml4 = m.kernelPml4)
    (hphys : ∀ p t x, T p = some t → t ≤ x → x < t + 4096 → m'.phys x = m.phys x)
    (hheld : ∀ p t, T p = some t → Held m' t) : Shape m' T ∧ walk m' = walk m := by
  have hent : ∀ p t i, T p = some t → i < 512 → entry m' t i = entry m t i :=
    fun p t i hp hi => entry_congr hi (hphys p t · hp)
  have hs : Shape m' T := h.of_entries hroot (fun p t i hp _ hi => hent p t i hp hi) hheld
  refine ⟨hs, funext fun v => ?_⟩
  rw [hs.walk_eq, h.walk_eq]
  unfold walkTree
  cases h3 : T (path3 v) with
  | some t =>
    dsimp only
    rw [hent _ _ _ h3 (idx_lt v).2.2.2]
  | none =>
    dsimp only
    cases h2 : T (path2 v) with
    | none => rfl
    | some t =>
      dsimp only
      rw [hent _ _ _ h2 (idx_lt v).2.2.1]

/-- The bytes `[a, a + n)` belong to no table. -/
def Off (T : List ℕ → Option ℕ) (a n : ℕ) : Prop :=
  ∀ p t, T p = some t → a + n ≤ t ∨ t + 4096 ≤ a

/-- Frame `k` is given out and is no table. -/
def Data (m : Mem) (T : List ℕ → Option ℕ) (k : ℕ) : Prop :=
  m.pageBitmap k = true ∧ ∀ p, T p ≠ some (frameAddr k)

lemma Grows.data (h : Grows m T m' T' F n) (hk : Data m T k) : Data m' T' k := by
  refine ⟨h.held hk.1, fun p hp => ?_⟩
  rcases h.fresh hp with hold | ⟨x, hx, hfree⟩
  · exact hk.2 p hold
  · obtain rfl := frameAddr_inj hx
    exact absurd (hfree.symm.trans hk.1) (by simp)

lemma Shape.off_low (h : Shape m T) (ha : a + n ≤ physMemoryBase) : Off T a n := by
  intro p t hp
  obtain ⟨x, -, rfl, -⟩ := h.held hp
  exact Or.inl (ha.trans (Nat.le_add_right _ _))

lemma Shape.off_data {c : ℕ} (h : Shape m T) (hd : ∀ k, i ≤ k → k < i + c → Data m T k)
    (h1 : frameAddr i ≤ a) (h2 : a + n ≤ frameAddr (i + c)) : Off T a n := by
  intro p t hp
  obtain ⟨x, -, rfl, -⟩ := h.held hp
  by_contra hover
  have hx : i ≤ x ∧ x < i + c := by
    unfold frameAddr physMemoryBase pageSize at *
    omega
  exact (hd x hx.1 hx.2).2 p hp

lemma Shape.write (h : Shape m T) (hoff : Off T a n) (b : ℕ → UInt8)
    (hb : ∀ x, x < a ∨ a + n ≤ x → b x = m.phys x) :
    Shape { m with phys := b } T ∧ walk { m with phys := b } = walk m := by
  refine h.of_same rfl (fun p t x hp h1 h2 => hb x ?_) fun _ _ hp => h.held hp
  have := hoff p t hp
  omega

/-- What an allocation of at most `MAX_PAGES` frames does to the tables: nothing. -/
lemma Shape.allocPages {count : ℕ} {r : Option ℕ} (h : Shape m T) (hc : count ≤ maxPages)
    (ha : allocPages m count = (r, m')) :
    Shape m' T ∧ walk m' = walk m ∧ ∀ k, m.pageBitmap k = true → m'.pageBitmap k = true := by
  cases r with
  | none =>
    rw [allocPages_eq_none ha]
    exact ⟨h, rfl, fun _ hk => hk⟩
  | some a =>
    obtain ⟨i, -, hi, hrun, -, rfl⟩ := allocPages_eq_some hc ha
    have hmono : ∀ k, m.pageBitmap k = true →
        (if i ≤ k ∧ k < i + count then true else m.pageBitmap k) = true := by
      intro k hk
      simp [hk]
    refine (and_assoc.mp ⟨h.of_same rfl ?_ ?_, hmono⟩)
    · intro p t x hp h1 h2
      obtain ⟨y, -, rfl, hy⟩ := h.held hp
      refine fill_apply_of_not_mem ?_
      by_contra hover
      have hyi : i ≤ y ∧ y < i + count := by
        unfold frameAddr physMemoryBase pageSize at *
        omega
      exact absurd ((hrun y hyi.1 hyi.2).symm.trans hy) (by simp)
    · rintro p t hp
      obtain ⟨y, hy, rfl, hb⟩ := h.held hp
      exact ⟨y, hy, rfl, hmono y hb⟩

lemma Shape.freePage (h : Shape m T) (hno : ∀ p, T p ≠ some (frameOf a)) :
    Shape (freePage m a) T ∧ walk (Mm.freePage m a) = walk m := by
  refine h.of_same (freePage_kernelPml4 m a) (fun _ _ x _ _ _ => congrFun (freePage_phys m a) x) ?_
  intro p s hp
  obtain ⟨y, hy, rfl, hb⟩ := h.held hp
  exact ⟨y, hy, rfl, freePage_pageBitmap_of_ne (fun he => hno p (he ▸ hp)) hb⟩

/-- The frames of an allocation hold data. -/
lemma Shape.allocPages_data {count : ℕ} (h : Shape m T) (hc : count ≤ maxPages)
    (ha : Mm.allocPages m count = (some a, m')) :
    ∃ i, a = frameAddr i ∧ i + count ≤ maxPages ∧ FreeRun m.pageBitmap i count ∧
      ∀ k, i ≤ k → k < i + count → Data m' T k := by
  obtain ⟨i, -, hi, hrun, rfl, rfl⟩ := allocPages_eq_some hc ha
  refine ⟨i, rfl, hi, hrun, fun k h1 h2 => ⟨by simp [h1, h2], fun p hp => ?_⟩⟩
  exact h.ne_frameAddr (hrun k h1 h2) hp rfl

/-! ## Runs of pages -/

/-- Page `i` of a run of pages from `virt` on. -/
def pageAt (virt i : ℕ) : ℕ := u64 (virt + i * pageSize)

/-- The tables on the way to the `n` pages from `virt` on. -/
def userTables (virt : ℕ) : ℕ → Finset (List ℕ)
  | 0 => ∅
  | n + 1 => userTables virt n ∪ tablesOf (pageAt virt n)

lemma card_userTables_le (virt n : ℕ) : (userTables virt n).card ≤ 3 * n := by
  induction n with
  | zero => simp [userTables]
  | succ n ih =>
    have h1 := Finset.card_union_le (userTables virt n) (tablesOf (pageAt virt n))
    have h2 := card_tablesOf_le (pageAt virt n)
    rw [userTables]
    omega

/-- What the `n` pages from `virt` on are mapped to, on frames from `phys` on. -/
def userMap (virt phys : ℕ) : ℕ → ℕ → Option Pte
  | 0, _ => none
  | n + 1, v =>
    if pageKey v = pageKey (pageAt virt n) then some ⟨frameOf (pageAt phys n), true, true⟩
    else userMap virt phys n v

lemma leafPte_pwu (a : ℕ) : leafPte (frameOf a + pagePwu) = some ⟨frameOf a, true, true⟩ := by
  obtain ⟨hp, hw, hu, -, hf⟩ := tableEntry (t := frameOf a) (by unfold frameOf; omega)
  unfold pagePwu
  rw [leafPte, if_pos hp, hw, hu, hf]

lemma pageAt_lt (virt i : ℕ) : pageAt virt i < 2 ^ 64 := by
  unfold pageAt u64
  exact Nat.mod_lt _ (by norm_num)

/-- **`map_user_pages`** lays its run of pages over the translation, and changes nothing
else. -/
theorem mapUserPages_spec (h : Shape m T) (virt phys n : ℕ)
    (hfit : (missing T (userTables virt n)).card ≤ freeFrames m) :
    ∃ T', Grows m T (mapUserPages m virt phys n) T' (userTables virt n) 0 ∧
      ∀ v, walk (mapUserPages m virt phys n) v = (userMap virt phys n v).or (walk m v) := by
  induction n with
  | zero => exact ⟨T, h.grows (by simp [userTables]) rfl, fun v => rfl⟩
  | succ n ih =>
    obtain ⟨T1, hg1, hw1⟩ := ih ((missing_mono Finset.subset_union_left).trans hfit)
    obtain ⟨T2, hg2, hw2⟩ := mapPage_spec hg1.shape (pageAt virt n) (pageAt phys n) pagePwu
      (hg1.fits_tables hfit) (pageAt_lt ..) (by decide)
    refine ⟨T2, hg1.trans hg2, fun v => ?_⟩
    rw [mapUserPages, userMap]
    refine (hw2 v).trans ?_
    split_ifs
    · rw [leafPte_pwu]
      rfl
    · exact hw1 v

lemma userMap_eq_none {v : ℕ} :
    userMap virt phys n v = none ↔ ∀ i < n, pageKey v ≠ pageKey (pageAt virt i) := by
  induction n with
  | zero => simp [userMap]
  | succ n ih =>
    rw [userMap]
    split_ifs with hkey
    · simp only [false_iff, not_forall]
      exact ⟨n, by omega, fun hne => hne hkey⟩
    · rw [ih]
      constructor
      · intro hall i hi
        rcases Nat.lt_succ_iff_lt_or_eq.mp hi with hlt | rfl
        · exact hall i hlt
        · exact hkey
      · exact fun hall i hi => hall i (by omega)

lemma userMap_frameAddr {v : ℕ} {x : Pte} (hi : i + n ≤ maxPages)
    (hx : userMap virt (frameAddr i) n v = some x) :
    ∃ j < n, pageKey v = pageKey (pageAt virt j) ∧ x = ⟨frameAddr (i + j), true, true⟩ := by
  induction n with
  | zero => cases hx
  | succ n ih =>
    rw [userMap] at hx
    split_ifs at hx with hkey
    · refine ⟨n, by omega, hkey, ?_⟩
      have hframe : frameOf (pageAt (frameAddr i) n) = frameAddr (i + n) := by
        unfold frameOf pageAt u64 frameAddr physMemoryBase pageSize
        unfold maxPages at hi
        omega
      rw [← Option.some.inj hx, hframe]
    · obtain ⟨j, hj, hkj, hxj⟩ := ih (by omega) hx
      exact ⟨j, by omega, hkj, hxj⟩

/-! ## Steps that map pages -/

/-- The pages of a run, by their keys. -/
def OnRun (virt n key : ℕ) : Prop := ∃ i < n, key = pageKey (pageAt virt i)

/-- A step that grows the tables and translates the pages outside `P` as before. -/
structure Remaps (m : Mem) (T : List ℕ → Option ℕ) (m' : Mem) (T' : List ℕ → Option ℕ)
    (F : Finset (List ℕ)) (n : ℕ) (P : ℕ → Prop) : Prop where
  grows : Grows m T m' T' F n
  walk : ∀ v, ¬ P (pageKey v) → walk m' v = walk m v

/-- No page. -/
def noPage (_ : ℕ) : Prop := False

lemma Remaps.trans {m'' : Mem} {T'' : List ℕ → Option ℕ} {l : ℕ} {P Q : ℕ → Prop}
    (h : Remaps m T m' T' F n P) (h' : Remaps m' T' m'' T'' G l Q) :
    Remaps m T m'' T'' (F ∪ G) (n + l) fun x => P x ∨ Q x where
  grows := h.grows.trans h'.grows
  walk v hv := by
    rw [not_or] at hv
    rw [h'.walk v hv.2, h.walk v hv.1]

lemma Remaps.quiet {m'' : Mem} {l : ℕ} {P : ℕ → Prop} (h : Remaps m T m' T' F n P)
    (h' : Remaps m' T' m'' T' ∅ l noPage) : Remaps m T m'' T' F (n + l) P where
  grows := by
    have := h.grows.trans h'.grows
    rwa [Finset.union_empty] at this
  walk v hv := by rw [h'.walk v id, h.walk v hv]

lemma Remaps.weaken {l : ℕ} {P : ℕ → Prop} (h : Remaps m T m' T' F n P) (hl : n ≤ l) :
    Remaps m T m' T' F l P where
  grows :=
    have hcount := h.grows.count
    { h.grows with count := by omega }
  walk := h.walk

lemma Remaps.after {m'' : Mem} {l : ℕ} {P : ℕ → Prop} (h : Remaps m T m' T ∅ l noPage)
    (h' : Remaps m' T m'' T' F n P) : Remaps m T m'' T' F (l + n) P where
  grows := by
    have := h.grows.trans h'.grows
    rwa [Finset.empty_union] at this
  walk v hv := by rw [h'.walk v hv, h.walk v id]

lemma Shape.remaps_refl (h : Shape m T) : Remaps m T m T ∅ 0 noPage :=
  ⟨h.grows (by simp) rfl, fun _ _ => rfl⟩

lemma Shape.write_remaps (h : Shape m T) (hoff : Off T a n) (b : ℕ → UInt8)
    (hb : ∀ x, x < a ∨ a + n ≤ x → b x = m.phys x) :
    Remaps m T { m with phys := b } T ∅ 0 noPage := by
  obtain ⟨hs, hw⟩ := h.write hoff b hb
  exact ⟨hs.grows (by simp) rfl, fun v _ => congrFun hw v⟩

lemma Shape.allocPages_remaps {count : ℕ} (h : Shape m T) (hc : count ≤ maxPages) :
    Remaps m T (Mm.allocPages m count).2 T ∅ count noPage := by
  obtain ⟨hs, hw, hmono⟩ := h.allocPages hc rfl
  refine ⟨⟨hs, id, fun _ => rfl, by simp, Or.inl, ?_, hmono _⟩, fun v _ => congrFun hw v⟩
  exact (freeFrames_allocPages_ge hc).trans (by omega)

lemma userMap_ne_none {phys v : ℕ} : userMap virt phys n v ≠ none ↔ OnRun virt n (pageKey v) := by
  rw [ne_eq, userMap_eq_none]
  simp [OnRun]

lemma mapUserPages_remaps (h : Shape m T) (virt phys n : ℕ)
    (hfit : (missing T (userTables virt n)).card ≤ freeFrames m) :
    ∃ T', Remaps m T (mapUserPages m virt phys n) T' (userTables virt n) 0 (OnRun virt n) ∧
      ∀ v, walk (mapUserPages m virt phys n) v = (userMap virt phys n v).or (walk m v) := by
  obtain ⟨T', hg, hw⟩ := mapUserPages_spec h virt phys n hfit
  refine ⟨T', ⟨hg, fun v hv => ?_⟩, hw⟩
  rw [hw v, userMap_eq_none.mpr, Option.none_or]
  exact fun i hi hk => hv ⟨i, hi, hk⟩

/-! ## Unmapping and changing flags -/

/-- The page of `virt`, if it is a 4 KB page. -/
def smallPage (m : Mem) (virt : ℕ) : Option Pte :=
  (getPte m virt).bind fun t => leafPte (entry m t (ptIdx virt))

/-- The tables that `get_pte_ptr` can reach are the tree `T`, in page-aligned places of their own.
Nothing is asked of the rights in their entries, nor of the allocator. -/
structure Linked (m : Mem) (T : List ℕ → Option ℕ) : Prop where
  root : T [] = some m.kernelPml4
  tree : IsTree T
  aligned : ∀ {p t}, T p = some t → t % 4096 = 0
  depth : ∀ {p t}, T p = some t → p.length ≤ 3
  index : ∀ {i p t}, T (i :: p) = some t → i < 512
  child : ∀ {i p t t'}, T p = some t → T (i :: p) = some t' →
    isPresent (entry m t i) = true ∧ frameOf (entry m t i) = t' ∧
      (p.length = 2 → isHuge (entry m t i) = false)
  leaf : ∀ {i p t}, T p = some t → p.length < 3 → i < 512 → T (i :: p) = none →
    isPresent (entry m t i) = false ∨ p.length = 2 ∧ isHuge (entry m t i) = true

lemma Shape.linked (h : Shape m T) : Linked m T where
  root := h.root
  tree := h.tree
  aligned := h.aligned
  depth := h.depth
  index := h.index
  child hp hc := by
    obtain ⟨hpwu, hh, hf⟩ := h.child hp hc
    exact ⟨hpwu.1, hf, fun _ => hh⟩
  leaf hp hl hi hc := by
    rcases h.leaf hp hl hi hc with ⟨hpres, -⟩ | ⟨hlen, hh, -⟩
    · exact Or.inl hpres
    · exact Or.inr ⟨hlen, hh⟩

lemma Linked.getPte_eq (h : Linked m T) (virt : ℕ) : getPte m virt = T (path3 virt) := by
  obtain ⟨hi1, hi2, hi3, -⟩ := idx_lt virt
  unfold getPte pdptOf pdOf ptOf
  cases h1 : T (path1 virt) with
  | none =>
    have hpres := (h.leaf h.root (by simp) hi1 h1).resolve_right (by simp)
    rw [if_pos (by simp [hpres])]
    exact (h.tree.child_none (h.tree.child_none h1)).symm
  | some t1 =>
    obtain ⟨hp1, hf1, -⟩ := h.child h.root h1
    rw [if_neg (by simp [hp1]), pdptOf, hf1]
    cases h2 : T (path2 virt) with
    | none =>
      have hpres := (h.leaf h1 (by simp [path1]) hi2 h2).resolve_right (by simp [path1])
      rw [if_pos (by simp [hpres])]
      exact (h.tree.child_none h2).symm
    | some t2 =>
      obtain ⟨hp2, hf2, -⟩ := h.child h1 h2
      rw [if_neg (by simp [hp2]), pdOf, pdptOf, hf1, hf2]
      dsimp only
      cases h3 : T (path3 virt) with
      | none =>
        rcases h.leaf h2 (by simp [path2, path1]) hi3 h3 with hp | ⟨-, hh⟩
        · by_cases hh : isHuge (entry m t2 (pdIdx virt)) = true
          · rw [if_pos hh]
          · rw [if_neg hh, if_pos (by simp [hp])]
        · rw [if_pos hh]
      | some t3 =>
        obtain ⟨hp, hf3, hh⟩ := h.child h2 h3
        have hh := hh (by simp [path2, path1])
        rw [if_neg (by simp [hh]), if_neg (by simp [hp]), hf3]

lemma Shape.getPte_eq (h : Shape m T) (virt : ℕ) : getPte m virt = T (path3 virt) :=
  h.linked.getPte_eq virt

lemma Shape.walk_of_smallPage (h : Shape m T) {x : Pte} (hx : smallPage m virt = some x) :
    walk m virt = some x := by
  rw [smallPage, h.getPte_eq] at hx
  rw [h.walk_eq, walkTree]
  cases h3 : T (path3 virt) with
  | none => simp [h3] at hx
  | some t => simpa [h3] using hx

lemma Shape.smallPage_eq_walk (h : Shape m T) (h3 : T (path3 virt) ≠ none) :
    smallPage m virt = walk m virt := by
  obtain ⟨t, ht⟩ := Option.ne_none_iff_exists'.mp h3
  rw [smallPage, h.getPte_eq, h.walk_eq, walkTree, ht]
  rfl

/-- All that `unmap_page` can do. -/
lemma unmapPage_cases (m : Mem) (virt : ℕ) :
    (smallPage m virt = none ∧ unmapPage m virt = m) ∨
      ∃ t x, getPte m virt = some t ∧ smallPage m virt = some x ∧
        unmapPage m virt = setEntry (freePage m x.frame) t (ptIdx virt) 0 := by
  unfold unmapPage smallPage
  cases getPte m virt with
  | none => exact Or.inl ⟨rfl, rfl⟩
  | some t =>
    by_cases hp : isPresent (entry m t (ptIdx virt)) = true
    · exact Or.inr ⟨t, _, rfl, if_pos hp, if_pos hp⟩
    · exact Or.inl ⟨if_neg hp, if_neg hp⟩

/-- **`unmap_page`** unmaps a 4 KB page and frees its frame, which must not be a table. -/
theorem unmapPage_spec (h : Shape m T)
    (hdata : ∀ x, smallPage m virt = some x → ∀ p, T p ≠ some (frameOf x.frame)) :
    Shape (unmapPage m virt) T ∧
      ∀ v, walk (unmapPage m virt) v =
        if pageKey v = pageKey virt ∧ smallPage m virt ≠ none then none else walk m v := by
  rcases unmapPage_cases m virt with ⟨hx, he⟩ | ⟨t, x, ht, hx, he⟩
  · rw [he, hx]
    simp [h]
  · rw [h.getPte_eq] at ht
    obtain ⟨hs, hw⟩ := h.freePage (hdata x hx)
    obtain ⟨hs', hw'⟩ := hs.setLeaf ht 0
    rw [he, hx]
    refine ⟨hs', fun v => ?_⟩
    rw [hw', hw]
    simp [leafPte, isPresent_zero]

lemma freeFrames_unmapPage_ge (m : Mem) (virt : ℕ) : freeFrames m ≤ freeFrames (unmapPage m virt) := by
  rcases unmapPage_cases m virt with ⟨-, he⟩ | ⟨t, x, -, -, he⟩
  · rw [he]
  · rw [he]
    exact (freeFrames_freePage_ge _).trans (freeFrames_congr (setEntry_pageBitmap ..)).ge

/-- All that `modify_page_flags` can do. -/
lemma modifyPageFlags_cases (m : Mem) (virt flags : ℕ) :
    (smallPage m virt = none ∧ modifyPageFlags m virt flags = m) ∨
      ∃ t x, getPte m virt = some t ∧ smallPage m virt = some x ∧
        x.frame = frameOf (entry m t (ptIdx virt)) ∧
        modifyPageFlags m virt flags = setEntry m t (ptIdx virt) (x.frame ||| flags) := by
  unfold modifyPageFlags smallPage
  cases getPte m virt with
  | none => exact Or.inl ⟨rfl, rfl⟩
  | some t =>
    by_cases hp : isPresent (entry m t (ptIdx virt)) = true
    · exact Or.inr ⟨t, _, rfl, if_pos hp, rfl, if_pos hp⟩
    · exact Or.inl ⟨if_neg hp, if_neg hp⟩

/-- **`modify_page_flags`** changes the rights of a 4 KB page and nothing else. -/
theorem modifyPageFlags_spec {flags : ℕ} (h : Shape m T) (virt : ℕ) (hflags : flags < 4096) :
    Shape (modifyPageFlags m virt flags) T ∧
      ∀ v, walk (modifyPageFlags m virt flags) v =
        if pageKey v = pageKey virt then
          match smallPage m virt with
          | some x => leafPte (x.frame + flags)
          | none => walk m v
        else walk m v := by
  rcases modifyPageFlags_cases m virt flags with ⟨hx, he⟩ | ⟨t, x, ht, hx, hf, he⟩
  · rw [he, hx]
    simp [h]
  · rw [h.getPte_eq] at ht
    obtain ⟨hs, hw⟩ := h.setLeaf ht (x.frame ||| flags)
    have hval : (x.frame ||| flags) % 2 ^ 64 = x.frame + flags := by
      have hlt := entry_lt m t (ptIdx virt)
      rw [hf, lor_eq_add (by unfold frameOf; omega) hflags]
      unfold frameOf
      omega
    rw [he, hx]
    refine ⟨hs, fun v => ?_⟩
    rw [hw, hval]

end Bangos.Mm
