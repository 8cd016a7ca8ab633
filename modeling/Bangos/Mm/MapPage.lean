import Bangos.Mm.PageTable

/-!
# Mapping, unmapping and changing pages

What `map_page`, `map_user_pages`, `unmap_page` and `modify_page_flags` do to page tables of
sound shape.  As long as there are frames for the tables that are missing, `map_page` changes
the translation of its own page only; splitting a 2 MB page changes none.  A chain of calls
needs one frame for each table on the way to one of its pages that is not there yet, however
the calls share them (`Grows.trans`).

A step of the kernel mixes such calls with allocations of frames for data, so `Grows` also
bounds the number of those.
-/

namespace Bangos.Mm

open ByteMem PathTree

variable {m m' m'' : Mem} {T T' T'' : List ℕ → Option ℕ} {p q : List ℕ} {t t' e f i j virt : ℕ}
  {F G : Finset (List ℕ)} {n n' : ℕ}

/-! ## New tables -/

lemma allocPage_spec (h : 0 < freeFrames m) :
    ∃ k, k < maxPages ∧ m.pageBitmap k = false ∧
      allocPage m = (some (frameAddr k), { m with
        pageBitmap := fun x => if k ≤ x ∧ x < k + 1 then true else m.pageBitmap x
        phys := fill m.phys (frameAddr k) pageSize 0 }) := by
  obtain ⟨a, m1, h1⟩ := allocPage_isSome h
  obtain ⟨k, -, hk, hrun, rfl, rfl⟩ := allocPages_eq_some (by decide) h1
  refine ⟨k, by omega, hrun k le_rfl (by omega), ?_⟩
  rw [h1, Nat.one_mul]

lemma Shape.ne_frameAddr (h : Shape m T) {k : ℕ} (hfree : m.pageBitmap k = false)
    (hp : T p = some t) : t ≠ frameAddr k := by
  obtain ⟨x, -, rfl, hb⟩ := h.held hp
  intro he
  obtain rfl := frameAddr_inj he
  exact absurd (hfree.symm.trans hb) (by simp)

/-- A frame just allocated, linked at entry `i` of a table `t` that lies in no free frame: the
frame is an empty table and all other tables are as before. -/
lemma linkFrame_spec (ht : t % 4096 = 0) (hi : i < 512)
    (hheld : ∀ k < maxPages, m.pageBitmap k = false → t ≠ frameAddr k) (hfree : 0 < freeFrames m) :
    ∃ k < maxPages, m.pageBitmap k = false ∧ (allocPage m).1 = some (frameAddr k) ∧
      ((allocPage m).2.pageBitmap = fun x => if k ≤ x ∧ x < k + 1 then true else m.pageBitmap x) ∧
      ∀ m', m' = setEntry (allocPage m).2 t i (frameAddr k ||| pagePwu) →
        entry m' t i = frameAddr k + 7 ∧
        (∀ s j, s % 4096 = 0 → j < 512 → s ≠ frameAddr k → (s = t → j ≠ i) →
          entry m' s j = entry m s j) ∧
        ∀ j < 512, entry m' (frameAddr k) j = 0 := by
  obtain ⟨k, hk, hbit, halloc⟩ := allocPage_spec hfree
  have hk0 := frameAddr_mod k
  have hne := hheld k hk hbit
  have hlt : frameAddr k + 7 < 2 ^ 64 := by
    unfold frameAddr physMemoryBase pageSize
    unfold maxPages at hk
    omega
  refine ⟨k, hk, hbit, by rw [halloc], by rw [halloc], ?_⟩
  rintro m' rfl
  rw [halloc, pagePwu, lor_eq_add hk0 (by norm_num : 7 < 4096)]
  refine ⟨by rw [entry_setEntry_self, Nat.mod_eq_of_lt hlt], ?_, ?_⟩
  · intro s j hs hj hsk hsj
    rw [entry_setEntry_of_ne ht hs hi hj hsj]
    refine entry_congr hj fun x h1 h2 => fill_apply_of_not_mem ?_
    unfold pageSize
    omega
  · intro j hj
    rw [entry_setEntry_of_ne ht hk0 hi hj fun he => absurd he.symm hne]
    refine le_fill_zero (by omega) ?_
    unfold pageSize
    omega

lemma linkTable_spec (h : Shape m T) (hp : T p = some t) (hd : p.length < 3) (hi : i < 512)
    (hnone : T (i :: p) = none) (hfree : 0 < freeFrames m) :
    ∃ k, (allocPage m).1 = some (frameAddr k) ∧
      TableAdded m (setEntry (allocPage m).2 t i (frameAddr k ||| pagePwu)) T p t i k ∧
      ∀ j < 512,
        entry (setEntry (allocPage m).2 t i (frameAddr k ||| pagePwu)) (frameAddr k) j = 0 := by
  obtain ⟨k, hk, hbit, halloc, hbitmap, hlink⟩ := linkFrame_spec (h.aligned hp) hi
    (fun k _ hb => h.ne_frameAddr hb hp) hfree
  obtain ⟨hself, hother, hzero⟩ := hlink _ rfl
  exact ⟨k, halloc, ⟨hp, hd, hi, hnone, hk, hbit, allocPages_kernelPml4 m 1, hbitmap, hself,
    fun q s j hq hj hsj => hother s j (h.aligned hq) hj (h.ne_frameAddr hbit hq) hsj⟩, hzero⟩

lemma newTable_eq {k : ℕ} (hfree : 0 < freeFrames m) (hk : (allocPage m).1 = some (frameAddr k)) :
    newTable m t i = setEntry (allocPage m).2 t i (frameAddr k ||| pagePwu) := by
  obtain ⟨k', -, -, halloc⟩ := allocPage_spec hfree
  rw [halloc] at hk ⊢
  obtain rfl := frameAddr_inj (Option.some.inj hk)
  unfold newTable
  rw [halloc]
  simp only [Option.getD_some, fill_fill]

lemma newTable_spec (h : Shape m T) (hp : T p = some t) (hd : p.length < 3) (hi : i < 512)
    (hnone : T (i :: p) = none) (hfree : 0 < freeFrames m) :
    ∃ k, TableAdded m (newTable m t i) T p t i k ∧
      ∀ j < 512, entry (newTable m t i) (frameAddr k) j = 0 := by
  obtain ⟨k, hk, hspec⟩ := linkTable_spec h hp hd hi hnone hfree
  exact ⟨k, newTable_eq hfree hk ▸ hspec⟩

/-- The loop that fills a split page's table, after `n` turns. -/
def fillSplitUpTo (m : Mem) (new huge n : ℕ) : Mem :=
  (List.range n).foldl (fun m k => setEntry m new k (u64 (huge + k * pageSize) ||| pagePwu)) m

lemma fillSplitUpTo_succ (m : Mem) (new huge n : ℕ) :
    fillSplitUpTo m new huge (n + 1) =
      setEntry (fillSplitUpTo m new huge n) new n (u64 (huge + n * pageSize) ||| pagePwu) := by
  rw [fillSplitUpTo, List.range_succ, List.foldl_append]
  rfl

lemma fillSplitUpTo_globals (m : Mem) (new huge n : ℕ) :
    (fillSplitUpTo m new huge n).pageBitmap = m.pageBitmap ∧
      (fillSplitUpTo m new huge n).kernelPml4 = m.kernelPml4 := by
  induction n with
  | zero => exact ⟨rfl, rfl⟩
  | succ n ih =>
    rw [fillSplitUpTo_succ]
    exact ih

lemma entry_fillSplitUpTo_of_ne {new huge s : ℕ} (hnew : new % 4096 = 0) (hs : s % 4096 = 0)
    (hne : s ≠ new) (hj : j < 512) (n : ℕ) (hn : n ≤ 512) :
    entry (fillSplitUpTo m new huge n) s j = entry m s j := by
  induction n with
  | zero => rfl
  | succ n ih =>
    rw [fillSplitUpTo_succ, entry_setEntry_of_ne hnew hs (by omega) hj fun he => absurd he hne,
      ih (by omega)]

lemma entry_fillSplitUpTo {new huge : ℕ} (hnew : new % 4096 = 0) (hhuge : huge % 0x200000 = 0)
    (hlt : huge < 2 ^ 64) (n : ℕ) (hn : n ≤ 512) (hj : j < n) :
    entry (fillSplitUpTo m new huge n) new j = huge + j * 4096 + 7 := by
  induction n with
  | zero => omega
  | succ n ih =>
    rw [fillSplitUpTo_succ]
    by_cases hjn : j = n
    · subst hjn
      have hu : u64 (huge + j * pageSize) = huge + j * 4096 := by
        unfold u64 pageSize
        omega
      rw [entry_setEntry_self, hu, pagePwu, lor_eq_add (by omega) (by norm_num)]
      omega
    · rw [entry_setEntry_of_ne hnew hnew (by omega) (by omega) fun _ => hjn,
        ih (by omega) (by omega)]

/-- `splitHuge` links a table of the 512 pages of the 2 MB page. -/
lemma splitHuge_spec (h : Shape m T) (hp : T p = some t) (hd : p.length < 3) (hi : i < 512)
    (hnone : T (i :: p) = none) (hfree : 0 < freeFrames m) :
    ∃ k, TableAdded m (splitHuge m t i) T p t i k ∧ ∀ j < 512,
      entry (splitHuge m t i) (frameAddr k) j =
        entry m t i / 0x200000 * 0x200000 + j * 4096 + 7 := by
  obtain ⟨k, hk, hbit, halloc⟩ := allocPage_spec hfree
  have ht := h.aligned hp
  have hk0 := frameAddr_mod k
  have hne := h.ne_frameAddr hbit hp
  obtain ⟨f, hf⟩ : ∃ f, f = entry m t i / 0x200000 * 0x200000 := ⟨_, rfl⟩
  have hflt : f < 2 ^ 64 := by
    have := entry_lt m t i
    omega
  have hlt : frameAddr k + 7 < 2 ^ 64 := by
    unfold frameAddr physMemoryBase pageSize
    unfold maxPages at hk
    omega
  have hm : splitHuge m t i = setEntry (fillSplitUpTo
      { m with
        pageBitmap := fun x => if k ≤ x ∧ x < k + 1 then true else m.pageBitmap x
        phys := fill m.phys (frameAddr k) pageSize 0 } (frameAddr k) f 512)
      t i (frameAddr k + 7) := by
    unfold splitHuge
    rw [halloc, ← hf]
    simp only [Option.getD_some, pagePwu, lor_eq_add hk0 (by norm_num : 7 < 4096)]
    rfl
  rw [hm]
  obtain ⟨hbm, hroot⟩ := fillSplitUpTo_globals
    { m with
      pageBitmap := fun x => if k ≤ x ∧ x < k + 1 then true else m.pageBitmap x
      phys := fill m.phys (frameAddr k) pageSize 0 } (frameAddr k) f 512
  refine ⟨k, ⟨hp, hd, hi, hnone, hk, hbit, (setEntry_kernelPml4 ..).trans hroot,
    (setEntry_pageBitmap ..).trans hbm, ?_, ?_⟩, ?_⟩
  · rw [entry_setEntry_self, Nat.mod_eq_of_lt hlt]
  · intro q s j hq hj hsj
    have hs := h.aligned hq
    have hsk := h.ne_frameAddr hbit hq
    rw [entry_setEntry_of_ne ht hs hi hj hsj, entry_fillSplitUpTo_of_ne hk0 hs hsk hj 512 le_rfl]
    refine entry_congr hj fun x h1 h2 => ?_
    dsimp only
    rw [fill_apply_of_not_mem]
    unfold pageSize
    omega
  · intro j hj
    rw [entry_setEntry_of_ne ht hk0 hi hj fun he => absurd he.symm hne,
      entry_fillSplitUpTo hk0 (by omega) hflt 512 le_rfl hj, hf]

/-! ## Growing trees -/

/-- The paths of `F` at which there is no table. -/
def missing (T : List ℕ → Option ℕ) (F : Finset (List ℕ)) : Finset (List ℕ) :=
  F.filter fun p => T p = none

/-- `m'` has the tables of `m` and those of `F`, each new one in a frame of its own, and has
taken at most `n` frames besides. -/
structure Grows (m : Mem) (T : List ℕ → Option ℕ) (m' : Mem) (T' : List ℕ → Option ℕ)
    (F : Finset (List ℕ)) (n : ℕ) : Prop where
  shape : Shape m' T'
  old : ∀ {p t}, T p = some t → T' p = some t
  only : ∀ {p}, p ∉ F → T' p = T p
  filled : ∀ {p}, p ∈ F → T' p ≠ none
  fresh : ∀ {p t}, T' p = some t → T p = some t ∨ ∃ k, t = frameAddr k ∧ m.pageBitmap k = false
  count : freeFrames m ≤ freeFrames m' + (missing T F).card + n
  held : ∀ {k}, m.pageBitmap k = true → m'.pageBitmap k = true

lemma missing_union (h : Grows m T m' T' F n) :
    (missing T (F ∪ G)).card = (missing T F).card + (missing T' G).card := by
  have hunion : missing T (F ∪ G) = missing T F ∪ missing T' G := by
    ext p
    simp only [missing, Finset.mem_filter, Finset.mem_union]
    constructor
    · rintro ⟨hF | hG, hT⟩
      · exact Or.inl ⟨hF, hT⟩
      · by_cases hF : p ∈ F
        · exact Or.inl ⟨hF, hT⟩
        · exact Or.inr ⟨hG, (h.only hF).trans hT⟩
    · rintro (⟨hF, hT⟩ | ⟨hG, hT'⟩)
      · exact ⟨Or.inl hF, hT⟩
      · refine ⟨Or.inr hG, ?_⟩
        cases hT : T p with
        | none => rfl
        | some t => exact absurd (hT'.symm.trans (h.old hT)) (by simp)
  have hdisj : Disjoint (missing T F) (missing T' G) := by
    rw [Finset.disjoint_left]
    intro p hF hG
    simp only [missing, Finset.mem_filter] at hF hG
    exact h.filled hF.1 hG.2
  rw [hunion, Finset.card_union_of_disjoint hdisj]

lemma Grows.fits_rest (h : Grows m T m' T' F n)
    (hfit : (missing T (F ∪ G)).card + (n + n') ≤ freeFrames m) :
    (missing T' G).card + n' ≤ freeFrames m' := by
  have h1 := missing_union (G := G) h
  have h2 := h.count
  omega

lemma Grows.fits_tables (h : Grows m T m' T' F n)
    (hfit : (missing T (F ∪ G)).card + n ≤ freeFrames m) : (missing T' G).card ≤ freeFrames m' :=
  @Grows.fits_rest _ _ _ _ _ _ _ 0 h hfit

lemma Grows.trans (h : Grows m T m' T' F n) (h' : Grows m' T' m'' T'' G n') :
    Grows m T m'' T'' (F ∪ G) (n + n') where
  shape := h'.shape
  old hp := h'.old (h.old hp)
  only hp := by
    simp only [Finset.mem_union, not_or] at hp
    rw [h'.only hp.2, h.only hp.1]
  filled {p} hp := by
    rcases Finset.mem_union.mp hp with hF | hG
    · obtain ⟨t, ht⟩ := Option.ne_none_iff_exists'.mp (h.filled hF)
      simp [h'.old ht]
    · exact h'.filled hG
  fresh hp := by
    rcases h'.fresh hp with hp' | ⟨k, hk, hfree⟩
    · exact h.fresh hp'
    · refine Or.inr ⟨k, hk, ?_⟩
      by_contra hb
      rw [Bool.not_eq_false] at hb
      exact absurd (hfree.symm.trans (h.held hb)) (by simp)
  count := by
    have h1 := missing_union (G := G) h
    have h2 := h.count
    have h3 := h'.count
    omega
  held hk := h'.held (h.held hk)

lemma missing_mono (hFG : F ⊆ G) : (missing T F).card ≤ (missing T G).card :=
  Finset.card_le_card (Finset.filter_subset_filter _ hFG)

lemma Shape.grows (h : Shape m' T) (hF : ∀ p ∈ F, T p ≠ none)
    (hbm : m'.pageBitmap = m.pageBitmap) : Grows m T m' T F 0 where
  shape := h
  old := id
  only _ := rfl
  filled hp := hF _ hp
  fresh := Or.inl
  count := by
    have : missing T F = ∅ := Finset.filter_eq_empty_iff.mpr fun p hp => hF p hp
    rw [this, Finset.card_empty, freeFrames_congr hbm]
    simp
  held hk := hbm ▸ hk

lemma TableAdded.grows {k : ℕ} (ha : TableAdded m m' T p t i k) (h : Shape m T)
    (hnew : p.length < 2 → ∀ j < 512, entry m' (frameAddr k) j = 0) :
    Grows m T m' (insert T (i :: p) (frameAddr k)) {i :: p} 0 where
  shape := ha.shape h hnew
  old hq := insert_of_some ha.absent hq
  only hq := insert_of_ne (by simpa using hq)
  filled hq := by
    rw [Finset.mem_singleton.mp hq, insert_self]
    simp
  fresh hq := by
    rcases insert_cases hq with ⟨-, rfl⟩ | ⟨-, hTq⟩
    · exact Or.inr ⟨k, rfl, ha.free⟩
    · exact Or.inl hTq
  count := by
    have : missing T {i :: p} = {i :: p} := by
      rw [missing, Finset.filter_singleton, if_pos ha.absent]
    rw [this, Finset.card_singleton]
    exact ha.freeFrames.ge
  held hk := by
    rw [ha.bitmap]
    simp [hk]

lemma pos_of_missing (hnone : T p = none) (hfit : (missing T {p}).card ≤ freeFrames m) :
    0 < freeFrames m := by
  rw [missing, Finset.filter_singleton, if_pos hnone, Finset.card_singleton] at hfit
  exact hfit

/-! ## The levels of `map_page` -/

/-- An entry that is not present gets a table: nothing is translated differently. -/
lemma newTable_grows (h : Shape m T) (hp : T p = some t) (hd : p.length < 3) (hi : i < 512)
    (hnone : T (i :: p) = none) (hfit : (missing T {i :: p}).card ≤ freeFrames m)
    (he : isPresent (entry m t i) = false) :
    ∃ T', Grows m T (newTable m t i) T' {i :: p} 0 ∧ walk (newTable m t i) = walk m := by
  obtain ⟨k, ha, hnew⟩ := newTable_spec h hp hd hi hnone (pos_of_missing hnone hfit)
  refine ⟨_, ha.grows h fun _ => hnew, ha.walk_eq h (fun _ => hnew) fun virt _ => ?_⟩
  rw [hnew _ (idx_lt virt).2.2.2]
  simp [leafPte, hugePte, isPresent_zero, he]

/-- A 2 MB page is split: nothing is translated differently. -/
lemma splitHuge_grows (h : Shape m T) (hp : T p = some t) (hd : p.length = 2) (hi : i < 512)
    (hnone : T (i :: p) = none) (hfit : (missing T {i :: p}).card ≤ freeFrames m)
    (he : Pwu (entry m t i)) :
    ∃ T', Grows m T (splitHuge m t i) T' {i :: p} 0 ∧ walk (splitHuge m t i) = walk m := by
  obtain ⟨k, ha, hnew⟩ := splitHuge_spec h hp (by omega) hi hnone (pos_of_missing hnone hfit)
  have habove : p.length < 2 → ∀ j < 512, entry (splitHuge m t i) (frameAddr k) j = 0 :=
    fun hlt => absurd hd hlt.ne
  refine ⟨_, ha.grows h habove, ha.walk_eq h habove fun virt _ => ?_⟩
  obtain ⟨hp', hw', hu'⟩ := he
  have hidx : virt % 0x200000 / 4096 = ptIdx virt := by
    unfold ptIdx
    omega
  obtain ⟨f, hf⟩ : ∃ f, f = entry m t i / 0x200000 * 0x200000 := ⟨_, rfl⟩
  obtain ⟨hp'', hw'', hu'', -, hf''⟩ := tableEntry (t := f + ptIdx virt * 4096) (by omega)
  rw [hnew _ (idx_lt virt).2.2.2, ← hf]
  simp [leafPte, hugePte, hp', hw', hu', ← hf, hp'', hw'', hu'', hf'', hidx]

lemma ensurePdpt_spec (h : Shape m T) (hfit : (missing T {path1 virt}).card ≤ freeFrames m) :
    ∃ T', Grows m T (ensurePdpt m virt) T' {path1 virt} 0 ∧ walk (ensurePdpt m virt) = walk m := by
  unfold ensurePdpt
  cases h1 : T (path1 virt) with
  | some t1 =>
    rw [if_pos (h.entry_root h1).1.1]
    exact ⟨T, h.grows (by simp [h1]) rfl, rfl⟩
  | none =>
    have he := h.entry_root_none h1
    rw [if_neg (by simp [he])]
    exact newTable_grows h h.root (by simp) (idx_lt virt).1 h1 hfit he

lemma Shape.pdptOf_eq (h : Shape m T) (h1 : T (path1 virt) = some t) : pdptOf m virt = t := by
  rw [pdptOf, (h.entry_root h1).2.2]

lemma Shape.pdOf_eq (h : Shape m T) (h2 : T (path2 virt) = some t) : pdOf m virt = t := by
  obtain ⟨t1, h1⟩ := h.tree.parent h2
  rw [pdOf, h.pdptOf_eq h1, (h.child h1 h2).2.2]

lemma Shape.ptOf_eq (h : Shape m T) (h3 : T (path3 virt) = some t) : ptOf m virt = t := by
  obtain ⟨t2, h2⟩ := h.tree.parent h3
  rw [ptOf, h.pdOf_eq h2, (h.child h2 h3).2.2]

lemma ensurePd_spec {t1 : ℕ} (h : Shape m T) (h1 : T (path1 virt) = some t1)
    (hfit : (missing T {path2 virt}).card ≤ freeFrames m) :
    ∃ T', Grows m T (ensurePd m virt) T' {path2 virt} 0 ∧ walk (ensurePd m virt) = walk m := by
  unfold ensurePd
  rw [h.pdptOf_eq h1]
  cases h2 : T (path2 virt) with
  | some t2 =>
    rw [if_pos (h.child h1 h2).1.1]
    exact ⟨T, h.grows (by simp [h2]) rfl, rfl⟩
  | none =>
    have he := h.entry_pdpt_none h1 h2
    rw [if_neg (by simp [he])]
    exact newTable_grows h h1 (by simp [path1]) (idx_lt virt).2.1 h2 hfit he

lemma ensurePt_spec {t2 : ℕ} (h : Shape m T) (h2 : T (path2 virt) = some t2)
    (hfit : (missing T {path3 virt}).card ≤ freeFrames m) :
    ∃ T', Grows m T (ensurePt m virt) T' {path3 virt} 0 ∧ walk (ensurePt m virt) = walk m := by
  unfold ensurePt
  rw [h.pdOf_eq h2]
  dsimp only
  cases h3 : T (path3 virt) with
  | some t3 =>
    obtain ⟨hpwu, hhuge, -⟩ : IsTableEntry t3 (entry m t2 (pdIdx virt)) := h.child h2 h3
    rw [if_neg (by simp [hhuge]), if_pos hpwu.1]
    exact ⟨T, h.grows (by simp [h3]) rfl, rfl⟩
  | none =>
    rcases h.entry_pd_none h2 h3 with ⟨hp, hh⟩ | ⟨hh, hpwu⟩
    · rw [if_neg (by simp [hh]), if_neg (by simp [hp])]
      exact newTable_grows h h2 (by simp [path2, path1]) (idx_lt virt).2.2.1 h3 hfit hp
    · rw [if_pos hh]
      exact splitHuge_grows h h2 (by simp [path2, path1]) (idx_lt virt).2.2.1 h3 hfit hpwu

/-- The tables on the way to `virt`. -/
def tablesOf (virt : ℕ) : Finset (List ℕ) := {path1 virt} ∪ {path2 virt} ∪ {path3 virt}

lemma card_tablesOf_le (virt : ℕ) : (tablesOf virt).card ≤ 3 := by
  unfold tablesOf
  refine (Finset.card_union_le _ _).trans (Nat.add_le_add (Finset.card_union_le _ _) le_rfl)

lemma missing_card_le (T : List ℕ → Option ℕ) (F : Finset (List ℕ)) :
    (missing T F).card ≤ F.card := Finset.card_filter_le F _

lemma path3_mem_tablesOf (virt : ℕ) : path3 virt ∈ tablesOf virt := by simp [tablesOf]

/-- The three levels together, when each has a frame for the table it misses. -/
lemma ensureTables_levels (h : Shape m T)
    (hfit1 : (missing T {path1 virt}).card ≤ freeFrames m)
    (hfit2 : ∀ T', Grows m T (ensurePdpt m virt) T' {path1 virt} 0 →
      (missing T' {path2 virt}).card ≤ freeFrames (ensurePdpt m virt))
    (hfit3 : ∀ T', Grows m T (ensurePd (ensurePdpt m virt) virt) T'
        ({path1 virt} ∪ {path2 virt}) 0 →
      (missing T' {path3 virt}).card ≤ freeFrames (ensurePd (ensurePdpt m virt) virt)) :
    ∃ T', Grows m T (ensureTables m virt) T' (tablesOf virt) 0 ∧
      walk (ensureTables m virt) = walk m := by
  obtain ⟨T1, hg1, hw1⟩ := ensurePdpt_spec h hfit1
  obtain ⟨t1, ht1⟩ := Option.ne_none_iff_exists'.mp (hg1.filled (Finset.mem_singleton_self _))
  obtain ⟨T2, hg2, hw2⟩ := ensurePd_spec hg1.shape ht1 (hfit2 T1 hg1)
  obtain ⟨t2, ht2⟩ := Option.ne_none_iff_exists'.mp (hg2.filled (Finset.mem_singleton_self _))
  obtain ⟨T3, hg3, hw3⟩ := ensurePt_spec hg2.shape ht2 (hfit3 T2 (hg1.trans hg2))
  exact ⟨T3, (hg1.trans hg2).trans hg3, hw3.trans (hw2.trans hw1)⟩

lemma ensureTables_spec (h : Shape m T) (hfit : (missing T (tablesOf virt)).card ≤ freeFrames m) :
    ∃ T', Grows m T (ensureTables m virt) T' (tablesOf virt) 0 ∧
      walk (ensureTables m virt) = walk m := by
  have hfit12 : (missing T ({path1 virt} ∪ {path2 virt})).card ≤ freeFrames m :=
    (missing_mono Finset.subset_union_left).trans hfit
  exact ensureTables_levels h ((missing_mono Finset.subset_union_left).trans hfit12)
    (fun _ hg => hg.fits_tables hfit12) fun _ hg => hg.fits_tables hfit

/-- Every `alloc_page` call of `map_page(virt, ...)` returns a frame. -/
def AllocsSucceed (m : Mem) (virt : ℕ) : Prop :=
  let m1 := ensurePdpt m virt
  let m2 := ensurePd m1 virt
  (isPresent (entry m m.kernelPml4 (pml4Idx virt)) = false → (allocPage m).1 ≠ none) ∧
  (isPresent (entry m1 (pdptOf m1 virt) (pdptIdx virt)) = false → (allocPage m1).1 ≠ none) ∧
  (isHuge (entry m2 (pdOf m2 virt) (pdIdx virt)) = true ∨
    isPresent (entry m2 (pdOf m2 virt) (pdIdx virt)) = false → (allocPage m2).1 ≠ none)

lemma freeFrames_pos_of_allocPage (h : (allocPage m).1 ≠ none) : 0 < freeFrames m := by
  rcases ha : allocPage m with ⟨_ | a, m'⟩
  · rw [ha] at h
    exact absurd rfl h
  · have := freeFrames_allocPages (by decide) (show allocPages m 1 = (some a, m') from ha)
    omega

/-- Three frames are enough for all calls of `alloc_page`. -/
lemma allocsSucceed_of_free (h : Shape m T) (hfree : 3 ≤ freeFrames m) : AllocsSucceed m virt := by
  have hpos : ∀ {m : Mem}, 0 < freeFrames m → (allocPage m).1 ≠ none := by
    intro m hm
    obtain ⟨a, m', ha⟩ := allocPage_isSome hm
    simp [ha]
  have hone : ∀ (T : List ℕ → Option ℕ) (p : List ℕ), (missing T {p}).card ≤ 1 :=
    fun T p => (missing_card_le T {p}).trans (Finset.card_singleton p).le
  obtain ⟨T1, hg1, -⟩ := ensurePdpt_spec h ((hone T (path1 virt)).trans (by omega))
  obtain ⟨t1, ht1⟩ := Option.ne_none_iff_exists'.mp (hg1.filled (Finset.mem_singleton_self _))
  have hcount1 := hg1.count
  have hone1 := hone T (path1 virt)
  have hone2 := hone T1 (path2 virt)
  obtain ⟨T2, hg2, -⟩ := ensurePd_spec hg1.shape ht1 (hone2.trans (by omega))
  have hcount2 := hg2.count
  exact ⟨fun _ => hpos (by omega), fun _ => hpos (by omega), fun _ => hpos (by omega)⟩

lemma missing_singleton_le (h : T p = none → 0 < freeFrames m) :
    (missing T {p}).card ≤ freeFrames m := by
  by_cases hp : T p = none
  · rw [missing, Finset.filter_singleton, if_pos hp, Finset.card_singleton]
    exact h hp
  · rw [missing, Finset.filter_singleton, if_neg hp, Finset.card_empty]
    exact Nat.zero_le _

lemma ensureTables_of_allocs (h : Shape m T) (ha : AllocsSucceed m virt) :
    ∃ T', Grows m T (ensureTables m virt) T' (tablesOf virt) 0 ∧
      walk (ensureTables m virt) = walk m := by
  obtain ⟨ha1, ha2, ha3⟩ := ha
  refine ensureTables_levels h ?_ ?_ ?_
  · exact missing_singleton_le fun h1 =>
      freeFrames_pos_of_allocPage (ha1 (h.entry_root_none h1))
  · intro T1 hg1
    obtain ⟨t1, ht1⟩ := Option.ne_none_iff_exists'.mp (hg1.filled (Finset.mem_singleton_self _))
    refine missing_singleton_le fun h2 => freeFrames_pos_of_allocPage (ha2 ?_)
    rw [hg1.shape.pdptOf_eq ht1]
    exact hg1.shape.entry_pdpt_none ht1 h2
  · intro T2 hg2
    obtain ⟨t2, ht2⟩ := Option.ne_none_iff_exists'.mp
      (hg2.filled (Finset.mem_union_right _ (Finset.mem_singleton_self (path2 virt))))
    refine missing_singleton_le fun h3 => freeFrames_pos_of_allocPage (ha3 ?_)
    rw [hg2.shape.pdOf_eq ht2]
    rcases hg2.shape.entry_pd_none ht2 h3 with ⟨hp, -⟩ | ⟨hh, -⟩
    · exact Or.inr hp
    · exact Or.inl hh

/-! ## Entries of page tables -/

/-- Writing an entry of a page table keeps the tree and changes one page. -/
lemma Shape.setLeaf (h : Shape m T) (h3 : T (path3 virt) = some t) (e : ℕ) :
    Shape (setEntry m t (ptIdx virt) e) T ∧
      ∀ v, walk (setEntry m t (ptIdx virt) e) v =
        if pageKey v = pageKey virt then leafPte (e % 2 ^ 64) else walk m v := by
  have ht := h.aligned h3
  have hother : ∀ q s j, T q = some s → j < 512 → (q = path3 virt → j ≠ ptIdx virt) →
      entry (setEntry m t (ptIdx virt) e) s j = entry m s j := fun q s j hq hj hne =>
    entry_setEntry_of_ne ht (h.aligned hq) (idx_lt virt).2.2.2 hj
      (fun hst => hne (h.tree.inj hq (hst ▸ h3))) e
  have hshort : ∀ {q : List ℕ}, q.length < 3 → q ≠ path3 virt := by
    rintro q hq rfl
    simp [path3, path2, path1] at hq
  have hs : Shape (setEntry m t (ptIdx virt) e) T :=
    h.of_entries rfl (fun q s j hq hl hj => hother q s j hq hj fun he => absurd he (hshort hl))
      fun _ _ hq => h.held hq
  refine ⟨hs, fun v => ?_⟩
  rw [hs.walk_eq, h.walk_eq]
  unfold walkTree
  by_cases hkey : pageKey v = pageKey virt
  · obtain ⟨hp, hidx⟩ := pageKey_eq_iff.mp hkey
    rw [if_pos hkey, hp, h3, hidx]
    dsimp only
    rw [entry_setEntry_self]
  · rw [if_neg hkey]
    cases hv3 : T (path3 v) with
    | some s =>
      dsimp only
      rw [hother _ _ _ hv3 (idx_lt v).2.2.2 fun hp hidx => hkey (pageKey_eq_iff.mpr ⟨hp, hidx⟩)]
    | none =>
      dsimp only
      cases hv2 : T (path2 v) with
      | none => rfl
      | some s =>
        dsimp only
        rw [hother _ _ _ hv2 (idx_lt v).2.2.1
          fun he => absurd he (hshort (by simp [path2, path1]))]

lemma frameOf_lor_mod {phys flags : ℕ} (hphys : phys < 2 ^ 64) (hflags : flags < 4096) :
    (frameOf phys ||| flags) % 2 ^ 64 = frameOf phys + flags := by
  rw [lor_eq_add (by unfold frameOf; omega) hflags]
  unfold frameOf
  omega

lemma mapPage_of_tables (phys flags : ℕ)
    (hg : Grows m T (ensureTables m virt) T' (tablesOf virt) 0)
    (hw : walk (ensureTables m virt) = walk m) :
    Grows m T (mapPage m virt phys flags) T' (tablesOf virt) 0 ∧
      ∀ v, walk (mapPage m virt phys flags) v =
        if pageKey v = pageKey virt then leafPte ((frameOf phys ||| flags) % 2 ^ 64)
        else walk m v := by
  obtain ⟨t, ht⟩ := Option.ne_none_iff_exists'.mp (hg.filled (path3_mem_tablesOf virt))
  obtain ⟨hs, hwalk⟩ := hg.shape.setLeaf ht (frameOf phys ||| flags)
  have hm : mapPage m virt phys flags =
      setEntry (ensureTables m virt) t (ptIdx virt) (frameOf phys ||| flags) := by
    rw [mapPage, hg.shape.ptOf_eq ht, frameOf]
  rw [hm]
  constructor
  · have := hg.trans (hs.grows (F := ∅) (by simp) (setEntry_pageBitmap ..))
    rwa [Finset.union_empty] at this
  · intro v
    rw [hwalk, hw]

/-- **`map_page`** changes the translation of its own page only, as long as there are frames
for the tables it misses. -/
theorem mapPage_spec (h : Shape m T) (virt phys flags : ℕ)
    (hfit : (missing T (tablesOf virt)).card ≤ freeFrames m) (hphys : phys < 2 ^ 64)
    (hflags : flags < 4096) :
    ∃ T', Grows m T (mapPage m virt phys flags) T' (tablesOf virt) 0 ∧
      ∀ v, walk (mapPage m virt phys flags) v =
        if pageKey v = pageKey virt then leafPte (frameOf phys + flags) else walk m v := by
  obtain ⟨T', hg, hw⟩ := ensureTables_spec h hfit
  have := mapPage_of_tables phys flags hg hw
  rw [frameOf_lor_mod hphys hflags] at this
  exact ⟨T', this⟩

/-- The entry `map_page` writes maps the frame of `phys` with the rights of `flags`; flags have
no bits of the frame's address. -/
lemma leafPte_lor {phys flags : ℕ} (hphys : phys < 2 ^ 64) (hflags : flags < 4096)
    (hpres : isPresent flags = true) :
    leafPte ((frameOf phys ||| flags) % 2 ^ 64) =
      some ⟨frameOf phys, isWritable flags, isUser flags⟩ := by
  have hframe : frameOf (frameOf phys + flags) = frameOf phys := by
    unfold frameOf
    omega
  have hp : isPresent (frameOf phys + flags) = true := by
    rw [isPresent_eq, decide_eq_true_eq] at hpres ⊢
    unfold frameOf
    omega
  have hw : isWritable (frameOf phys + flags) = isWritable flags := by
    rw [isWritable_eq, isWritable_eq, decide_eq_decide]
    unfold frameOf
    omega
  have hu : isUser (frameOf phys + flags) = isUser flags := by
    rw [isUser_eq, isUser_eq, decide_eq_decide]
    unfold frameOf
    omega
  rw [frameOf_lor_mod hphys hflags, leafPte, if_pos hp, hframe, hw, hu]

end Bangos.Mm
