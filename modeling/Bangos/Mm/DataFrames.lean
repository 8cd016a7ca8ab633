import Bangos.Mm.UserPages

/-!
# The contents of pages that are neither free frames nor tables

`map_page` writes into page tables, old ones and new ones, and a new one is a frame that was free.
So every other page of physical memory keeps its contents, however many pages are mapped: the
frames that are given out and are no tables, and the memory outside the pool.  An allocation
clears frames that were free, and keeps the others.
-/

namespace Bangos.Mm

open ByteMem

variable {m m' m'' : Mem} {T T' : List ℕ → Option ℕ} {F : Finset (List ℕ)} {p : List ℕ}
  {t i k b v virt phys flags n : ℕ}

/-- The page at `b` has the same contents. -/
def KeepsPage (m m' : Mem) (b : ℕ) : Prop := ∀ x, b ≤ x → x < b + 4096 → m'.phys x = m.phys x

/-- The page at `b` is no free frame. -/
structure Unfree (m : Mem) (b : ℕ) : Prop where
  aligned : b % 4096 = 0
  taken : ∀ k < maxPages, b = frameAddr k → m.pageBitmap k = true

/-- The page at `b` is out of the reach of the allocator and of `map_page`: it is no free frame and
no table. -/
structure OutOfReach (m : Mem) (T : List ℕ → Option ℕ) (b : ℕ) : Prop extends Unfree m b where
  noTable : ∀ p, T p ≠ some b

lemma Data.outOfReach (h : Data m T k) : OutOfReach m T (frameAddr k) where
  aligned := frameAddr_mod k
  taken j _ he := by
    rw [← frameAddr_inj he]
    exact h.1
  noTable := h.2

/-- The memory below the pool is out of reach. -/
lemma Shape.outOfReach_low (h : Shape m T) (ha : b % 4096 = 0) (hb : b < physMemoryBase) : OutOfReach m T b where
  aligned := ha
  taken k _ he := by
    unfold frameAddr at he
    omega
  noTable p hp := by
    obtain ⟨x, -, hx, -⟩ := h.held hp
    unfold frameAddr at hx
    omega

lemma Grows.outOfReach (h : Grows m T m' T' F n) (hb : OutOfReach m T b) : OutOfReach m' T' b where
  aligned := hb.aligned
  taken k hk he := h.held (hb.taken k hk he)
  noTable p hp := by
    rcases h.fresh hp with hold | ⟨x, hx, hfree⟩
    · exact hb.noTable p hold
    · obtain ⟨y, hy, he, -⟩ := h.shape.held hp
      obtain rfl := frameAddr_inj (hx.symm.trans he)
      exact absurd (hfree.symm.trans (hb.taken x hy hx)) (by simp)

lemma KeepsPage.refl (m : Mem) (b : ℕ) : KeepsPage m m b := fun _ _ _ => rfl

lemma KeepsPage.trans (h : KeepsPage m m' b) (h' : KeepsPage m' m'' b) : KeepsPage m m'' b :=
  fun x h1 h2 => (h' x h1 h2).trans (h x h1 h2)

lemma setEntry_keepsPage (hb : b % 4096 = 0) (ht : t % 4096 = 0) (hi : i < 512) (hne : t ≠ b) :
    KeepsPage m (setEntry m t i v) b :=
  fun x h1 h2 => putLe_apply_of_not_mem (by omega)

/-- Frames that were free do not meet a page that was not. -/
lemma Unfree.apart {count : ℕ} (h : Unfree m b) (hi : i + count ≤ maxPages)
    (hrun : FreeRun m.pageBitmap i count) :
    b + 4096 ≤ frameAddr i ∨ frameAddr i + count * pageSize ≤ b := by
  by_contra hover
  have ha := h.aligned
  unfold frameAddr physMemoryBase pageSize at hover
  have hk : b = frameAddr ((b - physMemoryBase) / pageSize) := by
    unfold frameAddr physMemoryBase pageSize
    omega
  have htaken := h.taken _ (by unfold physMemoryBase pageSize; omega) hk
  have hfree := hrun ((b - physMemoryBase) / pageSize) (by unfold physMemoryBase pageSize; omega)
    (by unfold physMemoryBase pageSize; omega)
  exact absurd (hfree.symm.trans htaken) (by simp)

/-- An allocation keeps the pages that are not free. -/
lemma allocPages_keepsPage {count : ℕ} {r : Option ℕ} (hc : count ≤ maxPages)
    (ha : allocPages m count = (r, m')) (hb : Unfree m b) : KeepsPage m m' b := by
  cases r with
  | none =>
    rw [allocPages_eq_none ha]
    exact KeepsPage.refl m b
  | some a =>
    obtain ⟨i, -, hi, hrun, -, rfl⟩ := allocPages_eq_some hc ha
    have hapart := hb.apart hi hrun
    exact fun x h1 h2 => fill_apply_of_not_mem (by omega)

lemma allocPage_keepsPage (hb : Unfree m b) : KeepsPage m (allocPage m).2 b :=
  allocPages_keepsPage (show 1 ≤ maxPages by decide) rfl hb

lemma newTable_keepsPage (ht : t % 4096 = 0) (hi : i < 512) (hne : t ≠ b)
    (hfree : 0 < freeFrames m) (hb : Unfree m b) : KeepsPage m (newTable m t i) b := by
  obtain ⟨j, -, -, halloc⟩ := allocPage_spec hfree
  rw [newTable_eq hfree (congrArg Prod.fst halloc)]
  exact (allocPage_keepsPage hb).trans (setEntry_keepsPage hb.aligned ht hi hne)

lemma fillSplitUpTo_keepsPage {new huge : ℕ} (hb : b % 4096 = 0) (hnew : new % 4096 = 0)
    (hne : new ≠ b) (hn : n ≤ 512) : KeepsPage m (fillSplitUpTo m new huge n) b := by
  induction n with
  | zero => exact KeepsPage.refl m b
  | succ n ih =>
    rw [fillSplitUpTo_succ]
    exact (ih (by omega)).trans (setEntry_keepsPage hb hnew (by omega) hne)

lemma splitHuge_keepsPage (ht : t % 4096 = 0) (hi : i < 512) (hne : t ≠ b)
    (hfree : 0 < freeFrames m) (hb : Unfree m b) : KeepsPage m (splitHuge m t i) b := by
  obtain ⟨j, hj, hbit, halloc⟩ := allocPage_spec hfree
  have hbj : frameAddr j ≠ b := fun he =>
    absurd (hbit.symm.trans (hb.taken j hj he.symm)) (by simp)
  have h1 := allocPage_keepsPage hb
  unfold splitHuge
  rw [halloc] at h1 ⊢
  dsimp only [Option.getD_some]
  refine (h1.trans ?_).trans (setEntry_keepsPage hb.aligned ht hi hne)
  exact fillSplitUpTo_keepsPage hb.aligned (frameAddr_mod j) hbj le_rfl

lemma OutOfReach.ne_table (hb : OutOfReach m T b) (hp : T p = some t) : t ≠ b :=
  fun he => hb.noTable p (he ▸ hp)

section Levels

variable (h : Shape m T) (hb : OutOfReach m T b)
include h hb

lemma ensurePdpt_keepsPage (hfit : (missing T {path1 virt}).card ≤ freeFrames m) :
    KeepsPage m (ensurePdpt m virt) b := by
  unfold ensurePdpt
  split_ifs with hpres
  · exact KeepsPage.refl m b
  · have hnone : T (path1 virt) = none := by
      cases h1 : T (path1 virt) with
      | none => rfl
      | some t1 => exact absurd (h.entry_root h1).1.1 hpres
    exact newTable_keepsPage (h.aligned h.root) (idx_lt virt).1 (hb.ne_table h.root)
      (pos_of_missing hnone hfit) hb.toUnfree

lemma ensurePd_keepsPage (h1 : T (path1 virt) = some t)
    (hfit : (missing T {path2 virt}).card ≤ freeFrames m) : KeepsPage m (ensurePd m virt) b := by
  unfold ensurePd
  rw [h.pdptOf_eq h1]
  split_ifs with hpres
  · exact KeepsPage.refl m b
  · have hnone : T (path2 virt) = none := by
      cases h2 : T (path2 virt) with
      | none => rfl
      | some t2 => exact absurd (h.child h1 h2).1.1 hpres
    exact newTable_keepsPage (h.aligned h1) (idx_lt virt).2.1 (hb.ne_table h1)
      (pos_of_missing hnone hfit) hb.toUnfree

lemma ensurePt_keepsPage (h2 : T (path2 virt) = some t)
    (hfit : (missing T {path3 virt}).card ≤ freeFrames m) : KeepsPage m (ensurePt m virt) b := by
  have hne := hb.ne_table h2
  have hi := (idx_lt virt).2.2.1
  have hnone : isHuge (entry m t (pdIdx virt)) = true ∨ isPresent (entry m t (pdIdx virt)) ≠ true →
      T (path3 virt) = none := by
    intro hor
    cases h3 : T (path3 virt) with
    | none => rfl
    | some t3 =>
      obtain ⟨hpwu, hhuge, -⟩ := h.child h2 h3
      rcases hor with hh | hp
      · exact absurd (hhuge.symm.trans hh) (by simp)
      · exact absurd hpwu.1 hp
  unfold ensurePt
  rw [h.pdOf_eq h2]
  dsimp only
  split_ifs with hhuge hpres
  · exact splitHuge_keepsPage (h.aligned h2) hi hne (pos_of_missing (hnone (Or.inl hhuge)) hfit) hb.toUnfree
  · exact KeepsPage.refl m b
  · exact newTable_keepsPage (h.aligned h2) hi hne (pos_of_missing (hnone (Or.inr hpres)) hfit) hb.toUnfree

/-- **`map_page` keeps the contents of pages out of its reach.** -/
lemma mapPage_keepsPage (hfit : (missing T (tablesOf virt)).card ≤ freeFrames m) :
    KeepsPage m (mapPage m virt phys flags) b := by
  have hfit12 : (missing T ({path1 virt} ∪ {path2 virt})).card ≤ freeFrames m :=
    (missing_mono Finset.subset_union_left).trans hfit
  have hfit1 : (missing T {path1 virt}).card ≤ freeFrames m :=
    (missing_mono Finset.subset_union_left).trans hfit12
  obtain ⟨T1, hg1, -⟩ := ensurePdpt_spec h hfit1
  obtain ⟨t1, ht1⟩ := Option.ne_none_iff_exists'.mp (hg1.filled (Finset.mem_singleton_self _))
  have hfit2 : (missing T1 {path2 virt}).card ≤ freeFrames (ensurePdpt m virt) :=
    hg1.fits_tables hfit12
  obtain ⟨T2, hg2, -⟩ := ensurePd_spec hg1.shape ht1 hfit2
  obtain ⟨t2, ht2⟩ := Option.ne_none_iff_exists'.mp (hg2.filled (Finset.mem_singleton_self _))
  have hfit3 : (missing T2 {path3 virt}).card ≤ freeFrames (ensurePd (ensurePdpt m virt) virt) :=
    (hg1.trans hg2).fits_tables hfit
  obtain ⟨T3, hg3, -⟩ := ensurePt_spec hg2.shape ht2 hfit3
  obtain ⟨t3, ht3⟩ := Option.ne_none_iff_exists'.mp (hg3.filled (Finset.mem_singleton_self _))
  have hb1 := hg1.outOfReach hb
  have hb2 := hg2.outOfReach hb1
  have hb3 := hg3.outOfReach hb2
  have hlevels : KeepsPage m (ensureTables m virt) b :=
    ((ensurePdpt_keepsPage h hb hfit1).trans
      (ensurePd_keepsPage hg1.shape hb1 ht1 hfit2)).trans
      (ensurePt_keepsPage hg2.shape hb2 ht2 hfit3)
  unfold mapPage
  dsimp only
  have hpt : ptOf (ensureTables m virt) virt = t3 := hg3.shape.ptOf_eq ht3
  rw [hpt]
  exact hlevels.trans (setEntry_keepsPage hb.aligned (hg3.shape.aligned ht3) (idx_lt virt).2.2.2
    (hb3.ne_table ht3))

/-- **`map_user_pages`** keeps them too. -/
lemma mapUserPages_keepsPage (hfit : (missing T (userTables virt n)).card ≤ freeFrames m) :
    KeepsPage m (mapUserPages m virt phys n) b := by
  induction n with
  | zero => exact KeepsPage.refl m b
  | succ n ih =>
    have hfit' := (missing_mono Finset.subset_union_left).trans hfit
    obtain ⟨T1, hg1, -⟩ := mapUserPages_spec h virt phys n hfit'
    exact (ih hfit').trans (mapPage_keepsPage hg1.shape (hg1.outOfReach hb) (hg1.fits_tables hfit))

end Levels

end Bangos.Mm
