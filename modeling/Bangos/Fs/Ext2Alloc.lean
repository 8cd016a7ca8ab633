import Bangos.Fs.Ext2Disk

/-!
# Allocating blocks and inodes

`ext2_alloc_block` and `ext2_alloc_inode` are one loop over two kinds of bitmap.  On a working
volume it takes the first clear bit of the first group that claims to have one, or changes
nothing.
-/

namespace Bangos.Fs

open ByteMem Bangos.Drivers Bangos.Mm

variable {fs : Ext2} {n k ino bg g b : ℕ} {kind : BitmapKind}

/-- Where the bitmap stands among the metadata blocks of its group. -/
def BitmapKind.slot : BitmapKind → ℕ
  | .block => 0
  | .inode => 1

lemma bitmapBlock_eq (fs : Ext2) (g : ℕ) (kind : BitmapKind) :
    (fs.bgds g).bitmapBlock kind = fs.layout.metaBlock g kind.slot := by
  cases kind <;> rfl

lemma isMeta_slot (hg : g < fs.groupCount) : fs.layout.IsMeta g kind.slot := by
  refine ⟨hg, ?_⟩
  cases kind with
  | block => exact Nat.lt_of_lt_of_le Nat.zero_lt_two (Nat.le_add_right _ _)
  | inode => exact Nat.lt_of_lt_of_le Nat.one_lt_two (Nat.le_add_right _ _)

lemma BitmapKind.slot_lt (kind : BitmapKind) : kind.slot < 2 := by
  cases kind <;> decide

/-- The geometry that allocation relies on: a bitmap fits in its block, the bitmap blocks lie on
the disk and are distinct, and the numbers of blocks and inodes fit in a `uint32_t`. -/
structure Layout.Allocates (l : Layout) : Prop where
  serves : l.Serves
  blockSize_le : l.blockSize ≤ 4096
  inodesPerGroup : l.inodesPerGroup ≤ 8 * l.blockSize
  blocksPerGroup : l.blocksPerGroup ≤ 8 * l.blockSize
  inodes_fit : l.groupCount * l.inodesPerGroup < 2 ^ 32
  blocks_fit : l.groupCount * l.blocksPerGroup + l.firstDataBlock ≤ 2 ^ 32
  onDisk : ∀ {g s}, g < l.groupCount → s < 2 → l.OnDisk (l.metaBlock g s)
  bitmap_inj : ∀ {g s g' s'}, g < l.groupCount → s < 2 → g' < l.groupCount → s' < 2 →
    l.metaBlock g s = l.metaBlock g' s' → g = g' ∧ s = s'

lemma Layout.Valid.allocates {l : Layout} (h : l.Valid) : l.Allocates where
  serves := h.serves
  blockSize_le := by rw [h.blockSize]; norm_num
  inodesPerGroup := h.inodesPerGroup
  blocksPerGroup := h.blocksPerGroup
  inodes_fit := h.inodes_fit
  blocks_fit := h.blocks_fit.le
  onDisk hg hs := h.onDisk ⟨hg, Nat.lt_of_lt_of_le hs (Nat.le_add_right _ _)⟩
  bitmap_inj hg hs hg' hs' := h.meta_inj ⟨hg, Nat.lt_of_lt_of_le hs (Nat.le_add_right _ _)⟩
    ⟨hg', Nat.lt_of_lt_of_le hs' (Nat.le_add_right _ _)⟩

/-- The bit of an entry on the disk. -/
def entryBit (fs : Ext2) (kind : BitmapKind) (g b : ℕ) : Bool :=
  bitAt (diskBlock fs ((fs.bgds g).bitmapBlock kind)) b

/-- The group has nothing left to give: its counter is 0, or no bit is clear. -/
def Full (fs : Ext2) (kind : BitmapKind) (g : ℕ) : Prop :=
  (fs.bgds g).freeCount kind = 0 ∨ ∀ b < fs.sb.perGroup kind, entryBit fs kind g b = true

/-- The volume after bit `b` of group `g` has been taken. -/
def Ext2.take (fs : Ext2) (kind : BitmapKind) (g b : ℕ) : Ext2 :=
  (fs.putBlock ((fs.bgds g).bitmapBlock kind)
    (setBitAt (diskBlock fs ((fs.bgds g).bitmapBlock kind)) b)).countTaken g kind

@[simp] lemma countTaken_dev (fs : Ext2) (g : ℕ) (kind : BitmapKind) :
    (fs.countTaken g kind).dev = fs.dev := by
  cases kind <;> simp only [Ext2.countTaken]

@[simp] lemma countTaken_blockSize (fs : Ext2) (g : ℕ) (kind : BitmapKind) :
    (fs.countTaken g kind).blockSize = fs.blockSize := by
  cases kind <;> simp only [Ext2.countTaken]

@[simp] lemma countTaken_pool (fs : Ext2) (g : ℕ) (kind : BitmapKind) :
    (fs.countTaken g kind).pool = fs.pool := by
  cases kind <;> simp only [Ext2.countTaken]

@[simp] lemma countTaken_poolCount (fs : Ext2) (g : ℕ) (kind : BitmapKind) :
    (fs.countTaken g kind).poolCount = fs.poolCount := by
  cases kind <;> simp only [Ext2.countTaken]

lemma field_update {α : Type} (f : GroupDesc → α) {bgds : ℕ → GroupDesc} {d : GroupDesc}
    (h : f d = f (bgds g)) (x : ℕ) : f (Function.update bgds g d x) = f (bgds x) := by
  by_cases hx : x = g
  · rw [hx, Function.update_self, h]
  · rw [Function.update_of_ne hx]

@[simp] lemma countTaken_layout (fs : Ext2) (g : ℕ) (kind : BitmapKind) :
    (fs.countTaken g kind).layout = fs.layout := by
  cases kind
  all_goals
    unfold Ext2.layout
    simp only [Ext2.countTaken, Layout.mk.injEq, true_and]
    refine ⟨funext fun x => ?_, funext fun x => ?_, funext fun x => ?_⟩
    · exact field_update GroupDesc.bgBlockBitmap (by rfl) x
    · exact field_update GroupDesc.bgInodeBitmap (by rfl) x
    · exact field_update GroupDesc.bgInodeTable (by rfl) x

lemma countTaken_diskBlock (fs : Ext2) (g : ℕ) (kind : BitmapKind) (n : ℕ) :
    diskBlock (fs.countTaken g kind) n = diskBlock fs n := by
  rw [diskBlock, countTaken_dev, countTaken_blockSize, diskBlock]

@[simp] lemma take_layout (fs : Ext2) (kind : BitmapKind) (g b : ℕ) :
    (fs.take kind g b).layout = fs.layout := by
  rw [Ext2.take, countTaken_layout, putBlock_layout]

@[simp] lemma take_pool (fs : Ext2) (kind : BitmapKind) (g b : ℕ) :
    (fs.take kind g b).pool = fs.pool := by
  rw [Ext2.take, countTaken_pool, putBlock_pool]

@[simp] lemma take_poolCount (fs : Ext2) (kind : BitmapKind) (g b : ℕ) :
    (fs.take kind g b).poolCount = fs.poolCount := by
  rw [Ext2.take, countTaken_poolCount, putBlock_poolCount]

lemma diskBlock_take_of_ne (h : n ≠ (fs.bgds g).bitmapBlock kind) :
    diskBlock (fs.take kind g b) n = diskBlock fs n := by
  rw [Ext2.take, countTaken_diskBlock, diskBlock_putBlock_of_ne h]

/-- What allocation from `n` groups starting with `bg` gives: nothing is left in them and nothing
changes, or a clear bit of a group that has something is taken. -/
def AllocResult (fs : Ext2) (kind : BitmapKind) (bg n : ℕ) (r : ℕ × Ext2) : Prop :=
  (r = (0, fs) ∧ ∀ g, bg ≤ g → g < bg + n → Full fs kind g) ∨
    ∃ g b, bg ≤ g ∧ g < bg + n ∧ b < fs.sb.perGroup kind ∧ (fs.bgds g).freeCount kind ≠ 0 ∧
      entryBit fs kind g b = false ∧ r = (fs.sb.entryOf g b kind, fs.take kind g b)

lemma AllocResult.skip {r : ℕ × Ext2} (hfull : Full fs kind bg)
    (h : AllocResult fs kind (bg + 1) n r) : AllocResult fs kind bg (n + 1) r := by
  rcases h with ⟨h0, hall⟩ | ⟨g, b, h1, h2, h3⟩
  · refine Or.inl ⟨h0, fun g h1 h2 => ?_⟩
    rcases Nat.eq_or_lt_of_le h1 with rfl | hlt
    · exact hfull
    · exact hall g hlt (by omega)
  · exact Or.inr ⟨g, b, by omega, by omega, h3⟩

/-- **Allocation** on a working volume. -/
theorem allocLoop_result (hv : fs.layout.Allocates) (kind : BitmapKind) (n bg : ℕ)
    (hn : bg + n ≤ fs.groupCount) : AllocResult fs kind bg n (allocLoop kind n bg fs) := by
  induction n generalizing bg with
  | zero => exact Or.inl ⟨rfl, fun g h1 h2 => absurd h1 (by omega)⟩
  | succ n ih =>
    have hon : fs.layout.OnDisk ((fs.bgds bg).bitmapBlock kind) := by
      rw [bitmapBlock_eq]
      exact hv.onDisk (show bg < fs.groupCount by omega) kind.slot_lt
    have hrest := ih (bg + 1) (by omega)
    rw [allocLoop]
    split_ifs with h0
    · exact hrest.skip (Or.inl h0)
    rw [ext2ReadBlock_eq hv.serves hon, copy_zeros_diskBlock]
    dsimp only
    split
    · rename_i hfind
      refine hrest.skip (Or.inr fun b hb => ?_)
      have := List.find?_eq_none.mp hfind b (List.mem_range.mpr hb)
      simpa [entryBit] using this
    · rename_i b hfind
      have hb := List.find?_some hfind
      refine Or.inr ⟨bg, b, le_rfl, by omega, List.mem_range.mp (List.mem_of_find?_eq_some hfind),
        h0, by simpa [entryBit] using hb, ?_⟩
      rw [ext2WriteBlock_eq hv.serves hon]
      rfl

/-! ## The entries taken -/

lemma entryOf_inode (hv : fs.layout.Allocates) (hg : g < fs.groupCount) (hb : b < fs.sb.sInodesPerGroup) :
    fs.sb.entryOf g b .inode = g * fs.sb.sInodesPerGroup + b + 1 ∧
      fs.layout.HasInode (fs.sb.entryOf g b .inode) := by
  have hfit : fs.groupCount * fs.sb.sInodesPerGroup < 2 ^ 32 := hv.inodes_fit
  have hle : g * fs.sb.sInodesPerGroup + fs.sb.sInodesPerGroup ≤
      fs.groupCount * fs.sb.sInodesPerGroup := by
    rw [← Nat.succ_mul]
    exact Nat.mul_le_mul_right _ hg
  have heq : fs.sb.entryOf g b .inode = g * fs.sb.sInodesPerGroup + b + 1 := by
    unfold SuperBlock.entryOf u32
    exact Nat.mod_eq_of_lt (by omega)
  refine ⟨heq, ?_⟩
  rw [heq]
  exact ⟨Nat.succ_pos _, by change _ ≤ fs.groupCount * fs.sb.sInodesPerGroup; omega⟩

lemma perGroup_take (fs : Ext2) (kind : BitmapKind) (g b : ℕ) (kind' : BitmapKind) :
    (fs.take kind g b).sb.perGroup kind' = fs.sb.perGroup kind' := by
  cases kind' with
  | block => exact congrArg Layout.blocksPerGroup (take_layout fs kind g b)
  | inode => exact congrArg Layout.inodesPerGroup (take_layout fs kind g b)

lemma groupCount_take (fs : Ext2) (kind : BitmapKind) (g b : ℕ) :
    (fs.take kind g b).groupCount = fs.groupCount :=
  congrArg Layout.groupCount (take_layout fs kind g b)

lemma bitmapBlock_take (fs : Ext2) (kind : BitmapKind) (g b : ℕ) (kind' : BitmapKind) (g' : ℕ) :
    ((fs.take kind g b).bgds g').bitmapBlock kind' = (fs.bgds g').bitmapBlock kind' := by
  rw [bitmapBlock_eq, take_layout, bitmapBlock_eq]

lemma perGroup_le (hv : fs.layout.Allocates) (kind : BitmapKind) :
    fs.sb.perGroup kind ≤ 8 * fs.blockSize := by
  cases kind with
  | block => exact hv.blocksPerGroup
  | inode => exact hv.inodesPerGroup

/-- **Taking an entry** sets its bit in its bitmap, and no other bit of any bitmap. -/
theorem bitAt_take {kind' : BitmapKind} {g' b' : ℕ} (hv : fs.layout.Allocates)
    (hg : g < fs.groupCount) (hg' : g' < fs.groupCount) (hb' : b' < 8 * fs.blockSize) :
    entryBit (fs.take kind g b) kind' g' b' =
      (decide (kind' = kind ∧ g' = g ∧ b' = b) || entryBit fs kind' g' b') := by
  unfold entryBit
  rw [bitmapBlock_take]
  by_cases hsame : kind' = kind ∧ g' = g
  · obtain ⟨rfl, rfl⟩ := hsame
    rw [Ext2.take, countTaken_diskBlock, diskBlock_putBlock_self,
      bitAt_congr (copy_zero_apply (by omega)), bitAt_setBitAt]
    simp
  · have hne : (fs.bgds g').bitmapBlock kind' ≠ (fs.bgds g).bitmapBlock kind := by
      rw [bitmapBlock_eq, bitmapBlock_eq]
      intro h
      obtain ⟨rfl, hslot⟩ := hv.bitmap_inj hg' kind'.slot_lt hg kind.slot_lt h
      refine hsame ⟨?_, rfl⟩
      cases kind' <;> cases kind <;> first | rfl | exact absurd hslot (by decide)
    rw [diskBlock_take_of_ne hne, decide_eq_false fun h => hsame ⟨h.1, h.2.1⟩, Bool.false_or]

/-- The bits of one kind. -/
theorem entryBit_take {g' b' : ℕ} (hv : fs.layout.Allocates) (hg : g < fs.groupCount)
    (hg' : g' < fs.groupCount) (hb' : b' < fs.sb.perGroup kind) :
    entryBit (fs.take kind g b) kind g' b' =
      (decide (g' = g ∧ b' = b) || entryBit fs kind g' b') := by
  rw [bitAt_take hv hg hg' (lt_of_lt_of_le hb' (perGroup_le hv kind))]
  simp

/-! ## What is left -/

/-- The clear bits of a group. -/
def clearBits (fs : Ext2) (kind : BitmapKind) (g : ℕ) : Finset ℕ :=
  (Finset.range (fs.sb.perGroup kind)).filter fun b => entryBit fs kind g b = false

/-- The number of entries that allocation can still give: a group gives no more than its counter
says and its bitmap has. -/
def available (fs : Ext2) (kind : BitmapKind) : ℕ :=
  ∑ g ∈ Finset.range fs.groupCount, min ((fs.bgds g).freeCount kind) (clearBits fs kind g).card

lemma available_eq_zero (h : ∀ g < fs.groupCount, Full fs kind g) : available fs kind = 0 := by
  refine Finset.sum_eq_zero fun g hg => ?_
  rcases h g (Finset.mem_range.mp hg) with h0 | hall
  · rw [h0, Nat.zero_min]
  · have hempty : clearBits fs kind g = ∅ := by
      refine Finset.filter_eq_empty_iff.mpr fun b hb => ?_
      rw [hall b (Finset.mem_range.mp hb)]
      exact Bool.noConfusion
    rw [hempty, Finset.card_empty, Nat.min_zero]

lemma freeCount_take_self (fs : Ext2) (kind : BitmapKind) (g b : ℕ)
    (h : (fs.bgds g).freeCount kind ≠ 0) :
    ((fs.take kind g b).bgds g).freeCount kind + 1 = (fs.bgds g).freeCount kind := by
  cases kind with
  | block =>
    change (Function.update fs.bgds g _ g).bgFreeBlocksCount + 1 = _
    rw [Function.update_self]
    change decr 0xFFFF (fs.bgds g).bgFreeBlocksCount + 1 = (fs.bgds g).bgFreeBlocksCount
    change (fs.bgds g).bgFreeBlocksCount ≠ 0 at h
    rw [decr, if_neg h]
    omega
  | inode =>
    change (Function.update fs.bgds g _ g).bgFreeInodesCount + 1 = _
    rw [Function.update_self]
    change decr 0xFFFF (fs.bgds g).bgFreeInodesCount + 1 = (fs.bgds g).bgFreeInodesCount
    change (fs.bgds g).bgFreeInodesCount ≠ 0 at h
    rw [decr, if_neg h]
    omega

lemma freeCount_take_of_ne {g' : ℕ} (h : g' ≠ g) :
    ((fs.take kind g b).bgds g').freeCount kind = (fs.bgds g').freeCount kind := by
  cases kind with
  | block => exact congrArg GroupDesc.bgFreeBlocksCount (Function.update_of_ne h _ fs.bgds)
  | inode => exact congrArg GroupDesc.bgFreeInodesCount (Function.update_of_ne h _ fs.bgds)

lemma clearBits_take {g' : ℕ} (hv : fs.layout.Allocates) (hg : g < fs.groupCount)
    (hg' : g' < fs.groupCount) : clearBits (fs.take kind g b) kind g' =
      if g' = g then (clearBits fs kind g).erase b else clearBits fs kind g' := by
  ext x
  unfold clearBits
  rw [perGroup_take]
  by_cases hx : x < fs.sb.perGroup kind
  · rw [Finset.mem_filter, entryBit_take hv hg hg' hx]
    by_cases hgg : g' = g
    · rw [if_pos hgg, hgg]
      simp [hx]
    · rw [if_neg hgg]
      simp [hx, hgg]
  · split_ifs <;> simp [hx]

/-- **Taking an entry** leaves one less. -/
theorem available_take (hv : fs.layout.Allocates) (hg : g < fs.groupCount)
    (hb : b < fs.sb.perGroup kind) (hfree : (fs.bgds g).freeCount kind ≠ 0)
    (hbit : entryBit fs kind g b = false) :
    available (fs.take kind g b) kind + 1 = available fs kind := by
  have hmem : b ∈ clearBits fs kind g :=
    Finset.mem_filter.mpr ⟨Finset.mem_range.mpr hb, hbit⟩
  have hpos := Finset.card_pos.mpr ⟨b, hmem⟩
  unfold available
  rw [groupCount_take, ← Finset.add_sum_erase _ _ (Finset.mem_range.mpr hg),
    ← Finset.add_sum_erase (Finset.range fs.groupCount) _ (Finset.mem_range.mpr hg)]
  have hrest : ∀ x ∈ (Finset.range fs.groupCount).erase g,
      min (((fs.take kind g b).bgds x).freeCount kind)
        (clearBits (fs.take kind g b) kind x).card =
      min ((fs.bgds x).freeCount kind) (clearBits fs kind x).card := by
    intro x hx
    obtain ⟨hne, hx⟩ := Finset.mem_erase.mp hx
    rw [freeCount_take_of_ne hne, clearBits_take hv hg (Finset.mem_range.mp hx), if_neg hne]
  have hone := freeCount_take_self fs kind g b hfree
  rw [Finset.sum_congr rfl hrest, clearBits_take hv hg hg, if_pos rfl,
    Finset.card_erase_of_mem hmem]
  omega

end Bangos.Fs
