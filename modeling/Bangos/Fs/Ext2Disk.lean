import Bangos.Fs.Ext2

/-!
# Blocks and inodes of a volume whose device works

`Layout` is what stays as it is while a volume is mounted, and `Layout.Valid` says that its
metadata blocks lie on the disk, apart from each other, and that its numbers fit.  On such a
volume reading a block changes nothing, writing one changes that block only, and an inode is a
field of its block.
-/

namespace Bangos.Fs

open ByteMem Bangos.Drivers Bangos.Mm

variable {fs : Ext2} {n k ino bg : ℕ} {buf : ℕ → UInt8} {inode : Inode}

/-! ## Layouts -/

/-- What stays as it is while a volume is mounted. -/
@[ext]
structure Layout where
  totalSectors : ℕ
  sectorSize : ℕ
  outcomes : ℕ → Option ℕ
  firstDataBlock : ℕ
  blocksPerGroup : ℕ
  inodesPerGroup : ℕ
  blockSize : ℕ
  sectorsPerBlock : ℕ
  groupCount : ℕ
  inodeSize : ℕ
  blockBitmap : ℕ → ℕ
  inodeBitmap : ℕ → ℕ
  inodeTable : ℕ → ℕ

/-- The layout of a mounted volume. -/
def Ext2.layout (fs : Ext2) : Layout where
  totalSectors := fs.dev.totalSectors
  sectorSize := fs.dev.sectorSize
  outcomes := fs.dev.outcomes
  firstDataBlock := fs.sb.sFirstDataBlock
  blocksPerGroup := fs.sb.sBlocksPerGroup
  inodesPerGroup := fs.sb.sInodesPerGroup
  blockSize := fs.blockSize
  sectorsPerBlock := fs.sectorsPerBlock
  groupCount := fs.groupCount
  inodeSize := fs.inodeSize
  blockBitmap g := (fs.bgds g).bgBlockBitmap
  inodeBitmap g := (fs.bgds g).bgInodeBitmap
  inodeTable g := (fs.bgds g).bgInodeTable

namespace Layout

/-- The number of blocks of an inode table. -/
def tableBlocks (l : Layout) : ℕ := (l.inodesPerGroup * l.inodeSize + (l.blockSize - 1)) / l.blockSize

/-- The metadata blocks of group `g`: the two bitmaps and the inode table. -/
def metaBlock (l : Layout) (g : ℕ) : ℕ → ℕ
  | 0 => l.blockBitmap g
  | 1 => l.inodeBitmap g
  | j + 2 => l.inodeTable g + j

/-- `g` and `s` name a metadata block. -/
def IsMeta (l : Layout) (g s : ℕ) : Prop := g < l.groupCount ∧ s < 2 + l.tableBlocks

/-- Block `n` is not a metadata block. -/
def Plain (l : Layout) (n : ℕ) : Prop := ∀ g s, l.IsMeta g s → l.metaBlock g s ≠ n

/-- Block `n` lies on the disk. -/
def OnDisk (l : Layout) (n : ℕ) : Prop :=
  n * l.sectorsPerBlock + l.sectorsPerBlock ≤ l.totalSectors

/-- The device works, and a block is a whole number of sectors. -/
structure Serves (l : Layout) : Prop where
  works : l.outcomes = fun _ => none
  blockSize_pos : 0 < l.blockSize
  sectors : l.sectorsPerBlock * l.sectorSize = l.blockSize

/-- The layout of a volume with 1024-byte blocks on a device that works. -/
structure Valid (l : Layout) : Prop where
  works : l.outcomes = fun _ => none
  blockSize : l.blockSize = 1024
  sectors : l.sectorsPerBlock * l.sectorSize = l.blockSize
  inodeSize : inodeBytes ≤ l.inodeSize
  inodeSize_dvd : l.inodeSize ∣ l.blockSize
  inodesPerGroup_pos : 0 < l.inodesPerGroup
  inodesPerGroup : l.inodesPerGroup ≤ 8 * l.blockSize
  blocksPerGroup : l.blocksPerGroup ≤ 8 * l.blockSize
  inodes_fit : l.groupCount * l.inodesPerGroup < 2 ^ 32
  blocks_fit : l.groupCount * l.blocksPerGroup + l.firstDataBlock < 2 ^ 32
  onDisk : ∀ {g s}, l.IsMeta g s → l.OnDisk (l.metaBlock g s)
  meta_fit : ∀ {g s}, l.IsMeta g s → l.metaBlock g s < 2 ^ 32
  meta_inj : ∀ {g s g' s'}, l.IsMeta g s → l.IsMeta g' s' →
    l.metaBlock g s = l.metaBlock g' s' → g = g' ∧ s = s'

lemma Valid.serves {l : Layout} (h : l.Valid) : l.Serves :=
  ⟨h.works, by rw [h.blockSize]; norm_num, h.sectors⟩

/-- The geometry that reading and writing inodes relies on: a block fits the buffers and holds a
whole number of inodes, the bitmap of the inodes of a group is one block, and the tables lie on the
disk, apart from each other. -/
structure InodeTables (l : Layout) : Prop where
  serves : l.Serves
  blockSize_le : l.blockSize ≤ 4096
  inodeSize : inodeBytes ≤ l.inodeSize
  inodeSize_dvd : l.inodeSize ∣ l.blockSize
  inodesPerGroup_pos : 0 < l.inodesPerGroup
  inodesPerGroup : l.inodesPerGroup ≤ 8 * l.blockSize
  onDisk : ∀ {g j}, g < l.groupCount → j < l.tableBlocks → l.OnDisk (l.inodeTable g + j)
  fits : ∀ {g j}, g < l.groupCount → j < l.tableBlocks → l.inodeTable g + j < 2 ^ 32
  apart : ∀ {g j g' j'}, g < l.groupCount → j < l.tableBlocks → g' < l.groupCount →
    j' < l.tableBlocks → l.inodeTable g + j = l.inodeTable g' + j' → g = g'

lemma Valid.tables {l : Layout} (h : l.Valid) : l.InodeTables where
  serves := h.serves
  blockSize_le := by rw [h.blockSize]; norm_num
  inodeSize := h.inodeSize
  inodeSize_dvd := h.inodeSize_dvd
  inodesPerGroup_pos := h.inodesPerGroup_pos
  inodesPerGroup := h.inodesPerGroup
  onDisk := fun {g j} hg hj => h.onDisk (s := j + 2) ⟨hg, by omega⟩
  fits := fun {g j} hg hj => h.meta_fit (s := j + 2) ⟨hg, by omega⟩
  apart := by
    intro g j g' j' hg hj hg' hj' heq
    have hm : l.IsMeta g (j + 2) := ⟨hg, by omega⟩
    have hm' : l.IsMeta g' (j' + 2) := ⟨hg', by omega⟩
    exact (h.meta_inj hm hm' heq).1

end Layout

/-- The volume on a device with other outcomes. -/
def Ext2.withOutcomes (fs : Ext2) (outcomes : ℕ → Option ℕ) : Ext2 :=
  { fs with dev := { fs.dev with outcomes := outcomes } }

/-! ## Blocks -/

/-- The contents of block `n`. -/
def diskBlock (fs : Ext2) (n : ℕ) : ℕ → UInt8 := copy zeros 0 fs.dev.bytes (n * fs.blockSize) fs.blockSize

/-- The volume with `buf` in block `n`. -/
def Ext2.putBlock (fs : Ext2) (n : ℕ) (buf : ℕ → UInt8) : Ext2 :=
  { fs with dev := { fs.dev with
    bytes := copy fs.dev.bytes (n * fs.blockSize) buf 0 fs.blockSize } }

@[simp] lemma putBlock_layout (fs : Ext2) (n : ℕ) (buf : ℕ → UInt8) :
    (fs.putBlock n buf).layout = fs.layout := rfl

@[simp] lemma putBlock_pool (fs : Ext2) (n : ℕ) (buf : ℕ → UInt8) :
    (fs.putBlock n buf).pool = fs.pool := rfl

@[simp] lemma putBlock_poolCount (fs : Ext2) (n : ℕ) (buf : ℕ → UInt8) :
    (fs.putBlock n buf).poolCount = fs.poolCount := rfl

lemma diskBlock_apply {x : ℕ} (h : x < fs.blockSize) :
    diskBlock fs n x = fs.dev.bytes (n * fs.blockSize + x) := by
  rw [diskBlock, ← Nat.zero_add x, copy_apply_of_mem h, Nat.zero_add]

/-- The volume with the first `t` bytes of `buf` in block `n`. -/
def Ext2.putPart (fs : Ext2) (n : ℕ) (buf : ℕ → UInt8) (t : ℕ) : Ext2 :=
  { fs with dev := { fs.dev with bytes := copy fs.dev.bytes (n * fs.blockSize) buf 0 t } }

lemma diskBlock_of_le {x : ℕ} (h : fs.blockSize ≤ x) : diskBlock fs n x = 0 :=
  copy_apply_of_not_mem (Or.inr (by omega))

/-- Writing a part of a block puts it there. -/
theorem diskBlock_putPart_self {t : ℕ} (ht : t ≤ fs.blockSize) :
    diskBlock (fs.putPart n buf t) n = copy (diskBlock fs n) 0 buf 0 t := by
  funext x
  by_cases hx : x < fs.blockSize
  · refine (diskBlock_apply (show x < (fs.putPart n buf t).blockSize from hx)).trans ?_
    change copy fs.dev.bytes (n * fs.blockSize) buf 0 t (n * fs.blockSize + x) = _
    by_cases hxt : x < t
    · rw [copy_apply_of_mem hxt, copy_zero_apply hxt, Nat.zero_add]
    · rw [copy_apply_of_not_mem (by omega), copy_apply_of_not_mem (by omega), diskBlock_apply hx]
  · rw [copy_apply_of_not_mem (by omega), diskBlock_of_le (not_lt.mp hx),
      diskBlock_of_le (show (fs.putPart n buf t).blockSize ≤ x from not_lt.mp hx)]

/-- Writing a part of a block leaves the other blocks. -/
theorem diskBlock_putPart_of_ne {t : ℕ} (ht : t ≤ fs.blockSize) (h : k ≠ n) :
    diskBlock (fs.putPart n buf t) k = diskBlock fs k := by
  funext x
  by_cases hx : x < fs.blockSize
  · rw [diskBlock_apply hx]
    refine (diskBlock_apply (show x < (fs.putPart n buf t).blockSize from hx)).trans ?_
    change copy fs.dev.bytes (n * fs.blockSize) buf 0 t (k * fs.blockSize + x) = _
    refine copy_apply_of_not_mem ?_
    rcases Nat.lt_or_gt_of_ne h with hlt | hgt
    · have := Nat.mul_le_mul_right fs.blockSize (Nat.succ_le_of_lt hlt)
      rw [Nat.succ_mul] at this
      omega
    · have := Nat.mul_le_mul_right fs.blockSize (Nat.succ_le_of_lt hgt)
      rw [Nat.succ_mul] at this
      omega
  · rw [diskBlock_of_le (not_lt.mp hx),
      diskBlock_of_le (show (fs.putPart n buf t).blockSize ≤ x from not_lt.mp hx)]

/-- **Writing a block** puts the buffer there. -/
theorem diskBlock_putBlock_self (fs : Ext2) (n : ℕ) (buf : ℕ → UInt8) :
    diskBlock (fs.putBlock n buf) n = copy zeros 0 buf 0 fs.blockSize := by
  have hput : diskBlock (fs.putBlock n buf) n = copy (diskBlock fs n) 0 buf 0 fs.blockSize :=
    diskBlock_putPart_self le_rfl
  rw [hput]
  funext x
  by_cases hx : x < fs.blockSize
  · rw [copy_zero_apply hx, copy_zero_apply hx]
  · rw [copy_apply_of_not_mem (by omega), copy_apply_of_not_mem (by omega),
      diskBlock_of_le (not_lt.mp hx)]
    rfl

/-- Writing a block leaves the others. -/
theorem diskBlock_putBlock_of_ne (h : k ≠ n) : diskBlock (fs.putBlock n buf) k = diskBlock fs k :=
  diskBlock_putPart_of_ne le_rfl h

lemma copy_zeros_diskBlock (fs : Ext2) (n : ℕ) :
    copy zeros 0 (diskBlock fs n) 0 fs.blockSize = diskBlock fs n := copy_copy _ _ _ _ _ _

section Serves

variable (hv : fs.layout.Serves)
include hv

lemma transfer_eq (hn : fs.layout.OnDisk n) :
    fs.dev.transfer (n * fs.sectorsPerBlock) fs.sectorsPerBlock = (true, fs.sectorsPerBlock) := by
  have hpos : fs.sectorsPerBlock ≠ 0 := by
    intro h0
    have h1 : fs.sectorsPerBlock * fs.dev.sectorSize = fs.blockSize := hv.sectors
    have h2 : 0 < fs.blockSize := hv.blockSize_pos
    rw [h0, Nat.zero_mul] at h1
    omega
  have hlast : n * fs.sectorsPerBlock + fs.sectorsPerBlock ≤ fs.dev.totalSectors := hn
  have hworks : fs.dev.outcomes = fun _ => none := hv.works
  unfold BlockDev.transfer
  rw [if_neg (by omega), hworks]

lemma answered_eq : fs.dev.answered = fs.dev := by
  have hworks : fs.dev.outcomes = fun _ => none := hv.works
  unfold BlockDev.answered
  rw [hworks]
  exact congrArg (fun o => { fs.dev with outcomes := o }) hworks.symm

/-- **Reading a block** of a working device. -/
theorem ext2ReadBlock_eq (hn : fs.layout.OnDisk n) (buf : ℕ → UInt8) :
    ext2ReadBlock fs n buf = (true, copy buf 0 (diskBlock fs n) 0 fs.blockSize, fs) := by
  have hsec : fs.sectorsPerBlock * fs.dev.sectorSize = fs.blockSize := hv.sectors
  unfold ext2ReadBlock readBlocks
  rw [transfer_eq hv hn, answered_eq hv]
  dsimp only
  rw [hsec, Nat.mul_assoc, hsec]
  rw [diskBlock, copy_copy]

/-- **Writing a block** of a working device. -/
theorem ext2WriteBlock_eq (hn : fs.layout.OnDisk n) (buf : ℕ → UInt8) :
    ext2WriteBlock fs n buf = (true, fs.putBlock n buf) := by
  have hsec : fs.sectorsPerBlock * fs.dev.sectorSize = fs.blockSize := hv.sectors
  unfold ext2WriteBlock writeBlocks
  rw [transfer_eq hv hn, answered_eq hv]
  dsimp only
  rw [hsec, Nat.mul_assoc, hsec]
  rfl

end Serves

/-! ## Inodes -/

/-- The volume has an inode with this number. -/
def Layout.HasInode (l : Layout) (ino : ℕ) : Prop := 0 < ino ∧ ino ≤ l.groupCount * l.inodesPerGroup

instance decidableHasInode (l : Layout) (ino : ℕ) : Decidable (l.HasInode ino) :=
  inferInstanceAs (Decidable (0 < ino ∧ ino ≤ l.groupCount * l.inodesPerGroup))

/-- The inode on the disk. -/
def diskInode (fs : Ext2) (ino : ℕ) : Inode :=
  copy zeros 0 (diskBlock fs (inodeBlock fs ino)) (inodeOffset fs ino % fs.blockSize) inodeBytes

/-- The volume with another inode on the disk. -/
def Ext2.putInode (fs : Ext2) (ino : ℕ) (inode : Inode) : Ext2 :=
  fs.putBlock (inodeBlock fs ino) (copy (diskBlock fs (inodeBlock fs ino))
    (inodeOffset fs ino % fs.blockSize) inode 0 inodeBytes)

section Tables

variable (hv : fs.layout.InodeTables)
include hv

lemma inodeBlock_spec (hi : fs.layout.HasInode ino) :
    inodeGroup fs ino < fs.groupCount ∧
      ∃ j < fs.layout.tableBlocks, inodeBlock fs ino = fs.layout.metaBlock (inodeGroup fs ino) (j + 2) ∧
      inodeOffset fs ino = (ino - 1) % fs.sb.sInodesPerGroup * fs.inodeSize ∧
      inodeOffset fs ino % fs.blockSize + inodeBytes ≤ fs.blockSize ∧
      j = inodeOffset fs ino / fs.blockSize := by
  have hipg : 0 < fs.sb.sInodesPerGroup := hv.inodesPerGroup_pos
  have hipg' : fs.sb.sInodesPerGroup ≤ 8 * fs.blockSize := hv.inodesPerGroup
  have hbs : fs.blockSize ≤ 4096 := hv.blockSize_le
  have hbs0 : 0 < fs.blockSize := hv.serves.blockSize_pos
  obtain ⟨q, hq⟩ : fs.inodeSize ∣ fs.blockSize := hv.inodeSize_dvd
  have hsize : inodeBytes ≤ fs.inodeSize := hv.inodeSize
  have hle : ino ≤ fs.groupCount * fs.sb.sInodesPerGroup := hi.2
  have hpos := hi.1
  have hgroup : inodeGroup fs ino < fs.groupCount := by
    unfold inodeGroup
    rw [Nat.div_lt_iff_lt_mul hipg]
    omega
  have hidx : (ino - 1) % fs.sb.sInodesPerGroup < fs.sb.sInodesPerGroup := Nat.mod_lt _ hipg
  have hisz : fs.inodeSize ≤ fs.blockSize := Nat.le_of_dvd hbs0 ⟨q, hq⟩
  have hoff : inodeOffset fs ino = (ino - 1) % fs.sb.sInodesPerGroup * fs.inodeSize := by
    unfold inodeOffset u32
    refine Nat.mod_eq_of_lt ?_
    calc (ino - 1) % fs.sb.sInodesPerGroup * fs.inodeSize ≤ 32768 * 4096 :=
          Nat.mul_le_mul (by omega) (by omega)
      _ < 0x100000000 := by norm_num
  have hlt : (ino - 1) % fs.sb.sInodesPerGroup * fs.inodeSize + fs.inodeSize ≤
      fs.sb.sInodesPerGroup * fs.inodeSize := by
    rw [← Nat.succ_mul]
    exact Nat.mul_le_mul_right _ hidx
  unfold inodeBytes at hsize
  have hj : inodeOffset fs ino / fs.blockSize < fs.layout.tableBlocks := by
    change _ < (fs.sb.sInodesPerGroup * fs.inodeSize + (fs.blockSize - 1)) / fs.blockSize
    rw [hoff, Nat.div_lt_iff_lt_mul hbs0]
    have hdiv := Nat.div_add_mod (fs.sb.sInodesPerGroup * fs.inodeSize + (fs.blockSize - 1))
      fs.blockSize
    have hmod := Nat.mod_lt (fs.sb.sInodesPerGroup * fs.inodeSize + (fs.blockSize - 1)) hbs0
    rw [Nat.mul_comm fs.blockSize] at hdiv
    omega
  refine ⟨hgroup, _, hj, Nat.mod_eq_of_lt (hv.fits hgroup hj), hoff, ?_, rfl⟩
  -- the table is cut into blocks between two inodes
  rw [hoff, hq, Nat.mul_comm, Nat.mul_mod_mul_left]
  have hq0 : 0 < q := by
    rcases Nat.eq_zero_or_pos q with h0 | h0
    · rw [h0, Nat.mul_zero] at hq
      omega
    · exact h0
  have hmod := Nat.mod_lt ((ino - 1) % fs.sb.sInodesPerGroup) hq0
  have := Nat.mul_le_mul_left fs.inodeSize hmod
  rw [Nat.mul_succ] at this
  unfold inodeBytes
  omega

lemma onDisk_inodeBlock (hi : fs.layout.HasInode ino) : fs.layout.OnDisk (inodeBlock fs ino) := by
  obtain ⟨hg, j, hj, heq, -⟩ := inodeBlock_spec hv hi
  rw [heq]
  exact hv.onDisk hg hj

/-- **Reading an inode.** -/
theorem ext2ReadInode_eq (hi : fs.layout.HasInode ino) :
    ext2ReadInode fs ino = (some (diskInode fs ino), fs) := by
  have hg := (inodeBlock_spec hv hi).1
  have hpos := hi.1
  unfold ext2ReadInode
  rw [if_neg (by omega), ext2ReadBlock_eq hv.serves (onDisk_inodeBlock hv hi), copy_zeros_diskBlock]
  rfl

/-- **Writing an inode.** -/
theorem ext2WriteInode_eq (hi : fs.layout.HasInode ino) (inode : Inode) :
    ext2WriteInode fs ino inode = (true, fs.putInode ino inode) := by
  have hg := (inodeBlock_spec hv hi).1
  have hpos := hi.1
  have hon := onDisk_inodeBlock hv hi
  unfold ext2WriteInode
  rw [if_neg (by omega), ext2ReadBlock_eq hv.serves hon, copy_zeros_diskBlock]
  dsimp only
  rw [ext2WriteBlock_eq hv.serves hon]
  rfl

/-- **Reading back an inode** gives what was written. -/
theorem diskInode_putInode_self {x : ℕ} (hi : fs.layout.HasInode ino) (inode : Inode)
    (hx : x < inodeBytes) : diskInode (fs.putInode ino inode) ino x = inode x := by
  obtain ⟨-, j, -, -, -, hfit, -⟩ := inodeBlock_spec hv hi
  change copy zeros 0 (diskBlock (fs.putBlock (inodeBlock fs ino) _) (inodeBlock fs ino))
    (inodeOffset fs ino % fs.blockSize) inodeBytes x = inode x
  rw [← Nat.zero_add x, copy_apply_of_mem hx, diskBlock_putBlock_self, copy_zero_apply (by omega),
    copy_apply_of_mem hx]

lemma inodeOffset_apart {i : ℕ} (hi : fs.layout.HasInode ino) (hi' : fs.layout.HasInode i)
    (hne : i ≠ ino) (hblock : inodeBlock fs i = inodeBlock fs ino) :
    inodeOffset fs i % fs.blockSize + inodeBytes ≤ inodeOffset fs ino % fs.blockSize ∨
      inodeOffset fs ino % fs.blockSize + inodeBytes ≤ inodeOffset fs i % fs.blockSize := by
  obtain ⟨hg, j, hj, heq, hoff, -, hjoff⟩ := inodeBlock_spec hv hi
  obtain ⟨hg', j', hj', heq', hoff', -, hjoff'⟩ := inodeBlock_spec hv hi'
  have hsize : inodeBytes ≤ fs.inodeSize := hv.inodeSize
  have hsum : fs.layout.inodeTable (inodeGroup fs i) + j' =
      fs.layout.inodeTable (inodeGroup fs ino) + j := (heq'.symm.trans hblock).trans heq
  have hgroup := hv.apart hg' hj' hg hj hsum
  -- the blocks are counted from the start of the table
  have hjj : inodeOffset fs i / fs.blockSize = inodeOffset fs ino / fs.blockSize := by
    rw [hgroup] at hsum
    omega
  have d1 := Nat.div_add_mod (inodeOffset fs i) fs.blockSize
  have d2 := Nat.div_add_mod (inodeOffset fs ino) fs.blockSize
  rw [hjj] at d1
  -- in one group the inodes have different places in the table
  have hplace : (i - 1) % fs.sb.sInodesPerGroup ≠ (ino - 1) % fs.sb.sInodesPerGroup := by
    intro hmod
    have hdiv : (i - 1) / fs.sb.sInodesPerGroup = (ino - 1) / fs.sb.sInodesPerGroup := hgroup
    have d1 := Nat.div_add_mod (i - 1) fs.sb.sInodesPerGroup
    have d2 := Nat.div_add_mod (ino - 1) fs.sb.sInodesPerGroup
    rw [hmod, hdiv, d2] at d1
    have := hi.1
    have := hi'.1
    omega
  rcases Nat.lt_or_gt_of_ne hplace with hlt | hlt
  · have := Nat.mul_le_mul_right fs.inodeSize (Nat.succ_le_of_lt hlt)
    rw [Nat.succ_mul] at this
    left
    omega
  · have := Nat.mul_le_mul_right fs.inodeSize (Nat.succ_le_of_lt hlt)
    rw [Nat.succ_mul] at this
    right
    omega

/-- **Writing an inode** leaves the others. -/
theorem diskInode_putInode_of_ne {i : ℕ} (hi : fs.layout.HasInode ino) (hi' : fs.layout.HasInode i)
    (hne : i ≠ ino) (inode : Inode) : diskInode (fs.putInode ino inode) i = diskInode fs i := by
  obtain ⟨-, -, -, -, -, hfit, -⟩ := inodeBlock_spec hv hi'
  change copy zeros 0 (diskBlock (fs.putInode ino inode) (inodeBlock fs i))
    (inodeOffset fs i % fs.blockSize) inodeBytes = _
  by_cases hblock : inodeBlock fs i = inodeBlock fs ino
  · have hapart := inodeOffset_apart hv hi hi' hne hblock
    unfold diskInode Ext2.putInode
    rw [hblock, diskBlock_putBlock_self]
    funext x
    by_cases hx : x < inodeBytes
    · rw [← Nat.zero_add x, copy_apply_of_mem hx, copy_apply_of_mem hx, copy_zero_apply (by omega),
        copy_apply_of_not_mem (by omega)]
    · rw [copy_apply_of_not_mem (by omega), copy_apply_of_not_mem (by omega)]
  · rw [Ext2.putInode, diskBlock_putBlock_of_ne hblock]
    rfl

/-- The place of an inode on the disk. -/
def inodeAddr (fs : Ext2) (ino : ℕ) : ℕ :=
  (fs.bgds (inodeGroup fs ino)).bgInodeTable * fs.blockSize +
    (ino - 1) % fs.sb.sInodesPerGroup * fs.inodeSize

omit hv in
lemma bytes_putBlock_copy {off len a : ℕ} {src : ℕ → UInt8}
    (ha : a < n * fs.blockSize + off ∨ n * fs.blockSize + off + len ≤ a) :
    (fs.putBlock n (copy (diskBlock fs n) off src 0 len)).dev.bytes a = fs.dev.bytes a := by
  change copy fs.dev.bytes (n * fs.blockSize) _ 0 fs.blockSize a = _
  by_cases hin : n * fs.blockSize ≤ a ∧ a < n * fs.blockSize + fs.blockSize
  · obtain ⟨x, rfl⟩ := Nat.exists_eq_add_of_le hin.1
    have hx : x < fs.blockSize := by omega
    rw [copy_apply_of_mem hx, Nat.zero_add, copy_apply_of_not_mem (by omega), diskBlock_apply hx]
  · exact copy_apply_of_not_mem (by omega)

lemma bytes_putInode_of_not_mem {a : ℕ} (hi : fs.layout.HasInode ino) (inode : Inode)
    (ha : a < inodeAddr fs ino ∨ inodeAddr fs ino + inodeBytes ≤ a) :
    (fs.putInode ino inode).dev.bytes a = fs.dev.bytes a := by
  obtain ⟨-, j, -, heq, hoff, -, hj⟩ := inodeBlock_spec hv hi
  have haddr : inodeAddr fs ino =
      inodeBlock fs ino * fs.blockSize + inodeOffset fs ino % fs.blockSize := by
    have hdiv := Nat.div_add_mod (inodeOffset fs ino) fs.blockSize
    have hblock : inodeBlock fs ino = (fs.bgds (inodeGroup fs ino)).bgInodeTable + j := heq
    rw [inodeAddr, ← hoff, hblock, hj, Nat.add_mul, Nat.mul_comm (inodeOffset fs ino / _)]
    omega
  rw [haddr] at ha
  exact bytes_putBlock_copy ha

lemma diskBlock_putInode_of_plain (hi : fs.layout.HasInode ino) (hn : fs.layout.Plain n)
    (inode : Inode) : diskBlock (fs.putInode ino inode) n = diskBlock fs n := by
  obtain ⟨hg, j, hj, heq, -⟩ := inodeBlock_spec hv hi
  refine diskBlock_putBlock_of_ne fun h => hn _ _ ⟨hg, ?_⟩ (heq.symm.trans h.symm)
  omega

end Tables

section Valid

variable (hv : fs.layout.Valid)
include hv

lemma diskBlock_putInode_of_bitmap {g s : ℕ} (hi : fs.layout.HasInode ino)
    (hg : g < fs.groupCount) (hs : s < 2) (inode : Inode) :
    diskBlock (fs.putInode ino inode) (fs.layout.metaBlock g s) =
      diskBlock fs (fs.layout.metaBlock g s) := by
  obtain ⟨hg', j, hj, heq, -⟩ := inodeBlock_spec hv.tables hi
  refine diskBlock_putBlock_of_ne fun h => ?_
  have := (hv.meta_inj ⟨hg, by omega⟩ ⟨hg', by omega⟩ (h.trans heq)).2
  omega

end Valid

@[simp] lemma putInode_layout (fs : Ext2) (ino : ℕ) (inode : Inode) :
    (fs.putInode ino inode).layout = fs.layout := rfl

@[simp] lemma putInode_pool (fs : Ext2) (ino : ℕ) (inode : Inode) :
    (fs.putInode ino inode).pool = fs.pool := rfl

@[simp] lemma putInode_poolCount (fs : Ext2) (ino : ℕ) (inode : Inode) :
    (fs.putInode ino inode).poolCount = fs.poolCount := rfl

/-! ## A small volume -/

/-- One group of 31 blocks and 8 inodes: the bitmaps are blocks 3 and 4, the inode table is
block 5. -/
def smallVolume (bytes : ℕ → UInt8) (pool : ℕ → Ext2Node) (poolCount : ℕ) : Ext2 where
  dev := ⟨bytes, 64, 512, fun _ => none⟩
  sb := ⟨25, 4, 1, 31, 8⟩
  blockSize := 1024
  sectorsPerBlock := 2
  groupCount := 1
  bgds := fun _ => ⟨3, 4, 5, 25, 4⟩
  inodeSize := 128
  pool := pool
  poolCount := poolCount
  writeBuf := zeros
  dirBlk := zeros

lemma isMeta_smallVolume {bytes : ℕ → UInt8} {pool : ℕ → Ext2Node} {g s : ℕ} {c : ℕ}
    (h : (smallVolume bytes pool c).layout.IsMeta g s) :
    g = 0 ∧ s < 3 ∧ (smallVolume bytes pool c).layout.metaBlock g s = s + 3 := by
  obtain ⟨hg, hs⟩ := h
  have hg : g < 1 := hg
  have hs : s < 2 + (8 * 128 + (1024 - 1)) / 1024 := hs
  have hs : s < 3 := by omega
  refine ⟨by omega, hs, ?_⟩
  match s, hs with
  | 0, _ => rfl
  | 1, _ => rfl
  | 2, _ => rfl

lemma smallVolume_valid (bytes : ℕ → UInt8) (pool : ℕ → Ext2Node) (c : ℕ) :
    (smallVolume bytes pool c).layout.Valid where
  works := rfl
  blockSize := rfl
  sectors := show 2 * 512 = 1024 by omega
  inodeSize := show 128 ≤ 128 by omega
  inodeSize_dvd := show 128 ∣ 1024 by omega
  inodesPerGroup_pos := show 0 < 8 by omega
  inodesPerGroup := show 8 ≤ 8 * 1024 by omega
  blocksPerGroup := show 31 ≤ 8 * 1024 by omega
  inodes_fit := show 1 * 8 < 2 ^ 32 by omega
  blocks_fit := show 1 * 31 + 1 < 2 ^ 32 by omega
  onDisk := by
    intro g s h
    obtain ⟨-, hs, heq⟩ := isMeta_smallVolume h
    have : (s + 3) * 2 + 2 ≤ 64 := by omega
    rw [heq]
    exact this
  meta_fit := by
    intro g s h
    obtain ⟨-, hs, heq⟩ := isMeta_smallVolume h
    omega
  meta_inj := by
    intro g s g' s' h h' heq
    obtain ⟨hg, hs, h1⟩ := isMeta_smallVolume h
    obtain ⟨hg', hs', h2⟩ := isMeta_smallVolume h'
    omega

/-- A small volume whose disk is cleared. -/
def clearVolume : Ext2 := smallVolume zeros (fun _ => ⟨0, zeros, [], 0, 0, false⟩) 0

/-- **The laws of the inode tables**: an inode that was written is read back, the other inodes are
read as before, and the disk changes in the bytes of the inode only. -/
theorem inode_table_laws {i j : ℕ} (hv : fs.layout.InodeTables) (hi : fs.layout.HasInode i)
    (hj : fs.layout.HasInode j) (x : Inode) :
    (ext2WriteInode fs i x).1 = true ∧
      (ext2ReadInode (ext2WriteInode fs i x).2 i).1 = some (copy zeros 0 x 0 inodeBytes) ∧
      (j ≠ i → (ext2ReadInode (ext2WriteInode fs i x).2 j).1 = (ext2ReadInode fs j).1) ∧
      ∀ a, a < inodeAddr fs i ∨ inodeAddr fs i + inodeBytes ≤ a →
        (ext2WriteInode fs i x).2.dev.bytes a = fs.dev.bytes a := by
  rw [ext2WriteInode_eq hv hi]
  have hv' : (fs.putInode i x).layout.InodeTables := hv
  refine ⟨rfl, ?_, fun hne => ?_, fun a ha => bytes_putInode_of_not_mem hv hi x ha⟩
  · rw [ext2ReadInode_eq hv' hi]
    refine congrArg some (funext fun k => ?_)
    by_cases hk : k < inodeBytes
    · rw [diskInode_putInode_self hv hi x hk, copy_zero_apply hk]
    · rw [diskInode, copy_apply_of_not_mem (by omega), copy_apply_of_not_mem (by omega)]
  · rw [ext2ReadInode_eq hv' hj, ext2ReadInode_eq hv hj, diskInode_putInode_of_ne hv hi hj hne]

/-- Inodes 3 and 8 of a small volume. -/
theorem inode_table_laws_smallVolume :
    (ext2ReadInode (ext2WriteInode clearVolume 3 (newInode 0)).2 3).1 =
        some (copy zeros 0 (newInode 0) 0 inodeBytes) ∧
      (ext2ReadInode (ext2WriteInode clearVolume 3 (newInode 0)).2 8).1 =
        (ext2ReadInode clearVolume 8).1 := by
  have hv : clearVolume.layout.Valid := smallVolume_valid _ _ _
  obtain ⟨-, hread, hother, -⟩ := inode_table_laws (i := 3) (j := 8) hv.tables (by decide)
    (by decide) (newInode 0)
  exact ⟨hread, hother (by decide)⟩

lemma plain_smallVolume {bytes : ℕ → UInt8} {pool : ℕ → Ext2Node} {c n : ℕ} (hn : 6 ≤ n) :
    (smallVolume bytes pool c).layout.Plain n := by
  intro g s h
  obtain ⟨-, hs, heq⟩ := isMeta_smallVolume h
  omega

end Bangos.Fs
