import Bangos.Fs.Ext2Dir

/-!
# Reading and writing files

The contents of a file are a function of positions: its block map says in which block of the
disk a position lies, and a position without a block reads as 0.  `ext2_vfs_read` returns the
contents between its offset and the end of the file.  `ext2_vfs_write` works through the direct
blocks one at a time; `Written` says what holds of the volume and of the cached inode after
every block, and is all that callers need to know about the loop.
-/

namespace Bangos.Fs

open ByteMem Bangos.Drivers Bangos.Mm

variable {fs fs' fs1 : Ext2} {inode inode' inode1 : Inode} {n g b i j v w off len : ℕ}
  {data : List UInt8}

/-! ## The fields of an inode -/

lemma iSize_lt (inode : Inode) : iSize inode < 2 ^ 32 := le_lt inode _ 4

lemma iBlock_setBlock_self (hv : v < 2 ^ 32) : iBlock (setBlock inode i v) i = v := by
  rw [iBlock, setBlock, le_putLe_self, Nat.mod_eq_of_lt (by omega)]

lemma iBlock_setBlock_of_ne (h : j ≠ i) : iBlock (setBlock inode i v) j = iBlock inode j :=
  le_putLe_of_disjoint (by omega)

@[simp] lemma iBlock_setBlocks : iBlock (setBlocks inode v) i = iBlock inode i :=
  le_putLe_of_disjoint (by omega)

@[simp] lemma iBlock_setSize : iBlock (setSize inode v) i = iBlock inode i :=
  le_putLe_of_disjoint (by omega)

lemma iSize_setSize (hv : v < 2 ^ 32) : iSize (setSize inode v) = v := by
  rw [iSize, setSize, le_putLe_self, Nat.mod_eq_of_lt (by omega)]

/-! ## Reading -/

/-- The contents of a file at a position. -/
def fileByte (fs : Ext2) (inode : Inode) (x : ℕ) : UInt8 :=
  if fileBlock fs inode (x / fs.blockSize) = 0 then 0
  else diskBlock fs (fileBlock fs inode (x / fs.blockSize)) (x % fs.blockSize)

/-- The blocks of a file up to its end lie on the disk. -/
def BlocksOnDisk (fs : Ext2) (inode : Inode) : Prop :=
  ∀ b, b * fs.blockSize < iSize inode →
    (∀ n ∈ pointerBlocks fs inode b, n ≠ 0 → fs.layout.OnDisk n) ∧
      (fileBlock fs inode b ≠ 0 → fs.layout.OnDisk (fileBlock fs inode b))

/-- The contents of a file from a position on. -/
def contents (fs : Ext2) (inode : Inode) (off len : ℕ) : List UInt8 :=
  (List.range len).map fun k => fileByte fs inode (off + k)

lemma length_contents : (contents fs inode off len).length = len := by simp [contents]

lemma contents_add {c : ℕ} : contents fs inode off (len + c) =
    contents fs inode off len ++ contents fs inode (off + len) c := by
  unfold contents
  rw [List.range_add, List.map_append, List.map_map]
  refine congrArg _ (List.map_congr_left fun k _ => ?_)
  rw [Function.comp_apply, Nat.add_assoc]

lemma contents_inside {c p : ℕ} (hbs : fs.blockSize = 1024) (hc : p % 1024 + c ≤ 1024) :
    contents fs inode p c = if fileBlock fs inode (p / 1024) = 0 then List.replicate c 0
      else (List.range c).map fun x => diskBlock fs (fileBlock fs inode (p / 1024)) (p % 1024 + x) := by
  have hdiv : ∀ k < c, (p + k) / 1024 = p / 1024 ∧ (p + k) % 1024 = p % 1024 + k := by
    intro k hk
    constructor <;> omega
  unfold contents fileByte
  rw [hbs]
  split_ifs with h0
  · refine List.eq_replicate_iff.mpr ⟨by simp, fun y hy => ?_⟩
    obtain ⟨k, hk, rfl⟩ := List.mem_map.mp hy
    rw [(hdiv k (List.mem_range.mp hk)).1, if_pos h0]
  · refine List.map_congr_left fun k hk => ?_
    obtain ⟨h1, h2⟩ := hdiv k (List.mem_range.mp hk)
    rw [h1, h2, if_neg h0]

lemma vfsReadLoop_eq (hv : fs.layout.Serves) (hbs : fs.blockSize = 1024)
    (hon : BlocksOnDisk fs inode) {toRead : ℕ}
    (hend : off + toRead ≤ iSize inode) (fuel : ℕ) (hw : w ≤ toRead) (hfuel : toRead - w ≤ fuel) :
    vfsReadLoop inode off toRead fuel fs (contents fs inode off w) =
      (contents fs inode off toRead, fs) := by
  have hlt := iSize_lt inode
  induction fuel generalizing w with
  | zero =>
    obtain rfl : w = toRead := by omega
    rfl
  | succ fuel ih =>
    rw [vfsReadLoop, length_contents]
    split_ifs with hlen
    · have hpos : u64 (off + w) = off + w := Nat.mod_eq_of_lt (by omega)
      have hblk : u32 ((off + w) / 1024) = (off + w) / 1024 := Nat.mod_eq_of_lt (by omega)
      have hin : u32 ((off + w) % 1024) = (off + w) % 1024 := Nat.mod_eq_of_lt (by omega)
      obtain ⟨hptr, hdata⟩ := hon ((off + w) / 1024) (by rw [hbs]; omega)
      dsimp only
      rw [hpos, hbs, hblk, hin, ext2GetFileBlock_eq hv hptr]
      have hstep : contents fs inode (off + w) (min (1024 - (off + w) % 1024) (toRead - w)) = _ :=
        contents_inside hbs (by omega)
      have hnext := ih (w := w + min (1024 - (off + w) % 1024) (toRead - w)) (by omega) (by omega)
      rw [contents_add, hstep] at hnext
      split
      · rename_i heq
        obtain ⟨h0, rfl⟩ := Prod.mk.inj heq
        rw [h0, if_pos rfl] at hnext
        exact hnext
      · rename_i phys fs1 hne heq
        obtain ⟨h0, rfl⟩ := Prod.mk.inj heq
        have hne0 : fileBlock fs inode ((off + w) / 1024) ≠ 0 := fun h => hne (h0.symm.trans h)
        rw [if_neg hne0] at hnext
        rw [← h0, ext2ReadBlock_eq hv (hdata hne0), copy_zeros_diskBlock]
        exact hnext
    · obtain rfl : w = toRead := by omega
      rfl

/-- **Reading a file** returns its contents, up to its end. -/
theorem ext2VfsRead_eq {h size : ℕ} (hv : fs.layout.Serves) (hbs : fs.blockSize = 1024)
    (hon : BlocksOnDisk fs (fs.pool h).inode) (hfit : off + size < 2 ^ 64) :
    ext2VfsRead fs h off size = (contents fs (fs.pool h).inode off
      (min size (iSize (fs.pool h).inode - off)), fs) := by
  have hsum : u64 (off + size) = off + size := Nat.mod_eq_of_lt hfit
  have hlen : readLength (fs.pool h).inode off size =
      min size (iSize (fs.pool h).inode - off) := by
    unfold readLength clampLength
    rw [hsum]
    split_ifs <;> omega
  unfold ext2VfsRead
  dsimp only
  rw [hlen]
  by_cases hoff : off ≤ iSize (fs.pool h).inode
  · exact vfsReadLoop_eq hv hbs hon (by omega) _ (Nat.zero_le _) (by omega)
  · obtain h0 : min size (iSize (fs.pool h).inode - off) = 0 := by omega
    rw [h0]
    rfl

/-! ## Sound volumes -/

/-- Block `n` is marked free. -/
def FreeBlock (fs : Ext2) (n : ℕ) : Prop :=
  ∃ g b, g < fs.groupCount ∧ b < fs.sb.sBlocksPerGroup ∧ entryBit fs .block g b = false ∧
    fs.sb.entryOf g b .block = n

/-- A volume on which blocks can be allocated: what is marked free lies on the disk and holds no
metadata. -/
structure Sound (fs : Ext2) : Prop where
  valid : fs.layout.Valid
  first : 0 < fs.sb.sFirstDataBlock
  free : ∀ n, FreeBlock fs n → fs.layout.OnDisk n ∧ fs.layout.Plain n

/-- The direct blocks of a file are on the disk, outside the metadata, in use and distinct. -/
structure DirectOk (fs : Ext2) (inode : Inode) : Prop where
  onDisk : ∀ i < 12, iBlock inode i ≠ 0 → fs.layout.OnDisk (iBlock inode i)
  plain : ∀ i < 12, iBlock inode i ≠ 0 → fs.layout.Plain (iBlock inode i)
  used : ∀ i < 12, iBlock inode i ≠ 0 → ¬ FreeBlock fs (iBlock inode i)
  inj : ∀ i < 12, ∀ j < 12, iBlock inode i ≠ 0 → iBlock inode i = iBlock inode j → i = j

lemma DirectOk.of_layout (hd : DirectOk fs inode) (hl : fs'.layout = fs.layout)
    (hfree : ∀ n, FreeBlock fs' n → FreeBlock fs n) : DirectOk fs' inode where
  onDisk := by rw [hl]; exact hd.onDisk
  plain := by rw [hl]; exact hd.plain
  used := fun i hi h0 hf => hd.used i hi h0 (hfree _ hf)
  inj := hd.inj

/-- The direct blocks that a file does not have. -/
def holes (inode : Inode) : Finset ℕ := (Finset.range 12).filter fun i => iBlock inode i = 0

lemma entryOf_block (hv : fs.layout.Allocates) (hg : g < fs.groupCount)
    (hb : b < fs.sb.sBlocksPerGroup) :
    fs.sb.entryOf g b .block = g * fs.sb.sBlocksPerGroup + b + fs.sb.sFirstDataBlock := by
  have hfit : fs.groupCount * fs.sb.sBlocksPerGroup + fs.sb.sFirstDataBlock ≤ 2 ^ 32 :=
    hv.blocks_fit
  have hle : g * fs.sb.sBlocksPerGroup + fs.sb.sBlocksPerGroup ≤
      fs.groupCount * fs.sb.sBlocksPerGroup := by
    rw [← Nat.succ_mul]
    exact Nat.mul_le_mul_right _ hg
  exact Nat.mod_eq_of_lt (by omega)

lemma entryOf_take (fs : Ext2) (kind : BitmapKind) (g b g' b' : ℕ) :
    (fs.take kind g b).sb.entryOf g' b' .block = fs.sb.entryOf g' b' .block := by
  have h1 : (fs.take kind g b).sb.sBlocksPerGroup = fs.sb.sBlocksPerGroup :=
    congrArg Layout.blocksPerGroup (take_layout fs kind g b)
  have h2 : (fs.take kind g b).sb.sFirstDataBlock = fs.sb.sFirstDataBlock :=
    congrArg Layout.firstDataBlock (take_layout fs kind g b)
  unfold SuperBlock.entryOf
  dsimp only
  rw [h1, h2]

lemma entryOf_inj {g' b' : ℕ} (hv : fs.layout.Allocates) (hg : g < fs.groupCount)
    (hg' : g' < fs.groupCount) (hb : b < fs.sb.sBlocksPerGroup) (hb' : b' < fs.sb.sBlocksPerGroup)
    (h : fs.sb.entryOf g b .block = fs.sb.entryOf g' b' .block) : g = g' ∧ b = b' := by
  rw [entryOf_block hv hg hb, entryOf_block hv hg' hb'] at h
  have h : b + fs.sb.sBlocksPerGroup * g = b' + fs.sb.sBlocksPerGroup * g' := by
    rw [Nat.mul_comm _ g, Nat.mul_comm _ g']
    omega
  have hd := congrArg (· / fs.sb.sBlocksPerGroup) h
  have hm := congrArg (· % fs.sb.sBlocksPerGroup) h
  simp only [Nat.add_mul_mod_self_left, Nat.mod_eq_of_lt hb, Nat.mod_eq_of_lt hb'] at hm
  simp only [Nat.add_mul_div_left _ _ (Nat.zero_lt_of_lt hb), Nat.div_eq_of_lt hb,
    Nat.div_eq_of_lt hb', Nat.zero_add] at hd
  exact ⟨hd, hm⟩

lemma freeBlock_take (hv : fs.layout.Allocates) (hg : g < fs.groupCount)
    (hb : b < fs.sb.sBlocksPerGroup) (h : FreeBlock (fs.take .block g b) n) :
    FreeBlock fs n ∧ n ≠ fs.sb.entryOf g b .block := by
  obtain ⟨g', b', hg', hb', hbit, hn⟩ := h
  rw [groupCount_take] at hg'
  have hb' : b' < fs.sb.perGroup .block := by
    rw [← perGroup_take fs .block g b]
    exact hb'
  rw [entryBit_take hv hg hg' hb', Bool.or_eq_false_iff, decide_eq_false_iff_not] at hbit
  rw [entryOf_take] at hn
  refine ⟨⟨g', b', hg', hb', hbit.2, hn⟩, fun heq => hbit.1 ?_⟩
  exact entryOf_inj hv hg' hg hb' hb (hn.trans heq)

lemma freeBlock_smallVolume {bytes : ℕ → UInt8} {pool : ℕ → Ext2Node} {c : ℕ}
    (hused : ∀ b < 6, entryBit (smallVolume bytes pool c) .block 0 b = true)
    (hn : FreeBlock (smallVolume bytes pool c) n) : 7 ≤ n ∧ n ≤ 31 := by
  obtain ⟨g, b, hg, hb, hbit, rfl⟩ := hn
  have hg : g < 1 := hg
  have hb : b < 31 := hb
  obtain rfl : g = 0 := by omega
  have hentry : (smallVolume bytes pool c).sb.entryOf 0 b .block = b + 1 := by
    rw [entryOf_block (smallVolume_valid bytes pool c).allocates hg hb]
    exact congrArg (· + 1) (by omega : 0 * 31 + b = b)
  rw [hentry]
  by_cases hlt : b < 6
  · rw [hused b hlt] at hbit
    exact absurd hbit Bool.noConfusion
  · omega

/-- **Allocating a block** of a sound volume: there is none left, or a free one is taken. -/
lemma ext2AllocBlock_cases (hs : Sound fs) :
    (ext2AllocBlock fs = (0, fs) ∧ available fs .block = 0) ∨
      ∃ g b, g < fs.groupCount ∧ b < fs.sb.sBlocksPerGroup ∧
        FreeBlock fs (fs.sb.entryOf g b .block) ∧ fs.sb.entryOf g b .block ≠ 0 ∧
        available (fs.take .block g b) .block + 1 = available fs .block ∧
        ext2AllocBlock fs = (fs.sb.entryOf g b .block, fs.take .block g b) := by
  rcases allocLoop_result hs.valid.allocates .block fs.groupCount 0 (by omega) with
    ⟨h, hfull⟩ | ⟨g, b, -, hg, hb, hfree, hbit, h⟩
  · exact Or.inl ⟨h, available_eq_zero fun g hg => hfull g (by omega) (by omega)⟩
  · have hg : g < fs.groupCount := by omega
    have hfirst := hs.first
    refine Or.inr ⟨g, b, hg, hb, ⟨g, b, hg, hb, hbit, rfl⟩, ?_,
      available_take hs.valid.allocates hg hb hfree hbit, h⟩
    rw [entryOf_block hs.valid.allocates hg hb]
    omega

/-! ## Writing -/

/-- The volume `fs1` with the cached inode `inode1` continues `fs` with `inode`: holes may have
been filled with blocks that were free, and the metadata is as before but for the block
bitmaps. -/
structure Extends (fs : Ext2) (inode : Inode) (fs1 : Ext2) (inode1 : Inode) : Prop where
  sound : Sound fs1
  direct : DirectOk fs1 inode1
  layout : fs1.layout = fs.layout
  pool : fs1.pool = fs.pool
  poolCount : fs1.poolCount = fs.poolCount
  tables : ∀ g s, fs.layout.IsMeta g s → s ≠ 0 →
    diskBlock fs1 (fs.layout.metaBlock g s) = diskBlock fs (fs.layout.metaBlock g s)
  free : ∀ n, FreeBlock fs1 n → FreeBlock fs n
  pointer : ∀ i < 12, iBlock inode1 i = iBlock inode i ∨
    iBlock inode i = 0 ∧ FreeBlock fs (iBlock inode1 i)
  rest : ∀ x, x < 28 ∨ 32 ≤ x ∧ x < 40 ∨ 88 ≤ x → inode1 x = inode x
  count : available fs1 .block + (holes inode).card = available fs .block + (holes inode1).card

lemma Extends.refl (hs : Sound fs) (hd : DirectOk fs inode) : Extends fs inode fs inode where
  sound := hs
  direct := hd
  layout := rfl
  pool := rfl
  poolCount := rfl
  tables := fun _ _ _ _ => rfl
  free := fun _ h => h
  pointer := fun _ _ => Or.inl rfl
  rest := fun _ _ => rfl
  count := rfl

lemma Extends.trans {fs2 : Ext2} {inode2 : Inode} (h : Extends fs inode fs1 inode1)
    (h' : Extends fs1 inode1 fs2 inode2) : Extends fs inode fs2 inode2 where
  sound := h'.sound
  direct := h'.direct
  layout := h'.layout.trans h.layout
  pool := h'.pool.trans h.pool
  poolCount := h'.poolCount.trans h.poolCount
  tables := by
    intro g s hm hs
    have hm' : fs1.layout.IsMeta g s := by rwa [h.layout]
    rw [← h.tables g s hm hs, ← h.layout]
    exact h'.tables g s hm' hs
  free := fun n hn => h.free n (h'.free n hn)
  pointer := by
    intro i hi
    rcases h'.pointer i hi with heq | ⟨h0, hfree⟩
    · rw [heq]
      exact h.pointer i hi
    · refine Or.inr ⟨?_, h.free _ hfree⟩
      rcases h.pointer i hi with heq | ⟨h0', -⟩
      · rw [← heq, h0]
      · exact h0'
  rest := fun x hx => (h'.rest x hx).trans (h.rest x hx)
  count := by
    have h1 := h.count
    have h2 := h'.count
    omega

lemma freeBlock_congr (hl : fs1.layout = fs.layout)
    (hmap : ∀ g < fs.groupCount, diskBlock fs1 (fs.layout.metaBlock g 0) =
      diskBlock fs (fs.layout.metaBlock g 0)) : FreeBlock fs1 n ↔ FreeBlock fs n := by
  have hgc : fs1.groupCount = fs.groupCount := congrArg Layout.groupCount hl
  have hbpg : fs1.sb.sBlocksPerGroup = fs.sb.sBlocksPerGroup := congrArg Layout.blocksPerGroup hl
  have hfirst : fs1.sb.sFirstDataBlock = fs.sb.sFirstDataBlock := congrArg Layout.firstDataBlock hl
  have hentry : ∀ g b, fs1.sb.entryOf g b .block = fs.sb.entryOf g b .block := by
    intro g b
    unfold SuperBlock.entryOf
    dsimp only
    rw [hbpg, hfirst]
  have hbit : ∀ g < fs.groupCount, ∀ b, entryBit fs1 .block g b = entryBit fs .block g b := by
    intro g hg b
    unfold entryBit
    rw [bitmapBlock_eq, bitmapBlock_eq, hl]
    exact congrArg (fun m => bitAt m b) (hmap g hg)
  unfold FreeBlock
  rw [hgc, hbpg]
  refine exists_congr fun g => exists_congr fun b => ?_
  rw [hentry]
  refine and_congr_right fun hg => ?_
  rw [hbit g hg]

lemma Extends.putBlock (h : Extends fs inode fs1 inode1) (hn : fs.layout.Plain n)
    (buf : ℕ → UInt8) : Extends fs inode (fs1.putBlock n buf) inode1 := by
  have hmeta : ∀ g s, fs.layout.IsMeta g s → diskBlock (fs1.putBlock n buf) (fs.layout.metaBlock g s) =
      diskBlock fs1 (fs.layout.metaBlock g s) := fun g s hm =>
    diskBlock_putBlock_of_ne (hn g s hm)
  have hmap : ∀ g < fs1.groupCount, diskBlock (fs1.putBlock n buf) (fs1.layout.metaBlock g 0) =
      diskBlock fs1 (fs1.layout.metaBlock g 0) := by
    intro g hg
    rw [h.layout]
    refine hmeta g 0 ⟨?_, by omega⟩
    rw [← h.layout]
    exact hg
  have hfree : ∀ m, FreeBlock (fs1.putBlock n buf) m ↔ FreeBlock fs1 m := fun m =>
    freeBlock_congr rfl hmap
  have hav : available (fs1.putBlock n buf) .block = available fs1 .block := by
    refine Finset.sum_congr rfl fun g hg => ?_
    have hc : clearBits (fs1.putBlock n buf) .block g = clearBits fs1 .block g := by
      refine Finset.filter_congr fun b _ => ?_
      unfold entryBit
      rw [show ((fs1.putBlock n buf).bgds g).bitmapBlock .block = fs1.layout.metaBlock g 0 from rfl,
        hmap g (Finset.mem_range.mp hg)]
      rfl
    rw [hc]
    rfl
  exact {
    sound := ⟨h.sound.valid, h.sound.first, fun m hm => h.sound.free m ((hfree m).mp hm)⟩
    direct := ⟨h.direct.onDisk, h.direct.plain,
      fun i hi h0 hf => h.direct.used i hi h0 ((hfree _).mp hf), h.direct.inj⟩
    layout := h.layout
    pool := h.pool
    poolCount := h.poolCount
    tables := fun g s hm hs => (hmeta g s hm).trans (h.tables g s hm hs)
    free := fun m hm => h.free m ((hfree m).mp hm)
    pointer := h.pointer
    rest := h.rest
    count := by rw [hav]; exact h.count }

lemma Extends.withBuf (h : Extends fs inode fs1 inode1) (buf : ℕ → UInt8) :
    Extends fs inode { fs1 with writeBuf := buf } inode1 where
  sound := ⟨h.sound.valid, h.sound.first, h.sound.free⟩
  direct := ⟨h.direct.onDisk, h.direct.plain, h.direct.used, h.direct.inj⟩
  layout := h.layout
  pool := h.pool
  poolCount := h.poolCount
  tables := h.tables
  free := h.free
  pointer := h.pointer
  rest := h.rest
  count := h.count

/-- The cached inode with another direct block. -/
def withBlock (inode : Inode) (i n c : ℕ) : Inode := setBlocks (setBlock inode i n) c

lemma iBlock_withBlock_self {c : ℕ} (hn : n < 2 ^ 32) : iBlock (withBlock inode i n c) i = n := by
  rw [withBlock, iBlock_setBlocks, iBlock_setBlock_self hn]

lemma iBlock_withBlock_of_ne {c : ℕ} (h : j ≠ i) :
    iBlock (withBlock inode i n c) j = iBlock inode j := by
  rw [withBlock, iBlock_setBlocks, iBlock_setBlock_of_ne h]

lemma card_holes_withBlock {c : ℕ} (hn : n < 2 ^ 32) (hn0 : n ≠ 0) (hi : i < 12)
    (h0 : iBlock inode i = 0) : (holes (withBlock inode i n c)).card + 1 = (holes inode).card := by
  have hmem : i ∈ holes inode := Finset.mem_filter.mpr ⟨Finset.mem_range.mpr hi, h0⟩
  have heq : holes (withBlock inode i n c) = (holes inode).erase i := by
    ext j
    unfold holes
    rw [Finset.mem_filter, Finset.mem_erase, Finset.mem_filter]
    by_cases hj : j = i
    · rw [hj, iBlock_withBlock_self hn]
      simp [hn0]
    · rw [iBlock_withBlock_of_ne hj]
      simp [hj]
  have hpos := Finset.card_pos.mpr ⟨i, hmem⟩
  rw [heq, Finset.card_erase_of_mem hmem]
  omega

lemma Extends.take {c : ℕ} (hs : Sound fs) (hd : DirectOk fs inode) (hi : i < 12)
    (h0 : iBlock inode i = 0) (hg : g < fs.groupCount) (hb : b < fs.sb.sBlocksPerGroup)
    (hfree : FreeBlock fs (fs.sb.entryOf g b .block)) (hne : fs.sb.entryOf g b .block ≠ 0)
    (hav : available (fs.take .block g b) .block + 1 = available fs .block) :
    Extends fs inode (fs.take .block g b) (withBlock inode i (fs.sb.entryOf g b .block) c) := by
  have hsub : ∀ m, FreeBlock (fs.take .block g b) m → FreeBlock fs m ∧
      m ≠ fs.sb.entryOf g b .block := fun m hm => freeBlock_take hs.valid.allocates hg hb hm
  have hl := take_layout fs .block g b
  have htables : ∀ g' s, fs.layout.IsMeta g' s → s ≠ 0 →
      diskBlock (fs.take .block g b) (fs.layout.metaBlock g' s) =
        diskBlock fs (fs.layout.metaBlock g' s) := by
    intro g' s hm hs0
    refine diskBlock_take_of_ne fun h => hs0 ?_
    rw [bitmapBlock_eq] at h
    exact (hs.valid.meta_inj hm (isMeta_slot hg) h).2
  obtain ⟨hon, hplain⟩ := hs.free _ hfree
  have hfirst : (fs.take .block g b).sb.sFirstDataBlock = fs.sb.sFirstDataBlock :=
    congrArg Layout.firstDataBlock hl
  have hlt : fs.sb.entryOf g b .block < 2 ^ 32 := Nat.mod_lt _ (by norm_num)
  have hcard := card_holes_withBlock (c := c) hlt hne hi h0
  generalize fs.sb.entryOf g b .block = n at *
  have hblock : ∀ j < 12, j ≠ i → iBlock (withBlock inode i n c) j = iBlock inode j :=
    fun j _ hj => iBlock_withBlock_of_ne hj
  have hself : iBlock (withBlock inode i n c) i = n := iBlock_withBlock_self hlt
  exact {
    sound := ⟨by rw [hl]; exact hs.valid, by rw [hfirst]; exact hs.first, fun m hm => by
      rw [hl]
      exact hs.free m (hsub m hm).1⟩
    direct := by
      refine ⟨fun j hj => ?_, fun j hj => ?_, fun j hj => ?_, fun j hj k hk => ?_⟩
      · rw [hl]
        by_cases hji : j = i
        · rw [hji, hself]
          exact fun _ => hon
        · rw [hblock j hj hji]
          exact hd.onDisk j hj
      · rw [hl]
        by_cases hji : j = i
        · rw [hji, hself]
          exact fun _ => hplain
        · rw [hblock j hj hji]
          exact hd.plain j hj
      · by_cases hji : j = i
        · rw [hji, hself]
          exact fun _ hf => (hsub n hf).2 rfl
        · rw [hblock j hj hji]
          exact fun hj0 hf => hd.used j hj hj0 (hsub _ hf).1
      · by_cases hji : j = i
        · by_cases hki : k = i
          · exact fun _ _ => hji.trans hki.symm
          · rw [hji, hself, hblock k hk hki]
            exact fun hn0 heq => absurd hfree (heq ▸ hd.used k hk (heq ▸ hn0))
        · rw [hblock j hj hji]
          by_cases hki : k = i
          · rw [hki, hself]
            exact fun hj0 heq => absurd hfree (heq ▸ hd.used j hj hj0)
          · rw [hblock k hk hki]
            exact hd.inj j hj k hk
    layout := hl
    pool := take_pool ..
    poolCount := take_poolCount ..
    tables := htables
    free := fun m hm => (hsub m hm).1
    pointer := by
      intro j hj
      by_cases hji : j = i
      · rw [hji, hself]
        exact Or.inr ⟨h0, hfree⟩
      · exact Or.inl (hblock j hj hji)
    rest := by
      intro x hx
      unfold withBlock setBlocks setBlock
      rw [putLe_apply_of_not_mem (by omega), putLe_apply_of_not_mem (by omega)]
    count := by omega }

/-- What the first part of a turn leaves: the block to write exists and its contents are in the
buffer. -/
structure Prepared (fs : Ext2) (inode : Inode) (i : ℕ) (fs1 : Ext2) (inode1 : Inode) : Prop
    extends Extends fs inode fs1 inode1 where
  plainSame : ∀ n, fs.layout.Plain n → diskBlock fs1 n = diskBlock fs n
  block : iBlock inode1 i ≠ 0
  others : ∀ j, j ≠ i → iBlock inode1 j = iBlock inode j
  same : iBlock inode i ≠ 0 → inode1 = inode
  buffer : ∀ y < 1024, fs1.writeBuf y =
    if iBlock inode i = 0 then 0 else diskBlock fs (iBlock inode i) y

/-- **The first part of a turn**: the disk is full, or the block is prepared. -/
lemma writePrepare_cases (hs : Sound fs) (hd : DirectOk fs inode) (hi : i < 12) :
    (iBlock inode i = 0 ∧ available fs .block = 0 ∧ writePrepare fs inode i = (none, fs)) ∨
      ∃ fs1 inode1 r, writePrepare fs inode i = (some (inode1, fs1), r) ∧
        Prepared fs inode i fs1 inode1 := by
  have hbs : fs.blockSize = 1024 := hs.valid.blockSize
  unfold writePrepare
  by_cases h0 : iBlock inode i = 0
  · rw [if_pos h0]
    rcases ext2AllocBlock_cases hs with ⟨ha, hav⟩ | ⟨g, b, hg, hb, hfree, hne, hav, ha⟩
    · rw [ha]
      exact Or.inl ⟨h0, hav, rfl⟩
    · rw [ha]
      dsimp only
      rw [if_neg hne]
      refine Or.inr ⟨_, _, _, rfl, ⟨(Extends.take hs hd hi h0 hg hb hfree hne hav).withBuf _,
        fun m hm => ?_, ?_, fun j hj => iBlock_withBlock_of_ne hj, fun h => absurd h0 h,
        fun y hy => ?_⟩⟩
      · refine diskBlock_take_of_ne ?_
        rw [bitmapBlock_eq]
        exact (hm _ _ (isMeta_slot hg)).symm
      · have hlt : fs.sb.entryOf g b .block < 2 ^ 32 := Nat.mod_lt _ (by norm_num)
        exact (iBlock_withBlock_self hlt).trans_ne hne
      · rw [if_pos h0, hbs]
        exact fill_apply_of_mem (by omega) (by omega)
  · rw [if_neg h0]
    dsimp only
    rw [ext2ReadBlock_eq hs.valid.serves (hd.onDisk i hi h0)]
    refine Or.inr ⟨_, _, _, rfl, ⟨(Extends.refl hs hd).withBuf _, fun m hm => rfl, h0,
      fun j hj => rfl, fun _ => rfl, fun y hy => ?_⟩⟩
    rw [if_neg h0]
    exact copy_zero_apply (by rwa [hbs])

lemma fileByte_direct {x : ℕ} (hbs : fs.blockSize = 1024) (hx : x < 12288) :
    fileByte fs inode x = if iBlock inode (x / 1024) = 0 then 0
      else diskBlock fs (iBlock inode (x / 1024)) (x % 1024) := by
  have hblock : fileBlock fs inode (x / 1024) = iBlock inode (x / 1024) := by
    unfold fileBlock
    exact if_pos (by omega)
  rw [fileByte, hbs, hblock]

/-- What holds when `w` bytes of `data` have been written at `off`, from the volume `fs` with the
cached inode `inode` on. -/
structure Written (fs : Ext2) (inode : Inode) (off : ℕ) (data : List UInt8) (w : ℕ) (fs1 : Ext2)
    (inode1 : Inode) : Prop extends Extends fs inode fs1 inode1 where
  bytes : ∀ x < 12288, fileByte fs1 inode1 x =
    if off ≤ x ∧ x < off + w then data.getD (x - off) 0 else fileByte fs inode x
  frame : ∀ n, fs.layout.Plain n → ¬ FreeBlock fs n → (∀ i < 12, iBlock inode i ≠ n) →
    diskBlock fs1 n = diskBlock fs n
  same : (∀ i < 12, off < (i + 1) * 1024 → i * 1024 < off + w → iBlock inode i ≠ 0) →
    inode1 = inode

lemma Written.zero (hs : Sound fs) (hd : DirectOk fs inode) : Written fs inode off data 0 fs inode where
  toExtends := .refl hs hd
  bytes := fun x _ => (if_neg (by omega)).symm
  frame := fun _ _ _ _ => rfl
  same := fun _ => rfl

section Turn

variable {fs2 : Ext2} {inode2 : Inode} {c : ℕ} {buf : ℕ → UInt8}
  (h : Written fs inode off data w fs1 inode1) (hi : (off + w) / 1024 < 12)
  (hp : Prepared fs1 inode1 ((off + w) / 1024) fs2 inode2)
  (hc : (off + w) % 1024 + c ≤ 1024)
  (hbuf : buf = copy fs2.writeBuf ((off + w) % 1024) (fun x => data.getD x 0) w c)
include h hi hp hc hbuf

lemma Written.turn_bytes {x : ℕ} (hx : x < 12288) :
    fileByte ({ fs2 with writeBuf := buf }.putBlock (iBlock inode2 ((off + w) / 1024)) buf) inode2 x =
      if off ≤ x ∧ x < off + (w + c) then data.getD (x - off) 0 else fileByte fs inode x := by
  have hbs1 : fs1.blockSize = 1024 := h.sound.valid.blockSize
  have hbs2 : fs2.blockSize = 1024 := hp.sound.valid.blockSize
  have hold := h.bytes x hx
  rw [fileByte_direct hbs1 hx] at hold
  refine (fileByte_direct (by exact hbs2) hx).trans ?_
  by_cases hxi : x / 1024 = (off + w) / 1024
  · -- the block of the turn
    have hy : x % 1024 < 1024 := Nat.mod_lt _ (by norm_num)
    rw [hxi] at hold ⊢
    rw [if_neg hp.block, diskBlock_putBlock_self, copy_zero_apply (by
      change x % 1024 < fs2.blockSize
      rwa [hbs2]), hbuf]
    by_cases hin : (off + w) % 1024 ≤ x % 1024 ∧ x % 1024 < (off + w) % 1024 + c
    · rw [if_pos (by omega)]
      unfold copy
      rw [if_pos hin, show w + (x % 1024 - (off + w) % 1024) = x - off by omega]
    · unfold copy
      rw [if_neg hin, hp.buffer _ hy, hold]
      by_cases hw : off ≤ x ∧ x < off + w
      · rw [if_pos hw, if_pos (by omega)]
      · rw [if_neg hw, if_neg (by omega)]
  · -- another block
    have hsame : (if iBlock inode2 (x / 1024) = 0 then 0 else
        diskBlock ({ fs2 with writeBuf := buf }.putBlock (iBlock inode2 ((off + w) / 1024)) buf)
          (iBlock inode2 (x / 1024)) (x % 1024)) =
        if iBlock inode1 (x / 1024) = 0 then 0
          else diskBlock fs1 (iBlock inode1 (x / 1024)) (x % 1024) := by
      have hne : iBlock inode2 (x / 1024) ≠ 0 →
          iBlock inode2 (x / 1024) ≠ iBlock inode2 ((off + w) / 1024) := fun h0 heq =>
        hxi (hp.direct.inj _ (by omega) _ hi h0 heq)
      rw [hp.others _ hxi] at hne ⊢
      split_ifs with h0
      · rfl
      · rw [diskBlock_putBlock_of_ne (hne h0)]
        exact congrFun (hp.plainSame _ (h.direct.plain _ (by omega) h0)) _
    rw [hsame, hold]
    by_cases hw : off ≤ x ∧ x < off + w
    · rw [if_pos hw, if_pos (by omega)]
    · rw [if_neg hw, if_neg (by omega)]

/-- **One turn** of the loop of `ext2_vfs_write`. -/
lemma Written.turn (hc0 : 0 < c) : Written fs inode off data (w + c)
    ({ fs2 with writeBuf := buf }.putBlock (iBlock inode2 ((off + w) / 1024)) buf) inode2 := by
  have hext := h.toExtends.trans hp.toExtends
  have hplain : fs.layout.Plain (iBlock inode2 ((off + w) / 1024)) := by
    rw [← hext.layout]
    exact hp.direct.plain _ hi hp.block
  refine ⟨(hext.withBuf buf).putBlock hplain buf, fun x hx => h.turn_bytes hi hp hc hbuf hx,
    fun n hn hused hptr => ?_, fun hall => ?_⟩
  · have hne : n ≠ iBlock inode2 ((off + w) / 1024) := by
      rcases hext.pointer _ hi with heq | ⟨-, hfree⟩
      · rw [heq]
        exact (hptr _ hi).symm
      · exact fun heq => hused (heq ▸ hfree)
    rw [diskBlock_putBlock_of_ne hne, ← h.frame n hn hused hptr]
    exact hp.plainSame n (by rwa [h.layout])
  · have hsame := h.same fun i hi12 h1 h2 => hall i hi12 h1 (by omega)
    have h0 := hall _ hi (by omega) (by omega)
    rw [← hsame] at h0 ⊢
    exact hp.same h0

end Turn

/-- **The loop of `ext2_vfs_write`** stops when everything has been written, at the end of the
direct blocks, or when there is no block for a hole. -/
lemma vfsWriteLoop_spec (hfit : off + data.length < 2 ^ 42) (fuel : ℕ)
    (h : Written fs inode off data w fs1 inode1) (hw : w ≤ data.length)
    (hfuel : data.length - w ≤ fuel) :
    ∃ fs2 inode2 w', vfsWriteLoop off data fuel fs1 inode1 w = (fs2, inode2, w') ∧
      w ≤ w' ∧ w' ≤ data.length ∧ Written fs inode off data w' fs2 inode2 ∧
      (w' < data.length → 12 ≤ (off + w') / 1024 ∨
        iBlock inode2 ((off + w') / 1024) = 0 ∧ available fs2 .block = 0) := by
  induction fuel generalizing w fs1 inode1 with
  | zero => exact ⟨fs1, inode1, w, rfl, le_rfl, hw, h, fun hlt => absurd hlt (by omega)⟩
  | succ fuel ih =>
    rw [vfsWriteLoop]
    by_cases hlt : w < data.length
    · have hbs : fs1.blockSize = 1024 := h.sound.valid.blockSize
      have hpos : u64 (off + w) = off + w := Nat.mod_eq_of_lt (by omega)
      have hblk : u32 ((off + w) / 1024) = (off + w) / 1024 := Nat.mod_eq_of_lt (by omega)
      have hin : u32 ((off + w) % 1024) = (off + w) % 1024 := Nat.mod_eq_of_lt (by omega)
      rw [if_pos hlt]
      dsimp only
      rw [hpos, hbs, hblk, hin]
      by_cases hi : (off + w) / 1024 < 12
      · rw [if_pos hi]
        rcases writePrepare_cases h.sound h.direct hi with
          ⟨h0, hav, hprep⟩ | ⟨fs2, inode2, r, hprep, hp⟩
        · rw [hprep]
          exact ⟨fs1, inode1, w, rfl, le_rfl, hw, h, fun _ => Or.inr ⟨h0, hav⟩⟩
        · rw [hprep]
          dsimp only
          have hturn := h.turn hi hp (c := min (1024 - (off + w) % 1024) (data.length - w))
            (by omega) rfl (by omega)
          rw [ext2WriteBlock_eq (by exact hp.sound.valid.serves)
            (by exact hp.direct.onDisk _ hi hp.block)]
          obtain ⟨fs3, inode3, w', heq, h1, h2, h3⟩ := ih hturn (by omega) (by omega)
          exact ⟨fs3, inode3, w', heq, by omega, h2, h3⟩
      · rw [if_neg hi]
        exact ⟨fs1, inode1, w, rfl, le_rfl, hw, h, fun _ => Or.inl (by omega)⟩
    · rw [if_neg hlt]
      exact ⟨fs1, inode1, w, rfl, le_rfl, hw, h, fun hlt' => absurd hlt' hlt⟩

/-- **Writing a file**: what the loop has written, and the inode with the new size on the disk if
the file has grown. -/
theorem ext2VfsWrite_cases {h : ℕ} (hs : Sound fs) (hd : DirectOk fs (fs.pool h).inode)
    (hino : fs.layout.HasInode (fs.pool h).ino) (hfit : off + data.length < 2 ^ 32) :
    ∃ fs1 inode1 w, vfsWriteLoop off data data.length fs (fs.pool h).inode 0 = (fs1, inode1, w) ∧
      w ≤ data.length ∧ Written fs (fs.pool h).inode off data w fs1 inode1 ∧
      (w < data.length → 12 ≤ (off + w) / 1024 ∨
        iBlock inode1 ((off + w) / 1024) = 0 ∧ available fs1 .block = 0) ∧
      ext2VfsWrite fs h off data = (w,
        if iSize (fs.pool h).inode < off + w then
          (fs1.setNode h { fs.pool h with
            inode := setSize inode1 (off + w), size := off + w }).putInode (fs.pool h).ino
            (setSize inode1 (off + w))
        else fs1.setNode h { fs.pool h with inode := inode1 }) := by
  have hzero : Written fs (fs.pool h).inode off data 0 fs (fs.pool h).inode := .zero hs hd
  obtain ⟨fs1, inode1, w, heq, -, hw, hwr, hstop⟩ :=
    vfsWriteLoop_spec (by omega) data.length hzero (Nat.zero_le _) (by omega)
  refine ⟨fs1, inode1, w, heq, hw, hwr, hstop, ?_⟩
  have hsize : iSize inode1 = iSize (fs.pool h).inode :=
    le_congr fun x h1 h2 => hwr.rest x (Or.inl (by omega))
  have hpos : u64 (off + w) = off + w := Nat.mod_eq_of_lt (by omega)
  unfold ext2VfsWrite
  dsimp only
  rw [heq]
  dsimp only
  rw [hpos, hsize]
  split_ifs with hgrow
  · rw [iSize_setSize (by omega), ext2WriteInode_eq (by exact hwr.sound.valid.tables) (by
      change fs1.layout.HasInode _
      rwa [hwr.layout])]
  · rfl

end Bangos.Fs
