import Bangos.Fs.Ext2File

/-!
# Volumes on a device that may fail

Whatever the device does with a request, the volume keeps its geometry (`Ext2.shape`), a read
changes nothing but the outcomes to come, and a write puts the first sectors of the buffer into
its block (`Ext2.putPart`).  Allocation sets a bit of a bitmap or leaves it clear, when the write
of the bitmap has failed; it never clears one.
-/

namespace Bangos.Fs

open ByteMem Bangos.Drivers Bangos.Mm

variable {fs fs' : Ext2} {n k g b t : ℕ} {buf : ℕ → UInt8}

/-! ## Requests -/

/-- The layout of a volume, as if its device worked. -/
def Ext2.shape (fs : Ext2) : Layout := { fs.layout with outcomes := fun _ => none }

/-- The device succeeds with the next request, for block `n`. -/
def Ext2.answers (fs : Ext2) (n : ℕ) : Bool :=
  (fs.dev.transfer (n * fs.sectorsPerBlock) fs.sectorsPerBlock).1

/-- The number of bytes that are transferred by the next request, for block `n`. -/
def Ext2.moved (fs : Ext2) (n : ℕ) : ℕ :=
  (fs.dev.transfer (n * fs.sectorsPerBlock) fs.sectorsPerBlock).2 * fs.dev.sectorSize

/-- The volume after a request that has changed nothing. -/
def Ext2.next (fs : Ext2) : Ext2 := { fs with dev := fs.dev.answered }

lemma transfer_le (d : BlockDev) (lba count : ℕ) : (d.transfer lba count).2 ≤ count := by
  unfold BlockDev.transfer
  split_ifs
  · exact Nat.zero_le _
  · split
    · exact le_rfl
    · exact Nat.min_le_right _ _

lemma transfer_of_success {d : BlockDev} {lba count : ℕ} (h : (d.transfer lba count).1 = true) :
    (d.transfer lba count).2 = count := by
  unfold BlockDev.transfer at h ⊢
  split_ifs at h ⊢
  split at h
  · rfl
  · cases h

section Serves

variable (hs : fs.shape.Serves)
include hs

lemma moved_le (n : ℕ) : fs.moved n ≤ fs.blockSize := by
  have hsec : fs.sectorsPerBlock * fs.dev.sectorSize = fs.blockSize := hs.sectors
  rw [← hsec]
  exact Nat.mul_le_mul_right _ (transfer_le _ _ _)

lemma moved_of_answers (h : fs.answers n = true) : fs.moved n = fs.blockSize := by
  have hsec : fs.sectorsPerBlock * fs.dev.sectorSize = fs.blockSize := hs.sectors
  rw [Ext2.moved, transfer_of_success h, hsec]

/-- **Reading a block** of any device. -/
lemma ext2ReadBlock_any (n : ℕ) (buf : ℕ → UInt8) :
    ext2ReadBlock fs n buf =
      (fs.answers n, copy buf 0 (diskBlock fs n) 0 (fs.moved n), fs.next) := by
  have hsec : fs.sectorsPerBlock * fs.dev.sectorSize = fs.blockSize := hs.sectors
  have hle := moved_le hs n
  have hcopy : copy buf 0 fs.dev.bytes (n * fs.blockSize) (fs.moved n) =
      copy buf 0 (diskBlock fs n) 0 (fs.moved n) := by
    funext x
    by_cases hx : x < fs.moved n
    · rw [copy_zero_apply hx, diskBlock_apply (hx.trans_le hle)]
      exact (congrArg _ (Nat.zero_add x)).symm.trans (copy_apply_of_mem hx)
    · rw [copy_apply_of_not_mem (by omega), copy_apply_of_not_mem (by omega)]
  rw [← hcopy, ← hsec, ← Nat.mul_assoc]
  rfl

lemma copy_of_answers (h : fs.answers n = true) :
    copy zeros 0 (diskBlock fs n) 0 (fs.moved n) = diskBlock fs n := by
  rw [moved_of_answers hs h, copy_zeros_diskBlock]

/-- **Writing a block** of any device. -/
lemma ext2WriteBlock_any (n : ℕ) (buf : ℕ → UInt8) :
    ext2WriteBlock fs n buf = (fs.answers n, (fs.putPart n buf (fs.moved n)).next) := by
  have hsec : fs.sectorsPerBlock * fs.dev.sectorSize = fs.blockSize := hs.sectors
  have hbytes : copy fs.dev.bytes (n * fs.blockSize) buf 0 (fs.moved n) =
      copy fs.dev.bytes (n * fs.sectorsPerBlock * fs.dev.sectorSize) buf 0 (fs.moved n) := by
    rw [← hsec, Nat.mul_assoc]
  unfold Ext2.putPart
  rw [hbytes]
  rfl

end Serves

/-! ## Allocation -/

/-- What the allocation of a block may do: it gives a free block, or none, and sets bits of the
block bitmaps. -/
structure Allocated (fs : Ext2) (r : ℕ) (fs' : Ext2) : Prop where
  shape : fs'.shape = fs.shape
  pool : fs'.pool = fs.pool
  poolCount : fs'.poolCount = fs.poolCount
  writeBuf : fs'.writeBuf = fs.writeBuf
  others : ∀ n, (∀ g < fs.groupCount, fs.shape.blockBitmap g ≠ n) → diskBlock fs' n = diskBlock fs n
  bits : ∀ g b, entryBit fs .block g b = true → entryBit fs' .block g b = true
  free : r ≠ 0 → FreeBlock fs r

lemma Allocated.none (fs : Ext2) : Allocated fs 0 fs :=
  ⟨rfl, rfl, rfl, rfl, fun _ _ => rfl, fun _ _ h => h, fun h => absurd rfl h⟩

lemma Allocated.of_next {r : ℕ} (h : Allocated fs.next r fs') : Allocated fs r fs' :=
  ⟨h.shape, h.pool, h.poolCount, h.writeBuf, h.others, h.bits, h.free⟩

lemma bitAt_copy_setBitAt {m : ℕ → UInt8} {i : ℕ} (h : bitAt m i = true) :
    bitAt (copy m 0 (setBitAt m b) 0 t) i = true := by
  by_cases hi : i / 8 < t
  · rw [bitAt_congr (copy_zero_apply hi), bitAt_setBitAt, h, Bool.or_true]
  · rw [bitAt_congr (copy_apply_of_not_mem (by omega)), h]

lemma bitmapBlock_of_shape (h : fs'.shape = fs.shape) (g : ℕ) :
    (fs'.bgds g).bgBlockBitmap = (fs.bgds g).bgBlockBitmap :=
  congrFun (congrArg Layout.blockBitmap h) g

lemma countTaken_shape (fs : Ext2) (g : ℕ) (kind : BitmapKind) :
    (fs.countTaken g kind).shape = fs.shape := by
  rw [Ext2.shape, countTaken_layout, Ext2.shape]

lemma Allocated.take (ht : t ≤ fs.blockSize) (hg : g < fs.groupCount)
    (hb : b < fs.sb.sBlocksPerGroup) (hbit : entryBit fs .block g b = false) :
    Allocated fs (fs.sb.entryOf g b .block) ((fs.putPart (fs.bgds g).bgBlockBitmap
      (setBitAt (diskBlock fs (fs.bgds g).bgBlockBitmap) b) t).next.countTaken g .block) where
  shape := countTaken_shape _ _ _
  pool := rfl
  poolCount := rfl
  writeBuf := rfl
  others := by
    intro n hn
    rw [countTaken_diskBlock]
    exact diskBlock_putPart_of_ne ht (hn g hg).symm
  bits := by
    intro g' b' h'
    unfold entryBit at h' ⊢
    have hshape := bitmapBlock_of_shape (countTaken_shape (fs.putPart (fs.bgds g).bgBlockBitmap
      (setBitAt (diskBlock fs (fs.bgds g).bgBlockBitmap) b) t).next g .block) g'
    rw [countTaken_diskBlock, GroupDesc.bitmapBlock, hshape]
    change bitAt (diskBlock (fs.putPart _ _ t) (fs.bgds g').bgBlockBitmap) b' = true
    by_cases heq : (fs.bgds g').bgBlockBitmap = (fs.bgds g).bgBlockBitmap
    · rw [GroupDesc.bitmapBlock, heq] at h'
      rw [heq, diskBlock_putPart_self ht]
      exact bitAt_copy_setBitAt h'
    · rw [diskBlock_putPart_of_ne ht heq]
      exact h'
  free := fun _ => ⟨g, b, hg, hb, hbit, rfl⟩

/-- **Allocation** on any device. -/
theorem allocLoop_any (hs : fs.shape.Serves) (n bg : ℕ) (hn : bg + n ≤ fs.groupCount) :
    Allocated fs (allocLoop .block n bg fs).1 (allocLoop .block n bg fs).2 := by
  induction n generalizing bg fs with
  | zero => exact .none fs
  | succ n ih =>
    have hs' : fs.next.shape.Serves := hs
    have hn' : bg + 1 + n ≤ fs.next.groupCount := by change bg + 1 + n ≤ fs.groupCount; omega
    have hnext : Allocated fs (allocLoop .block n (bg + 1) fs.next).1 _ :=
      (ih hs' (bg + 1) hn').of_next
    rw [allocLoop]
    split_ifs with h0
    · exact ih hs (bg + 1) (by omega)
    rw [ext2ReadBlock_any hs]
    by_cases hans : fs.answers ((fs.bgds bg).bitmapBlock .block) = true
    · rw [hans, copy_of_answers hs hans]
      dsimp only
      split
      · exact hnext
      · rename_i b hfind
        have hb := List.mem_range.mp (List.mem_of_find?_eq_some hfind)
        have hbit : entryBit fs .block bg b = false := by
          simpa [entryBit] using List.find?_some hfind
        rw [ext2WriteBlock_any hs']
        exact Allocated.of_next (Allocated.take (moved_le hs' _)
          (by change bg < fs.groupCount; omega) hb hbit)
    · rw [Bool.not_eq_true] at hans
      rw [hans]
      exact hnext

lemma freeBlock_of_bits (hshape : fs'.shape = fs.shape)
    (hbits : ∀ g < fs.groupCount, ∀ b, entryBit fs .block g b = true →
      entryBit fs' .block g b = true)
    (h : FreeBlock fs' n) : FreeBlock fs n := by
  obtain ⟨g, b, hg, hb, hbit, rfl⟩ := h
  have hgc : fs'.groupCount = fs.groupCount := congrArg Layout.groupCount hshape
  have hbpg : fs'.sb.sBlocksPerGroup = fs.sb.sBlocksPerGroup := congrArg Layout.blocksPerGroup hshape
  have hfirst : fs'.sb.sFirstDataBlock = fs.sb.sFirstDataBlock :=
    congrArg Layout.firstDataBlock hshape
  refine ⟨g, b, hgc ▸ hg, hbpg ▸ hb, ?_, ?_⟩
  · rw [← Bool.not_eq_true] at hbit ⊢
    exact fun h => hbit (hbits g (hgc ▸ hg) b h)
  · unfold SuperBlock.entryOf
    dsimp only
    rw [hbpg, hfirst]

end Bangos.Fs
