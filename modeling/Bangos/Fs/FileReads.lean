import Bangos.Fs.BlockMap
import Bangos.Fs.Ext2Mount
import Bangos.Fs.TarfsVfs

/-!
# What a read returns

On a volume with 1024-byte blocks `ext2_vfs_read` returns the bytes that the block map of ext2
gives to the positions of the file, up to its end.  The block map has three levels of tables; the
code has the first two, which are enough for files of up to 65804 blocks.

`ext2_vfs_read` and `tarfs_vfs_read` cut a request off at the end of the file by comparing
`offset + size` with the size of the file.  The sum is taken in 64 bits: when it wraps around, the
request is not cut off, and the read runs past the end of the file.
-/

namespace Bangos.Fs

open ByteMem Bangos.Drivers Bangos.Mm

variable {fs : Ext2} {inode : Inode} {b n off size w : ℕ}

/-! ## The block map of ext2 -/

/-- The block with the contents of block `b` of a file with 1024-byte blocks, or 0: twelve direct
pointers, and tables of 256 pointers that are reached in one, two or three steps. -/
def blockMap (fs : Ext2) (inode : Inode) (b : ℕ) : ℕ :=
  if b < 12 then iBlock inode b
  else if b < 12 + 256 then ptr fs (iBlock inode 12) (b - 12)
  else if b < 12 + 256 + 256 ^ 2 then
    let c := b - (12 + 256)
    ptr fs (ptr fs (iBlock inode 13) (c / 256)) (c % 256)
  else
    let c := b - (12 + 256 + 256 ^ 2)
    ptr fs (ptr fs (ptr fs (iBlock inode 14) (c / 256 ^ 2)) (c / 256 % 256)) (c % 256)

/-- The byte of the file at position `x`; a file without a block there has a zero. -/
def mappedByte (fs : Ext2) (inode : Inode) (x : ℕ) : UInt8 :=
  if blockMap fs inode (x / 1024) = 0 then 0
  else diskBlock fs (blockMap fs inode (x / 1024)) (x % 1024)

/-- With 1024-byte blocks this is the block map of `mapBlock`. -/
lemma blockMap_eq_mapBlock (hbs : fs.blockSize = 1024) (inode : Inode) (b : ℕ) :
    blockMap fs inode b = mapBlock fs inode b := by
  unfold blockMap mapBlock mapPath
  rw [hbs]
  norm_num only
  split_ifs <;> rfl

lemma mappedByte_eq_mapByte (hbs : fs.blockSize = 1024) (inode : Inode) (x : ℕ) :
    mappedByte fs inode x = mapByte fs inode x := by
  unfold mappedByte mapByte holeByte
  rw [hbs, blockMap_eq_mapBlock hbs]

lemma fileBlock_eq_blockMap (hbs : fs.blockSize = 1024) (hb : b < 12 + 256 + 65536) :
    fileBlock fs inode b = blockMap fs inode b := by
  unfold fileBlock blockMap
  rw [hbs]
  dsimp only [u32]
  norm_num only
  by_cases h1 : b < 12
  · rw [if_pos h1, if_pos h1]
  by_cases h2 : b - 12 < 256
  · rw [if_neg h1, if_neg h1, if_pos h2, if_pos (by omega)]
  · have h3 : ¬ b < 268 := by omega
    have h4 : b - 12 - 256 < 65536 := by omega
    have h5 : b < 65804 := by omega
    simp only [if_neg h1, if_neg h2, if_neg h3, if_pos h4, if_pos h5]
    rw [Nat.sub_sub]

lemma fileByte_eq_mappedByte (hbs : fs.blockSize = 1024) {x : ℕ}
    (hx : x < (12 + 256 + 65536) * 1024) : fileByte fs inode x = mappedByte fs inode x := by
  unfold fileByte mappedByte
  rw [hbs, fileBlock_eq_blockMap hbs (by omega)]

/-- **A read returns the file**: `ext2_vfs_read` on a volume with 1024-byte blocks whose device
works returns as many bytes as the file has from the offset on, and they are those of the block
map. -/
theorem read_returns_file (fs : Ext2) (h off size : ℕ) (hbs : fs.blockSize = 1024)
    (hio : fs.layout.Serves) (hon : BlocksOnDisk fs (fs.pool h).inode)
    (hsize : iSize (fs.pool h).inode ≤ (12 + 256 + 65536) * 1024) (hfit : off + size < 2 ^ 64) :
    (ext2VfsRead fs h off size).1.length = min size (iSize (fs.pool h).inode - off) ∧
      ∀ k < min size (iSize (fs.pool h).inode - off),
        (ext2VfsRead fs h off size).1[k]? = some (mappedByte fs (fs.pool h).inode (off + k)) := by
  rw [ext2VfsRead_eq hio hbs hon hfit]
  refine ⟨length_contents, fun k hk => ?_⟩
  rw [← fileByte_eq_mappedByte hbs (by omega)]
  unfold contents
  rw [List.getElem?_map, List.getElem?_range hk]
  rfl

/-- A volume with one file of 13000 bytes: block 10 at its start, holes behind it, and at its end
block 21, which the table in block 20 leads to. -/
def indirectFile : Ext2 :=
  smallVolume (putLe (fun x => UInt8.ofNat x) (20 * 1024) 4 21)
    (fun _ => ⟨2, setBlock (setBlock (setSize zeros 13000) 0 10) 12 20, [], 13000, 0o644, false⟩) 1

/-- The last 1000 bytes of the first block, the holes, and the block behind the table up to the
end. -/
theorem read_returns_file_sparse :
    (ext2VfsRead indirectFile 0 24 20000).1.length = 12976 ∧
      ∀ k < 12976, (ext2VfsRead indirectFile 0 24 20000).1[k]? =
        some (mappedByte indirectFile (indirectFile.pool 0).inode (24 + k)) := by
  have hsize : iSize (indirectFile.pool 0).inode = 13000 := by decide
  have hblocks : ∀ b < 13, (∀ n ∈ pointerBlocks indirectFile (indirectFile.pool 0).inode b,
      n * 2 + 2 ≤ 64) ∧ fileBlock indirectFile (indirectFile.pool 0).inode b * 2 + 2 ≤ 64 := by
    decide +kernel
  have hon : BlocksOnDisk indirectFile (indirectFile.pool 0).inode := by
    intro b hb
    have hb : b * 1024 < 13000 := hsize ▸ hb
    obtain ⟨htables, hblock⟩ := hblocks b (by omega)
    exact ⟨fun n hn _ => htables n hn, fun _ => hblock⟩
  have hread := read_returns_file indirectFile 0 24 20000 rfl (smallVolume_valid _ _ _).serves hon
    (by rw [hsize]; norm_num) (by norm_num)
  rw [hsize] at hread
  exact hread

/-! ## The end of the file -/

/-- `tarfs_vfs_read`: the bytes copied. -/
def tarfsVfsRead (r : Ramdisk) (node : TarNode) (offset size : ℕ) : List UInt8 :=
  (List.range (clampLength node.size offset size)).map fun k => r.bytes (node.data + offset + k)

/-- A byte count as the `int64_t` that a read returns. -/
def asInt64 (n : ℕ) : ℤ := if n < 2 ^ 63 then n else n - 2 ^ 64

/-- A read of `n` bytes at `offset` stays inside a file: it returns no more than the file has from
there on, and copies no byte from behind its end. -/
structure ReadsInside (fileSize offset n : ℕ) : Prop where
  returned : asInt64 n ≤ ((fileSize - offset : ℕ) : ℤ)
  copied : ∀ k < n, offset + k < fileSize

lemma readsInside_of_le (h : n ≤ size - off) : ReadsInside size off n := by
  refine ⟨?_, fun k hk => by omega⟩
  unfold asInt64
  split_ifs <;> omega

lemma readsInside_iff_le : ReadsInside size off n ↔ n ≤ size - off := by
  refine ⟨fun h => ?_, readsInside_of_le⟩
  by_contra hlt
  have hlast := h.copied (n - 1) (by omega)
  omega

lemma clampLength_le {f : ℕ} (hfit : f ≤ off ∨ off + size < 2 ^ 64) :
    clampLength f off size ≤ f - off := by
  unfold clampLength
  split_ifs with h1 h2
  · exact Nat.zero_le _
  · exact le_rfl
  · rcases hfit with h | h
    · exact absurd h h1
    · have hsum : u64 (off + size) = off + size := Nat.mod_eq_of_lt h
      omega

lemma clampLength_wraps {f : ℕ} (hin : off < f) (hf : f < 2 ^ 64) (hsize : size < 2 ^ 64)
    (hwrap : 2 ^ 64 ≤ off + size) : clampLength f off size = size := by
  have hsum : u64 (off + size) = off + size - 2 ^ 64 := by
    unfold u64
    omega
  unfold clampLength
  rw [hsum, if_neg (by omega), if_neg (by omega)]

/-- The device delivers `n` blocks of a file from block `b` on, one after the other.  A block that
is not there counts as delivered, and so does one whose pointer cannot be read: the code takes both
for a hole. -/
def delivers (inode : Inode) : ℕ → ℕ → Ext2 → Bool
  | 0, _, _ => true
  | n + 1, b, fs =>
    match ext2GetFileBlock fs inode b with
    | (0, fs) => delivers inode n (b + 1) fs
    | (physBlk, fs) =>
      match ext2ReadBlock fs physBlk zeros with
      | (false, _, _) => false
      | (true, _, fs) => delivers inode n (b + 1) fs

/-- A turn of the loop of `ext2_vfs_read`: the device delivers the block and the loop goes on, or it
does not and the loop is over. -/
lemma vfsReadLoop_turn (fs : Ext2) (inode : Inode) (off : ℕ) {toRead : ℕ} {out : List UInt8}
    (hlt : out.length < toRead) (fuel : ℕ) :
    let curPos := u64 (off + out.length)
    let b := u32 (curPos / fs.blockSize)
    let chunk := min (fs.blockSize - u32 (curPos % fs.blockSize)) (toRead - out.length)
    (∃ fs1 bytes, fs1.blockSize = fs.blockSize ∧ bytes.length = chunk ∧
        vfsReadLoop inode off toRead (fuel + 1) fs out =
          vfsReadLoop inode off toRead fuel fs1 (out ++ bytes) ∧
        ∀ n, delivers inode (n + 1) b fs = delivers inode n (b + 1) fs1) ∨
      (vfsReadLoop inode off toRead (fuel + 1) fs out).1 = out ∧
        ∀ n, delivers inode (n + 1) b fs = false := by
  rw [vfsReadLoop, if_pos hlt]
  simp only [delivers]
  generalize u32 (u64 (off + out.length) / fs.blockSize) = b
  have hgeo := congrArg Geometry.blockSize (ext2GetFileBlock_geometry fs inode b)
  cases hget : ext2GetFileBlock fs inode b with
  | mk phys fs1 =>
    rw [hget] at hgeo
    cases phys with
    | zero => exact Or.inl ⟨fs1, _, hgeo, List.length_replicate, rfl, fun n => rfl⟩
    | succ phys =>
      cases hread : ext2ReadBlock fs1 (phys + 1) zeros with
      | mk ok r =>
        have hsame : r.2.blockSize = fs1.blockSize := (congrArg (fun r => r.2.2.blockSize) hread).symm
        simp only [hread]
        cases ok with
        | false => exact Or.inr ⟨rfl, fun n => rfl⟩
        | true => exact Or.inl ⟨r.2, _, hsame.trans hgeo, by simp, rfl, fun n => rfl⟩

lemma length_le_vfsReadLoop (fs : Ext2) (inode : Inode) (off toRead fuel : ℕ) (out : List UInt8) :
    out.length ≤ (vfsReadLoop inode off toRead fuel fs out).1.length := by
  induction fuel generalizing fs out with
  | zero => exact le_rfl
  | succ fuel ih =>
    by_cases hlt : out.length < toRead
    · rcases vfsReadLoop_turn fs inode off hlt fuel with
        ⟨fs1, bytes, -, -, hloop, -⟩ | ⟨hout, -⟩
      · rw [hloop]
        refine le_trans ?_ (ih fs1 (out ++ bytes))
        rw [List.length_append]
        omega
      · rw [hout]
    · rw [vfsReadLoop, if_neg hlt]

lemma vfsReadLoop_length_le {toRead : ℕ} (fuel : ℕ) (out : List UInt8) (h : out.length ≤ toRead) :
    (vfsReadLoop inode off toRead fuel fs out).1.length ≤ toRead := by
  induction fuel generalizing fs out with
  | zero => exact h
  | succ fuel ih =>
    by_cases hlt : out.length < toRead
    · rcases vfsReadLoop_turn fs inode off hlt fuel with
        ⟨fs1, bytes, -, hlen, hloop, -⟩ | ⟨hout, -⟩
      · rw [hloop]
        refine ih (out ++ bytes) ?_
        rw [List.length_append, hlen]
        omega
      · rwa [hout]
    · rwa [vfsReadLoop, if_neg hlt]

/-- A read that is not cut off runs past the end of the file as soon as the device delivers the
blocks up to that of the end. -/
lemma vfsReadLoop_past {toRead bs : ℕ} (out : List UInt8) (fuel : ℕ) (hbs : fs.blockSize = bs)
    (hpos : 0 < bs) (hbs32 : bs < 2 ^ 32) (hin : off + out.length ≤ iSize inode)
    (hmore : iSize inode < off + toRead) (hfuel : iSize inode + 1 ≤ off + out.length + fuel) :
    iSize inode - off < (vfsReadLoop inode off toRead fuel fs out).1.length ↔
      delivers inode (iSize inode / bs - (off + out.length) / bs + 1) ((off + out.length) / bs) fs =
        true := by
  induction fuel generalizing fs out with
  | zero => omega
  | succ fuel ih =>
    have hlt32 := iSize_lt inode
    set cur := off + out.length with hcur
    have hcur64 : u64 cur = cur := Nat.mod_eq_of_lt (by omega)
    have hblk : u32 (cur / bs) = cur / bs :=
      Nat.mod_eq_of_lt (lt_of_le_of_lt (Nat.div_le_self _ _) (by omega))
    have hoffset : u32 (cur % bs) = cur % bs :=
      Nat.mod_eq_of_lt (lt_trans (Nat.mod_lt _ hpos) hbs32)
    have hmod := Nat.mod_lt cur hpos
    have hdiv := Nat.div_add_mod cur bs
    have hle : cur / bs ≤ iSize inode / bs := Nat.div_le_div_right hin
    rcases vfsReadLoop_turn fs inode off
        (show out.length < toRead by omega) fuel with
      ⟨fs1, bytes, hbs1, hlen, hloop, hdel⟩ | ⟨hout, hdel⟩
    · rw [hbs, ← hcur, hcur64, hoffset] at hlen
      rw [hbs, ← hcur, hcur64, hblk] at hdel
      rw [hloop, hdel]
      have hnew : (out ++ bytes).length = out.length + bytes.length := List.length_append
      rcases Nat.lt_or_ge (cur / bs) (iSize inode / bs) with hnext | hlast
      · -- the end lies in a later block: the loop takes the rest of this one
        have hstart : (cur / bs + 1) * bs ≤ iSize inode :=
          le_trans (Nat.mul_le_mul_right _ hnext) (Nat.div_mul_le_self _ _)
        rw [Nat.succ_mul, Nat.mul_comm] at hstart
        have hend : off + (out ++ bytes).length = bs * (cur / bs) + bs := by
          rw [hnew, hlen]
          omega
        have hblock : (off + (out ++ bytes).length) / bs = cur / bs + 1 := by
          rw [hend, Nat.mul_add_div hpos, Nat.div_self hpos]
        have hrest := ih (out ++ bytes) (hbs1.trans hbs) (by omega) (by omega)
        rw [hblock] at hrest
        rw [hrest, show iSize inode / bs - cur / bs = iSize inode / bs - (cur / bs + 1) + 1 by omega]
      · -- the end lies in this block, and the loop has gone behind it
        have hend := Nat.lt_mul_div_succ (iSize inode) hpos
        have hsame : iSize inode / bs = cur / bs := le_antisymm hlast hle
        rw [hsame, Nat.mul_succ] at hend
        have hpast : iSize inode - off < (out ++ bytes).length := by
          rw [hnew, hlen]
          omega
        have hfinal := length_le_vfsReadLoop fs1 inode off toRead fuel (out ++ bytes)
        rw [hsame, Nat.sub_self]
        exact iff_of_true (by omega) rfl
    · rw [hbs, ← hcur, hcur64, hblk] at hdel
      rw [hout, hdel]
      exact iff_of_false (by omega) Bool.false_ne_true

lemma ext2VfsRead_inside {h : ℕ} (hfit : iSize (fs.pool h).inode ≤ off ∨ off + size < 2 ^ 64) :
    ReadsInside (iSize (fs.pool h).inode) off (ext2VfsRead fs h off size).1.length := by
  refine readsInside_of_le (le_trans ?_ (clampLength_le hfit))
  exact vfsReadLoop_length_le _ [] (Nat.zero_le _)

lemma ext2VfsRead_wraps {h : ℕ} (hin : off < iSize (fs.pool h).inode) (hsize : size < 2 ^ 64)
    (hwrap : 2 ^ 64 ≤ off + size) (hpos : 0 < fs.blockSize) (hbs : fs.blockSize < 2 ^ 32) :
    ReadsInside (iSize (fs.pool h).inode) off (ext2VfsRead fs h off size).1.length ↔
      delivers (fs.pool h).inode (iSize (fs.pool h).inode / fs.blockSize - off / fs.blockSize + 1)
        (off / fs.blockSize) fs = false := by
  have hlt := iSize_lt (fs.pool h).inode
  have hlen : readLength (fs.pool h).inode off size = size :=
    clampLength_wraps hin (by omega) hsize hwrap
  have hpast := vfsReadLoop_past [] size rfl hpos hbs hin.le
    (show iSize (fs.pool h).inode < off + size by omega) (by rw [List.length_nil]; omega)
  rw [readsInside_iff_le, ← not_lt, ← Bool.not_eq_true]
  unfold ext2VfsRead
  dsimp only
  rw [hlen]
  exact not_congr hpast

lemma length_tarfsVfsRead (r : Ramdisk) (node : TarNode) (off size : ℕ) :
    (tarfsVfsRead r node off size).length = clampLength node.size off size := by
  simp [tarfsVfsRead]

/-- **The reads that stay inside the file** are those in which the sum of offset and size does not
wrap around, those behind the end, and, for ext2, those that a failing device stops before the end.
-/
theorem readsInside_iff (fs : Ext2) (h : ℕ) (r : Ramdisk) (node : TarNode) (off size : ℕ)
    (hsize : size < 2 ^ 64) (hnode : node.size < 2 ^ 64) (hpos : 0 < fs.blockSize)
    (hbs : fs.blockSize < 2 ^ 32) :
    (ReadsInside (iSize (fs.pool h).inode) off (ext2VfsRead fs h off size).1.length ↔
      iSize (fs.pool h).inode ≤ off ∨ off + size < 2 ^ 64 ∨
        delivers (fs.pool h).inode
          (iSize (fs.pool h).inode / fs.blockSize - off / fs.blockSize + 1) (off / fs.blockSize) fs =
          false) ∧
    (ReadsInside node.size off (tarfsVfsRead r node off size).length ↔
      node.size ≤ off ∨ off + size < 2 ^ 64) := by
  constructor
  · by_cases hfit : iSize (fs.pool h).inode ≤ off ∨ off + size < 2 ^ 64
    · exact iff_of_true (ext2VfsRead_inside hfit) (hfit.imp_right Or.inl)
    · obtain ⟨hin, hwrap⟩ := not_or.mp hfit
      rw [ext2VfsRead_wraps (not_le.mp hin) hsize (not_lt.mp hwrap) hpos hbs]
      simp only [hin, hwrap, false_or]
  · rw [length_tarfsVfsRead]
    by_cases hfit : node.size ≤ off ∨ off + size < 2 ^ 64
    · exact iff_of_true (readsInside_of_le (clampLength_le hfit)) hfit
    · obtain ⟨hin, hwrap⟩ := not_or.mp hfit
      rw [readsInside_iff_le, clampLength_wraps (not_le.mp hin) hnode hsize (not_lt.mp hwrap)]
      exact iff_of_false (by omega) hfit

/-- A volume with one file of 3000 bytes, whose second block is a hole. -/
def sparseFile : Ext2 :=
  smallVolume (fun x => UInt8.ofNat x)
    (fun _ => ⟨2, setBlock (setBlock (setSize zeros 3000) 0 10) 2 11, [], 3000, 0o644, false⟩) 1

/-- The largest size, from the start of a file. -/
theorem readsInside_iff_start :
    ReadsInside 3000 0 (ext2VfsRead sparseFile 0 0 (2 ^ 64 - 1)).1.length ∧
      ReadsInside 2 0 (tarfsVfsRead ⟨zeros, 1024, true⟩ ⟨[], 10, 2, 512⟩ 0 (2 ^ 64 - 1)).length := by
  have hiff := readsInside_iff sparseFile 0 ⟨zeros, 1024, true⟩ ⟨[], 10, 2, 512⟩ 0 (2 ^ 64 - 1)
    (by norm_num) (by norm_num) (by decide) (by decide)
  have hsize : iSize (sparseFile.pool 0).inode = 3000 := by decide
  rw [hsize] at hiff
  exact ⟨hiff.1.mpr (Or.inr (Or.inl (by norm_num))), hiff.2.mpr (Or.inr (by norm_num))⟩

/-- **A read past the end**: one byte has been read, and the next read asks for `2 ^ 64 - 1`.  The
sum is 0, and nothing cuts the read off at the end of the file. -/
theorem read_past_end :
    ¬ ReadsInside (iSize (sparseFile.pool 0).inode) 1 (ext2VfsRead sparseFile 0 1 (2 ^ 64 - 1)).1.length ∧
      ¬ ReadsInside 2 1 (tarfsVfsRead ⟨zeros, 1024, true⟩ ⟨[], 10, 2, 512⟩ 1 (2 ^ 64 - 1)).length := by
  have hsize : iSize (sparseFile.pool 0).inode = 3000 := by decide
  have hbs : sparseFile.blockSize = 1024 := rfl
  constructor
  · rw [ext2VfsRead_wraps (by rw [hsize]; norm_num) (by norm_num) (by norm_num) (by rw [hbs]; norm_num)
      (by rw [hbs]; norm_num), hsize, hbs]
    decide +kernel
  · rw [readsInside_iff_le, length_tarfsVfsRead,
      clampLength_wraps (by norm_num) (by norm_num) (by norm_num) (by norm_num)]
    norm_num

end Bangos.Fs
