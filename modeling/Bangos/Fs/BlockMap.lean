import Bangos.Fs.Ext2File

/-!
# The block map of ext2

A file has twelve direct blocks and three trees of tables, in which a block is reached in one, two
or three steps.  `mapPath` says how block `b` of a file is reached and `mapBlock` follows the way;
a pointer 0 on the way means that the file has a hole there.  The code has the first two trees
(`fileBlock`).
-/

namespace Bangos.Fs

open ByteMem Bangos.Drivers Bangos.Mm

variable {fs fs' : Ext2} {inode inode' : Inode} {b k n p x : ℕ} {path : List ℕ}

/-- How block `b` of a file is reached when a table has `p` entries: the pointer of the inode, and
the entries of the tables that it leads to. -/
def mapPath (p b : ℕ) : ℕ × List ℕ :=
  if b < 12 then (b, [])
  else if b < 12 + p then (12, [b - 12])
  else if b < 12 + p + p * p then
    let c := b - (12 + p)
    (13, [c / p, c % p])
  else
    let c := b - (12 + p + p * p)
    (14, [c / (p * p), c / p % p, c % p])

/-- The block that is reached from block `n` through entries of tables, or 0. -/
def follow (fs : Ext2) (n : ℕ) (path : List ℕ) : ℕ := path.foldl (ptr fs) n

/-- The first `k` steps on the way to block `b` of a file. -/
def wayBlock (fs : Ext2) (inode : Inode) (b k : ℕ) : ℕ :=
  follow fs (iBlock inode (mapPath (fs.blockSize / 4) b).1) ((mapPath (fs.blockSize / 4) b).2.take k)

/-- The block of the disk with the contents of block `b` of a file, or 0. -/
def mapBlock (fs : Ext2) (inode : Inode) (b : ℕ) : ℕ :=
  follow fs (iBlock inode (mapPath (fs.blockSize / 4) b).1) (mapPath (fs.blockSize / 4) b).2

/-- A byte of a block of a file, which may be a hole. -/
def holeByte (fs : Ext2) (n y : ℕ) : UInt8 := if n = 0 then 0 else diskBlock fs n y

/-- The byte of a file at position `x`. -/
def mapByte (fs : Ext2) (inode : Inode) (x : ℕ) : UInt8 :=
  holeByte fs (mapBlock fs inode (x / fs.blockSize)) (x % fs.blockSize)

/-! ## Following a way -/

lemma mapPath_direct (hb : b < 12) : mapPath p b = (b, []) := if_pos hb

lemma mapBlock_direct (hb : b < 12) : mapBlock fs inode b = iBlock inode b := by
  rw [mapBlock, mapPath_direct hb]
  rfl

lemma mapPath_fst (hb : 12 ≤ b) : 12 ≤ (mapPath p b).1 ∧ (mapPath p b).1 < 15 := by
  unfold mapPath
  rw [if_neg (by omega)]
  split_ifs <;> simp

lemma follow_zero (fs : Ext2) (path : List ℕ) : follow fs 0 path = 0 := by
  induction path with
  | nil => rfl
  | cons i path ih => exact ih

lemma follow_congr (h : ∀ k, follow fs n (path.take k) ≠ 0 →
      diskBlock fs' (follow fs n (path.take k)) = diskBlock fs (follow fs n (path.take k))) :
    follow fs' n path = follow fs n path := by
  induction path generalizing n with
  | nil => rfl
  | cons i path ih =>
    have hstep : ptr fs' n i = ptr fs n i := ptr_congr (h 0) i
    refine (congrArg (follow fs' · path) hstep).trans (ih fun k => ?_)
    exact h (k + 1)

lemma mapByte_congr (hbs : fs'.blockSize = fs.blockSize)
    (hptr : ∀ j, 12 ≤ j → j < 15 → iBlock inode' j = iBlock inode j)
    (hx : 12 ≤ x / fs.blockSize)
    (h : ∀ k, wayBlock fs inode (x / fs.blockSize) k ≠ 0 →
      diskBlock fs' (wayBlock fs inode (x / fs.blockSize) k) =
        diskBlock fs (wayBlock fs inode (x / fs.blockSize) k)) :
    mapByte fs' inode' x = mapByte fs inode x := by
  obtain ⟨hge, hlt⟩ := mapPath_fst (p := fs.blockSize / 4) hx
  have hblock : mapBlock fs' inode' (x / fs.blockSize) = mapBlock fs inode (x / fs.blockSize) := by
    unfold mapBlock
    rw [hbs, hptr _ hge hlt]
    exact follow_congr h
  unfold mapByte holeByte
  rw [hbs, hblock]
  split_ifs with h0
  · rfl
  · have hend : wayBlock fs inode (x / fs.blockSize) (mapPath (fs.blockSize / 4)
        (x / fs.blockSize)).2.length = mapBlock fs inode (x / fs.blockSize) := by
      rw [wayBlock, List.take_length, mapBlock]
    rw [← hend] at h0 ⊢
    rw [h _ h0]

end Bangos.Fs
