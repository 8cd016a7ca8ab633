import Bangos.Fs.Ext2
import Bangos.Lib.Runs

/-!
# Mounting a volume

`ext2_mount_device` takes the geometry of the volume from the superblock without looking at it.
Here the calls of the file system are written with the places at which they can go wrong: they
divide by a number from the disk, take a group descriptor that has not been read, or read a block
into a buffer on the stack or in the data segment.  Whether a later call can go wrong depends on
the geometry only, which no call changes; the volumes for which none can are those with blocks of
1024 bytes, at least one inode and one block per group and at most 32 groups
(`mountSafe_iff`).
-/

namespace Bangos.Fs

open ByteMem Bangos.Drivers Bangos.Mm

/-! ## Calls that check -/

/-- What can go wrong in a call. -/
inductive Hazard where
  | divByZero
  | descriptor
  | shortBuffer
deriving DecidableEq

/-- A division by `d`. -/
def divisor (d : ℕ) : Except Hazard Unit := if d = 0 then .error .divByZero else .ok ()

/-- The descriptor `bgds[g]`; a block of descriptors of 32 bytes has been read. -/
def descriptor (fs : Ext2) (g : ℕ) : Except Hazard Unit :=
  if g < fs.blockSize / 32 then .ok () else .error .descriptor

/-- A block read into a buffer of `size` bytes. -/
def intoBuffer (fs : Ext2) (size : ℕ) : Except Hazard Unit :=
  if fs.blockSize ≤ size then .ok () else .error .shortBuffer

/-- `ext2_read_inode`. -/
def checkedReadInode (fs : Ext2) (ino : ℕ) : Except Hazard (Option Inode × Ext2) :=
  if ino = 0 then .ok (none, fs)
  else do
    divisor fs.sb.sInodesPerGroup
    if fs.groupCount ≤ inodeGroup fs ino then .ok (none, fs)
    else do
      descriptor fs (inodeGroup fs ino)
      divisor fs.blockSize
      intoBuffer fs 4096
      .ok (ext2ReadInode fs ino)

/-- The loop of `ext2_alloc_block` and `ext2_alloc_inode`. -/
def checkedAllocLoop (kind : BitmapKind) : ℕ → ℕ → Ext2 → Except Hazard (ℕ × Ext2)
  | 0, _, fs => .ok (0, fs)
  | n + 1, bg, fs => do
    descriptor fs bg
    if (fs.bgds bg).freeCount kind = 0 then checkedAllocLoop kind n (bg + 1) fs
    else do
      intoBuffer fs 4096
      match ext2ReadBlock fs ((fs.bgds bg).bitmapBlock kind) zeros with
      | (false, _, fs) => checkedAllocLoop kind n (bg + 1) fs
      | (true, bitmap, fs) =>
        match (List.range (fs.sb.perGroup kind)).find? fun b => !bitAt bitmap b with
        | none => checkedAllocLoop kind n (bg + 1) fs
        | some b =>
          let fs := (ext2WriteBlock fs ((fs.bgds bg).bitmapBlock kind) (setBitAt bitmap b)).2
          .ok (fs.sb.entryOf bg b kind, fs.countTaken bg kind)

/-- An entry of a pointer block, read into `indirect_buf`, `dbl_buf` or `sec_buf`. -/
def checkedPointerAt (fs : Ext2) (blockNum n : ℕ) : Except Hazard (ℕ × Ext2) :=
  if blockNum = 0 then .ok (0, fs)
  else do
    intoBuffer fs 4096
    .ok (pointerAt fs blockNum n)

/-- `ext2_get_file_block`. -/
def checkedGetFileBlock (fs : Ext2) (inode : Inode) (fileBlockNum : ℕ) :
    Except Hazard (ℕ × Ext2) :=
  let ptrsPerBlock := fs.blockSize / 4
  if fileBlockNum < 12 then .ok (iBlock inode fileBlockNum, fs)
  else if fileBlockNum - 12 < ptrsPerBlock then
    checkedPointerAt fs (iBlock inode 12) (fileBlockNum - 12)
  else
    let n := fileBlockNum - 12 - ptrsPerBlock
    if n < u32 (ptrsPerBlock * ptrsPerBlock) then do
      divisor ptrsPerBlock
      let r ← checkedPointerAt fs (iBlock inode 13) (n / ptrsPerBlock)
      checkedPointerAt r.2 r.1 (n % ptrsPerBlock)
    else .ok (0, fs)

/-- The loop of `ext2_vfs_read`. -/
def checkedReadLoop (inode : Inode) (offset toRead : ℕ) :
    ℕ → Ext2 → List UInt8 → Except Hazard (List UInt8 × Ext2)
  | 0, fs, out => .ok (out, fs)
  | fuel + 1, fs, out =>
    if out.length < toRead then do
      divisor fs.blockSize
      let curPos := u64 (offset + out.length)
      let blkOffset := u32 (curPos % fs.blockSize)
      let chunk := min (fs.blockSize - blkOffset) (toRead - out.length)
      let r ← checkedGetFileBlock fs inode (u32 (curPos / fs.blockSize))
      match r with
      | (0, fs) => checkedReadLoop inode offset toRead fuel fs (out ++ List.replicate chunk 0)
      | (physBlk, fs) =>
        intoBuffer fs 1024
        match ext2ReadBlock fs physBlk zeros with
        | (false, _, fs) => .ok (out, fs)
        | (true, buf, fs) =>
          checkedReadLoop inode offset toRead fuel fs
            (out ++ (List.range chunk).map fun x => buf (blkOffset + x))
    else .ok (out, fs)

/-- `ext2_vfs_read`. -/
def checkedVfsRead (fs : Ext2) (h offset size : ℕ) : Except Hazard (List UInt8 × Ext2) :=
  let inode := (fs.pool h).inode
  let toRead := readLength inode offset size
  checkedReadLoop inode offset toRead toRead fs []

/-- A block of a directory, read into `s_find_buf` or `rdir_buf`. -/
def checkedDirBlock (fs : Ext2) (inode : Inode) (b : ℕ) :
    Except Hazard (List DirEntry × Ext2) := do
  let r ← checkedGetFileBlock fs inode b
  match r with
  | (0, fs) => .ok ([], fs)
  | (physBlk, fs) =>
    intoBuffer fs 1024
    match ext2ReadBlock fs physBlk zeros with
    | (false, _, fs) => .ok ([], fs)
    | (true, buf, fs) =>
      .ok ((blockEntries buf fs.blockSize fs.blockSize 0).filter DirEntry.live, fs)

/-- The inner loop of `ext2_vfs_finddir`. -/
def checkedFindEntry (name : List UInt8) :
    List DirEntry → Ext2 → Except Hazard (Option (DirEntry × Inode) × Ext2)
  | [], fs => .ok (none, fs)
  | e :: es, fs =>
    if name.length = e.nameLen ∧ name = e.name then do
      let r ← checkedReadInode fs e.inode
      match r with
      | (some inode, fs) => .ok (some (e, inode), fs)
      | (none, fs) => checkedFindEntry name es fs
    else checkedFindEntry name es fs

/-- The outer loop of `ext2_vfs_finddir`. -/
def checkedFindBlocks (inode : Inode) (name : List UInt8) :
    ℕ → ℕ → Ext2 → Except Hazard (Option (DirEntry × Inode) × Ext2)
  | 0, _, fs => .ok (none, fs)
  | n + 1, b, fs => do
    let r ← checkedDirBlock fs inode b
    let f ← checkedFindEntry name r.1 r.2
    match f with
    | (some x, fs) => .ok (some x, fs)
    | (none, fs) => checkedFindBlocks inode name n (b + 1) fs

/-- `ext2_vfs_finddir`. -/
def checkedFinddir (fs : Ext2) (dir : ℕ) (name : List UInt8) : Except Hazard (Option ℕ × Ext2) := do
  let inode := (fs.pool dir).inode
  divisor fs.blockSize
  let f ← checkedFindBlocks inode name (dirBlocks fs inode) 0 fs
  match f with
  | (none, fs) => .ok (none, fs)
  | (some (e, child), fs) => .ok (ext2CreateVfsNode fs e.inode (e.name.take 127) child)

/-- The loops of `ext2_vfs_readdir`. -/
def checkedReaddirBlocks (inode : Inode) :
    ℕ → ℕ → ℕ → Ext2 → Except Hazard (Option VfsDirent × Ext2)
  | 0, _, _, fs => .ok (none, fs)
  | n + 1, b, index, fs => do
    let r ← checkedDirBlock fs inode b
    match r.1[index]? with
    | some e => .ok (some ⟨e.inode, e.name.take 127, e.fileType == 2⟩, r.2)
    | none => checkedReaddirBlocks inode n (b + 1) (index - r.1.length) r.2

/-- `ext2_vfs_readdir`. -/
def checkedReaddir (fs : Ext2) (dir index : ℕ) : Except Hazard (Option VfsDirent × Ext2) := do
  let inode := (fs.pool dir).inode
  divisor fs.blockSize
  checkedReaddirBlocks inode (dirBlocks fs inode) 0 index fs

/-! ## The geometry -/

/-- What mounting takes from the superblock and no call changes. -/
@[ext]
structure Geometry where
  blockSize : ℕ
  sectorsPerBlock : ℕ
  groupCount : ℕ
  inodeSize : ℕ
  firstDataBlock : ℕ
  blocksPerGroup : ℕ
  inodesPerGroup : ℕ

/-- The geometry of a mounted volume. -/
def Ext2.geometry (fs : Ext2) : Geometry where
  blockSize := fs.blockSize
  sectorsPerBlock := fs.sectorsPerBlock
  groupCount := fs.groupCount
  inodeSize := fs.inodeSize
  firstDataBlock := fs.sb.sFirstDataBlock
  blocksPerGroup := fs.sb.sBlocksPerGroup
  inodesPerGroup := fs.sb.sInodesPerGroup

/-- No call can go wrong. -/
structure Geometry.Safe (g : Geometry) : Prop where
  blockSize_pos : g.blockSize ≠ 0
  blockSize_le : g.blockSize ≤ 1024
  inodesPerGroup : g.inodesPerGroup ≠ 0
  groupCount : g.groupCount ≤ g.blockSize / 32

variable {fs : Ext2} {inode : Inode} {n b g : ℕ} {name : List UInt8}

@[simp] lemma ext2ReadBlock_geometry (fs : Ext2) (n : ℕ) (buf : ℕ → UInt8) :
    (ext2ReadBlock fs n buf).2.2.geometry = fs.geometry := rfl

@[simp] lemma ext2WriteBlock_geometry (fs : Ext2) (n : ℕ) (buf : ℕ → UInt8) :
    (ext2WriteBlock fs n buf).2.geometry = fs.geometry := rfl

@[simp] lemma countTaken_geometry (fs : Ext2) (g : ℕ) (kind : BitmapKind) :
    (fs.countTaken g kind).geometry = fs.geometry := by
  cases kind <;> rfl

@[simp] lemma setNode_geometry (fs : Ext2) (h : ℕ) (node : Ext2Node) :
    (fs.setNode h node).geometry = fs.geometry := rfl

lemma ext2ReadInode_geometry (fs : Ext2) (ino : ℕ) :
    (ext2ReadInode fs ino).2.geometry = fs.geometry := by
  unfold ext2ReadInode
  split_ifs
  · rfl
  · split <;> rename_i heq
    · exact (congrArg (fun r => r.2.2.geometry) heq).symm
    · exact (congrArg (fun r => r.2.2.geometry) heq).symm

lemma pointerAt_geometry (fs : Ext2) (n i : ℕ) : (pointerAt fs n i).2.geometry = fs.geometry := by
  unfold pointerAt
  split_ifs
  · rfl
  · split <;> rename_i heq
    · exact (congrArg (fun r => r.2.2.geometry) heq).symm
    · exact (congrArg (fun r => r.2.2.geometry) heq).symm

lemma ext2GetFileBlock_geometry (fs : Ext2) (inode : Inode) (b : ℕ) :
    (ext2GetFileBlock fs inode b).2.geometry = fs.geometry := by
  unfold ext2GetFileBlock
  dsimp only
  split_ifs
  · rfl
  · exact pointerAt_geometry ..
  · rw [pointerAt_geometry, pointerAt_geometry]
  · rfl

lemma ext2WriteInode_geometry (fs : Ext2) (ino : ℕ) (inode : Inode) :
    (ext2WriteInode fs ino inode).2.geometry = fs.geometry := by
  unfold ext2WriteInode
  split_ifs
  · rfl
  · split <;> rename_i heq
    · exact (congrArg (fun r => r.2.2.geometry) heq).symm
    · exact (congrArg (fun r => r.2.2.geometry) heq).symm

lemma allocLoop_geometry (kind : BitmapKind) (n bg : ℕ) (fs : Ext2) :
    (allocLoop kind n bg fs).2.geometry = fs.geometry := by
  induction n generalizing bg fs with
  | zero => rfl
  | succ n ih =>
    unfold allocLoop
    split_ifs
    · exact ih ..
    · split <;> rename_i heq
      · exact (ih ..).trans (congrArg (fun r => r.2.2.geometry) heq).symm
      · have hgeo := (congrArg (fun r => r.2.2.geometry) heq).symm
        split
        · exact (ih ..).trans hgeo
        · dsimp only
          rw [countTaken_geometry, ext2WriteBlock_geometry]
          exact hgeo

lemma ext2CreateVfsNode_geometry (fs : Ext2) (ino : ℕ) (name : List UInt8) (inode : Inode) :
    (ext2CreateVfsNode fs ino name inode).2.geometry = fs.geometry := by
  unfold ext2CreateVfsNode
  split_ifs <;> rfl

lemma vfsReadLoop_geometry (inode : Inode) (offset toRead fuel : ℕ) (fs : Ext2)
    (out : List UInt8) : (vfsReadLoop inode offset toRead fuel fs out).2.geometry = fs.geometry := by
  induction fuel generalizing fs out with
  | zero => rfl
  | succ fuel ih =>
    unfold vfsReadLoop
    split_ifs
    · dsimp only
      have hgeo := ext2GetFileBlock_geometry fs inode
        (u32 (u64 (offset + out.length) / fs.blockSize))
      split <;> rename_i heq <;> rw [heq] at hgeo
      · exact (ih ..).trans hgeo
      · split <;> rename_i hb
        · exact ((congrArg (fun r => r.2.2.geometry) hb).symm).trans hgeo
        · exact ((ih ..).trans (congrArg (fun r => r.2.2.geometry) hb).symm).trans hgeo
    · rfl

lemma dirBlockEntries_geometry (fs : Ext2) (inode : Inode) (b : ℕ) :
    (dirBlockEntries fs inode b).2.geometry = fs.geometry := by
  have hgeo := ext2GetFileBlock_geometry fs inode b
  unfold dirBlockEntries
  split <;> rename_i heq <;> rw [heq] at hgeo
  · exact hgeo
  · split <;> rename_i hb
    · exact ((congrArg (fun r => r.2.2.geometry) hb).symm).trans hgeo
    · exact ((congrArg (fun r => r.2.2.geometry) hb).symm).trans hgeo

lemma findEntry_geometry (name : List UInt8) (es : List DirEntry) (fs : Ext2) :
    (findEntry name es fs).2.geometry = fs.geometry := by
  induction es generalizing fs with
  | nil => rfl
  | cons e es ih =>
    have hgeo := ext2ReadInode_geometry fs e.inode
    unfold findEntry
    split_ifs
    · split <;> rename_i heq <;> rw [heq] at hgeo
      · exact hgeo
      · exact (ih ..).trans hgeo
    · exact ih ..

lemma findBlocks_geometry (inode : Inode) (name : List UInt8) (n b : ℕ) (fs : Ext2) :
    (findBlocks inode name n b fs).2.geometry = fs.geometry := by
  induction n generalizing b fs with
  | zero => rfl
  | succ n ih =>
    have hgeo := (findEntry_geometry name (dirBlockEntries fs inode b).1
      (dirBlockEntries fs inode b).2).trans (dirBlockEntries_geometry fs inode b)
    unfold findBlocks
    dsimp only
    split <;> rename_i heq <;> rw [heq] at hgeo
    · exact hgeo
    · exact (ih ..).trans hgeo

lemma readdirBlocks_geometry (inode : Inode) (n b index : ℕ) (fs : Ext2) :
    (readdirBlocks inode n b index fs).2.geometry = fs.geometry := by
  induction n generalizing b index fs with
  | zero => rfl
  | succ n ih =>
    have hgeo := dirBlockEntries_geometry fs inode b
    unfold readdirBlocks
    dsimp only
    split
    · exact hgeo
    · exact (ih ..).trans hgeo

lemma writePrepare_geometry (fs : Ext2) (inode : Inode) (b : ℕ) :
    (writePrepare fs inode b).2.geometry = fs.geometry ∧
      ∀ x ∈ (writePrepare fs inode b).1, x.2.geometry = fs.geometry := by
  have ha : (ext2AllocBlock fs).2.geometry = fs.geometry := allocLoop_geometry ..
  unfold writePrepare
  split_ifs
  · dsimp only
    split_ifs
    · exact ⟨ha, fun x hx => by cases hx⟩
    · refine ⟨ha, fun x hx => ?_⟩
      obtain rfl := Option.mem_some_iff.mp hx
      exact ha
  · refine ⟨rfl, fun x hx => ?_⟩
    obtain rfl := Option.mem_some_iff.mp hx
    rfl

lemma vfsWriteLoop_geometry (offset : ℕ) (data : List UInt8) (fuel : ℕ) (fs : Ext2) (inode : Inode)
    (w : ℕ) : (vfsWriteLoop offset data fuel fs inode w).1.geometry = fs.geometry := by
  induction fuel generalizing fs inode w with
  | zero => rfl
  | succ fuel ih =>
    unfold vfsWriteLoop
    split_ifs
    · dsimp only
      split_ifs
      · have hgeo := writePrepare_geometry fs inode (u32 (u64 (offset + w) / fs.blockSize))
        split <;> rename_i heq <;> rw [heq] at hgeo
        · exact hgeo.1
        · exact (ih ..).trans (hgeo.2 _ rfl)
      · rfl
    · rfl

lemma ext2VfsWrite_geometry (fs : Ext2) (h offset : ℕ) (data : List UInt8) :
    (ext2VfsWrite fs h offset data).2.geometry = fs.geometry := by
  have hgeo := vfsWriteLoop_geometry offset data data.length fs (fs.pool h).inode 0
  unfold ext2VfsWrite
  dsimp only
  split_ifs
  · rw [ext2WriteInode_geometry, setNode_geometry, hgeo]
  · rw [setNode_geometry, hgeo]

lemma createDirBlock_geometry (fs : Ext2) (dir : ℕ) :
    (createDirBlock fs dir).2.geometry = fs.geometry := by
  have hgeo := ext2GetFileBlock_geometry fs (fs.pool dir).inode 0
  unfold createDirBlock
  dsimp only
  split_ifs
  · rw [ext2WriteInode_geometry]
    exact (allocLoop_geometry ..).trans hgeo
  · exact hgeo

lemma ext2VfsCreate_geometry (fs : Ext2) (dir : ℕ) (name : List UInt8) (mode : ℕ) :
    (ext2VfsCreate fs dir name mode).2.geometry = fs.geometry := by
  have ha : (ext2AllocInode fs).2.geometry = fs.geometry := allocLoop_geometry ..
  have hrec : ∀ (t : Ext2) (d ino : ℕ), (createRecord t d ino name).geometry = t.geometry := by
    intro t d ino
    unfold createRecord
    split <;> rfl
  unfold ext2VfsCreate
  dsimp only
  split_ifs
  · exact ha
  · rw [ext2CreateVfsNode_geometry, hrec, createDirBlock_geometry, ext2WriteInode_geometry, ha]

/-! ## Calls that do not fail -/

section Safe

variable (hs : fs.geometry.Safe)
include hs

lemma divisor_blockSize : divisor fs.blockSize = .ok () := if_neg hs.blockSize_pos

lemma intoBuffer_eq {size : ℕ} (h : 1024 ≤ size) : intoBuffer fs size = .ok () :=
  if_pos (hs.blockSize_le.trans h)

lemma descriptor_eq (hg : g < fs.groupCount) : descriptor fs g = .ok () :=
  if_pos (hg.trans_le hs.groupCount)

lemma checkedReadInode_eq (ino : ℕ) : checkedReadInode fs ino = .ok (ext2ReadInode fs ino) := by
  unfold checkedReadInode
  by_cases h0 : ino = 0
  · rw [if_pos h0, ext2ReadInode, if_pos (Or.inl h0)]
  rw [if_neg h0, show divisor fs.sb.sInodesPerGroup = .ok () from if_neg hs.inodesPerGroup]
  dsimp only [bind, Except.bind]
  by_cases hg : fs.groupCount ≤ inodeGroup fs ino
  · rw [if_pos hg, ext2ReadInode, if_pos (Or.inr hg)]
  · rw [if_neg hg, descriptor_eq hs (not_le.mp hg), divisor_blockSize hs,
      intoBuffer_eq hs (by omega)]

lemma checkedPointerAt_eq (n i : ℕ) : checkedPointerAt fs n i = .ok (pointerAt fs n i) := by
  unfold checkedPointerAt
  by_cases h0 : n = 0
  · rw [if_pos h0, pointerAt, if_pos h0]
  · rw [if_neg h0, intoBuffer_eq hs (by omega)]
    rfl

end Safe

lemma checkedAllocLoop_eq (kind : BitmapKind) (n bg : ℕ) (fs : Ext2) (hs : fs.geometry.Safe)
    (hn : bg + n ≤ fs.groupCount) :
    checkedAllocLoop kind n bg fs = .ok (allocLoop kind n bg fs) := by
  induction n generalizing bg fs with
  | zero => rfl
  | succ n ih =>
    unfold checkedAllocLoop allocLoop
    rw [descriptor_eq hs (by omega)]
    dsimp only [bind, Except.bind]
    by_cases h0 : (fs.bgds bg).freeCount kind = 0
    · rw [if_pos h0, if_pos h0]
      exact ih (bg + 1) fs hs (by omega)
    rw [if_neg h0, if_neg h0, intoBuffer_eq hs (by omega)]
    dsimp only
    rcases hr : ext2ReadBlock fs ((fs.bgds bg).bitmapBlock kind) zeros with ⟨ok, buf, fs1⟩
    have hgeo : fs1.geometry = fs.geometry := (congrArg (fun r => r.2.2.geometry) hr).symm
    have hgc : fs1.groupCount = fs.groupCount := congrArg Geometry.groupCount hgeo
    have hnext := ih (bg + 1) fs1 (by rwa [hgeo]) (by omega)
    cases ok with
    | false => exact hnext
    | true =>
      dsimp only
      cases (List.range (fs1.sb.perGroup kind)).find? fun b => !bitAt buf b with
      | none => exact hnext
      | some b => rfl

lemma checkedGetFileBlock_eq (hs : fs.geometry.Safe) (inode : Inode) (b : ℕ) :
    checkedGetFileBlock fs inode b = .ok (ext2GetFileBlock fs inode b) := by
  unfold checkedGetFileBlock ext2GetFileBlock
  dsimp only
  split_ifs with h1 h2 h3
  · rfl
  · exact checkedPointerAt_eq hs ..
  · -- a double indirect block: there is one entry at least
    have hp : fs.blockSize / 4 ≠ 0 := by
      intro h0
      rw [h0, Nat.zero_mul] at h3
      exact Nat.not_lt_zero _ h3
    rw [show divisor (fs.blockSize / 4) = .ok () from if_neg hp, checkedPointerAt_eq hs]
    dsimp only [bind, Except.bind]
    exact checkedPointerAt_eq (by rwa [pointerAt_geometry]) ..
  · rfl

lemma checkedReadLoop_eq (inode : Inode) (offset toRead fuel : ℕ) (fs : Ext2) (out : List UInt8)
    (hs : fs.geometry.Safe) : checkedReadLoop inode offset toRead fuel fs out =
      .ok (vfsReadLoop inode offset toRead fuel fs out) := by
  induction fuel generalizing fs out with
  | zero => rfl
  | succ fuel ih =>
    unfold checkedReadLoop vfsReadLoop
    by_cases hlen : out.length < toRead
    · rw [if_pos hlen, if_pos hlen, divisor_blockSize hs]
      dsimp only [bind, Except.bind]
      rw [checkedGetFileBlock_eq hs]
      dsimp only
      rcases hr : ext2GetFileBlock fs inode (u32 (u64 (offset + out.length) / fs.blockSize)) with
        ⟨phys, fs1⟩
      have hs1 : fs1.geometry.Safe := by
        rw [show fs1 = (ext2GetFileBlock fs inode _).2 from (congrArg Prod.snd hr).symm,
          ext2GetFileBlock_geometry]
        exact hs
      cases phys with
      | zero => exact ih fs1 _ hs1
      | succ phys =>
        simp only [intoBuffer_eq hs1 le_rfl]
        rcases hb : ext2ReadBlock fs1 (phys + 1) zeros with ⟨ok, buf, fs2⟩
        have hs2 : fs2.geometry.Safe := by
          rw [show fs2 = (ext2ReadBlock fs1 (phys + 1) zeros).2.2 from
            (congrArg (fun r => r.2.2) hb).symm, ext2ReadBlock_geometry]
          exact hs1
        cases ok with
        | false => rfl
        | true => exact ih fs2 _ hs2
    · rw [if_neg hlen, if_neg hlen]

lemma checkedDirBlock_eq (hs : fs.geometry.Safe) (inode : Inode) (b : ℕ) :
    checkedDirBlock fs inode b = .ok (dirBlockEntries fs inode b) := by
  have hgeo := ext2GetFileBlock_geometry fs inode b
  unfold checkedDirBlock dirBlockEntries
  rw [checkedGetFileBlock_eq hs]
  dsimp only [bind, Except.bind]
  rcases hr : ext2GetFileBlock fs inode b with ⟨phys, fs1⟩
  rw [hr] at hgeo
  cases phys with
  | zero => rfl
  | succ phys =>
    simp only [intoBuffer_eq (hgeo ▸ hs) le_rfl]
    rcases ext2ReadBlock fs1 (phys + 1) zeros with ⟨ok, buf, fs2⟩
    cases ok <;> rfl

lemma checkedFindEntry_eq (name : List UInt8) (es : List DirEntry) (fs : Ext2)
    (hs : fs.geometry.Safe) : checkedFindEntry name es fs = .ok (findEntry name es fs) := by
  induction es generalizing fs with
  | nil => rfl
  | cons e es ih =>
    unfold checkedFindEntry findEntry
    by_cases hname : name.length = e.nameLen ∧ name = e.name
    · have hgeo := ext2ReadInode_geometry fs e.inode
      rw [if_pos hname, if_pos hname, checkedReadInode_eq hs]
      dsimp only [bind, Except.bind]
      rcases hr : ext2ReadInode fs e.inode with ⟨found, fs1⟩
      rw [hr] at hgeo
      cases found with
      | some inode => rfl
      | none => exact ih fs1 (hgeo ▸ hs)
    · rw [if_neg hname, if_neg hname]
      exact ih fs hs

lemma checkedFindBlocks_eq (inode : Inode) (name : List UInt8) (n b : ℕ) (fs : Ext2)
    (hs : fs.geometry.Safe) :
    checkedFindBlocks inode name n b fs = .ok (findBlocks inode name n b fs) := by
  induction n generalizing b fs with
  | zero => rfl
  | succ n ih =>
    have hgeo := dirBlockEntries_geometry fs inode b
    have hgeo' := (findEntry_geometry name (dirBlockEntries fs inode b).1
      (dirBlockEntries fs inode b).2).trans hgeo
    unfold checkedFindBlocks findBlocks
    rw [checkedDirBlock_eq hs]
    dsimp only [bind, Except.bind]
    rw [checkedFindEntry_eq _ _ _ (hgeo ▸ hs)]
    dsimp only
    rcases hf : findEntry name (dirBlockEntries fs inode b).1 (dirBlockEntries fs inode b).2 with
      ⟨found, fs1⟩
    rw [hf] at hgeo'
    cases found with
    | some x => rfl
    | none => exact ih (b + 1) fs1 (hgeo' ▸ hs)

lemma checkedReaddirBlocks_eq (inode : Inode) (n b index : ℕ) (fs : Ext2) (hs : fs.geometry.Safe) :
    checkedReaddirBlocks inode n b index fs = .ok (readdirBlocks inode n b index fs) := by
  induction n generalizing b index fs with
  | zero => rfl
  | succ n ih =>
    unfold checkedReaddirBlocks readdirBlocks
    rw [checkedDirBlock_eq hs]
    dsimp only [bind, Except.bind]
    cases (dirBlockEntries fs inode b).1[index]? with
    | some e => rfl
    | none => exact ih (b + 1) _ _ (dirBlockEntries_geometry fs inode b ▸ hs)

/-! ## Later calls -/

/-- A call of the file system. -/
inductive FsCall where
  | readInode (ino : ℕ)
  | allocBlock
  | allocInode
  | vfsRead (h offset size : ℕ)
  | finddir (dir : ℕ) (name : List UInt8)
  | readdir (dir index : ℕ)

/-- The volume after a call. -/
def fsCall (fs : Ext2) : FsCall → Ext2
  | .readInode ino => (ext2ReadInode fs ino).2
  | .allocBlock => (ext2AllocBlock fs).2
  | .allocInode => (ext2AllocInode fs).2
  | .vfsRead h offset size => (ext2VfsRead fs h offset size).2
  | .finddir dir name => (ext2VfsFinddir fs dir name).2
  | .readdir dir index => (ext2VfsReaddir fs dir index).2

/-- The call with the places at which it can go wrong. -/
def checkedCall (fs : Ext2) : FsCall → Except Hazard Ext2
  | .readInode ino => (checkedReadInode fs ino).map Prod.snd
  | .allocBlock => (checkedAllocLoop .block fs.groupCount 0 fs).map Prod.snd
  | .allocInode => (checkedAllocLoop .inode fs.groupCount 0 fs).map Prod.snd
  | .vfsRead h offset size => (checkedVfsRead fs h offset size).map Prod.snd
  | .finddir dir name => (checkedFinddir fs dir name).map Prod.snd
  | .readdir dir index => (checkedReaddir fs dir index).map Prod.snd

/-- **No call goes wrong** on a volume of safe geometry, and it does what the call does. -/
lemma checkedCall_eq (hs : fs.geometry.Safe) (c : FsCall) : checkedCall fs c = .ok (fsCall fs c) := by
  cases c with
  | readInode ino =>
    dsimp only [checkedCall]
    rw [checkedReadInode_eq hs]
    rfl
  | allocBlock =>
    dsimp only [checkedCall]
    rw [checkedAllocLoop_eq _ _ _ _ hs (by omega)]
    rfl
  | allocInode =>
    dsimp only [checkedCall]
    rw [checkedAllocLoop_eq _ _ _ _ hs (by omega)]
    rfl
  | vfsRead h offset size =>
    dsimp only [checkedCall, checkedVfsRead]
    rw [checkedReadLoop_eq _ _ _ _ _ _ hs]
    rfl
  | finddir dir name =>
    dsimp only [checkedCall, checkedFinddir, fsCall, ext2VfsFinddir]
    rw [divisor_blockSize hs]
    dsimp only [bind, Except.bind]
    rw [checkedFindBlocks_eq _ _ _ _ _ hs]
    dsimp only
    rcases findBlocks (fs.pool dir).inode name (dirBlocks fs (fs.pool dir).inode) 0 fs with
      ⟨found, fs1⟩
    cases found <;> rfl
  | readdir dir index =>
    dsimp only [checkedCall, checkedReaddir, fsCall, ext2VfsReaddir]
    rw [divisor_blockSize hs]
    dsimp only [bind, Except.bind]
    rw [checkedReaddirBlocks_eq _ _ _ _ _ hs]
    rfl

/-- What can happen to a mounted volume: a call, a write or a new file; and the device may hold
anything by then, and answer as it likes. -/
inductive FsEvent where
  | call (c : FsCall)
  | write (h offset : ℕ) (data : List UInt8)
  | create (dir : ℕ) (name : List UInt8) (mode : ℕ)
  | device (dev : BlockDev)

/-- The volume afterwards. -/
def fsStep (fs : Ext2) : FsEvent → Ext2
  | .call c => fsCall fs c
  | .write h offset data => (ext2VfsWrite fs h offset data).2
  | .create dir name mode => (ext2VfsCreate fs dir name mode).2
  | .device dev => { fs with dev := dev }

lemma fsCall_geometry (fs : Ext2) (c : FsCall) : (fsCall fs c).geometry = fs.geometry := by
  cases c with
  | readInode ino => exact ext2ReadInode_geometry ..
  | allocBlock => exact allocLoop_geometry ..
  | allocInode => exact allocLoop_geometry ..
  | vfsRead h offset size => exact vfsReadLoop_geometry ..
  | finddir dir name =>
    have hgeo := findBlocks_geometry (fs.pool dir).inode name (dirBlocks fs (fs.pool dir).inode) 0 fs
    dsimp only [fsCall, ext2VfsFinddir]
    split <;> rename_i heq <;> rw [heq] at hgeo
    · exact hgeo
    · exact (ext2CreateVfsNode_geometry ..).trans hgeo
  | readdir dir index => exact readdirBlocks_geometry ..

/-- **Nothing changes the geometry** of a mounted volume. -/
lemma fsStep_geometry (fs : Ext2) (e : FsEvent) : (fsStep fs e).geometry = fs.geometry := by
  cases e with
  | call c => exact fsCall_geometry fs c
  | write h offset data => exact ext2VfsWrite_geometry ..
  | create dir name mode => exact ext2VfsCreate_geometry ..
  | device dev => rfl

/-! ## Mounting -/

/-- The fields of the superblock that are used after mounting. -/
def superBlockAt (buf : ℕ → UInt8) : SuperBlock where
  sFreeBlocksCount := le buf 12 4
  sFreeInodesCount := le buf 16 4
  sFirstDataBlock := le buf 20 4
  sBlocksPerGroup := le buf 32 4
  sInodesPerGroup := le buf 40 4

/-- The descriptor `g` of a block of descriptors. -/
def groupDescAt (buf : ℕ → UInt8) (g : ℕ) : GroupDesc where
  bgBlockBitmap := le buf (32 * g) 4
  bgInodeBitmap := le buf (32 * g + 4) 4
  bgInodeTable := le buf (32 * g + 8) 4
  bgFreeBlocksCount := le buf (32 * g + 12) 2
  bgFreeInodesCount := le buf (32 * g + 14) 2

/-- `s_magic` is `EXT2_SUPER_MAGIC`. -/
def magicOk (buf : ℕ → UInt8) : Bool := le buf 56 2 == 0xEF53

/-- `1024 << s_log_block_size`; the processor takes the count modulo 32. -/
def mountBlockSize (buf : ℕ → UInt8) : ℕ := u32 (1024 * 2 ^ (le buf 24 4 % 32))

/-- The size of an inode: 128, or `s_inode_size` from revision 1 on. -/
def mountInodeSize (buf : ℕ → UInt8) : ℕ :=
  if 1 ≤ le buf 76 4 then if le buf 88 2 = 0 then 128 else le buf 88 2 else 128

/-- The number of groups, rounded up in `uint32_t`. -/
def mountGroupCount (buf : ℕ → UInt8) : ℕ :=
  decr 0xFFFFFFFF (u32 (le buf 4 4 + le buf 32 4)) / le buf 32 4

/-- The number of bytes of `bgds_buf`. -/
def bgdsBytes : ℕ := 64 * 32

/-- The last part of `ext2_mount_device`: the root inode and its node. -/
def mountRoot (fs : Ext2) (mountpoint : List UInt8) (room : Bool) :
    Except Hazard (Option ℕ × Ext2) := do
  let r ← checkedReadInode fs 2
  match r with
  | (none, fs) => .ok (none, fs)
  | (some inode, fs) =>
    match ext2CreateVfsNode fs 2 mountpoint inode with
    | (none, fs) => .ok (none, fs)
    | (some root, fs) => .ok (if room then some root else none, fs)

/-- The part before: the block of the group descriptors, which is read into `bgds_buf`. -/
def mountGroups (fs : Ext2) (bgdsBuf : ℕ → UInt8) (mountpoint : List UInt8) (room : Bool) :
    Except Hazard (Option ℕ × Ext2) := do
  intoBuffer fs bgdsBytes
  match ext2ReadBlock fs (if fs.blockSize = 1024 then 2 else 1) bgdsBuf with
  | (false, _, fs) => .ok (none, fs)
  | (true, descs, fs) => mountRoot { fs with bgds := groupDescAt descs } mountpoint room

/-- `ext2_mount_device` over the old contents of `primary_ext2` and of `bgds_buf`: the root node, or
`none` for -1; `room` says whether `vfs_mount` has an entry left. -/
def ext2MountDevice (fs : Ext2) (bgdsBuf : ℕ → UInt8) (dev : BlockDev) (mountpoint : List UInt8)
    (room : Bool) : Except Hazard (Option ℕ × Ext2) :=
  let r := readBlocks dev 2 2 zeros
  let buf := r.2.1
  if r.1 = false then .ok (none, { fs with dev := r.2.2 })
  else if magicOk buf = false then .ok (none, { fs with dev := r.2.2, sb := superBlockAt buf })
  else do
    divisor dev.sectorSize
    divisor (superBlockAt buf).sBlocksPerGroup
    mountGroups { fs with
      dev := r.2.2
      sb := superBlockAt buf
      blockSize := mountBlockSize buf
      sectorsPerBlock := mountBlockSize buf / dev.sectorSize
      inodeSize := mountInodeSize buf
      groupCount := mountGroupCount buf } bgdsBuf mountpoint room

/-- No later call goes wrong, whatever the device, the nodes and the counters hold by then. -/
def LaterSafe (fs : Ext2) : Prop :=
  ∀ fs' : Ext2, fs'.geometry = fs.geometry → ∀ c, ∃ t, checkedCall fs' c = .ok t

/-- Mounting returns -1, or leaves a volume on which no later call goes wrong. -/
def MountSafe (r : Except Hazard (Option ℕ × Ext2)) : Prop :=
  match r with
  | .error _ => False
  | .ok (none, _) => True
  | .ok (some _, fs) => LaterSafe fs

/-- The condition on the superblock that is read from the device: blocks of 1024 bytes, at least
one block and one inode per group, and no more groups than there are descriptors in a block. -/
structure GoodSuperBlock (dev : BlockDev) : Prop where
  sectorSize : dev.sectorSize ≠ 0
  blockSize : mountBlockSize (readBlocks dev 2 2 zeros).2.1 = 1024
  blocksPerGroup : (superBlockAt (readBlocks dev 2 2 zeros).2.1).sBlocksPerGroup ≠ 0
  inodesPerGroup : (superBlockAt (readBlocks dev 2 2 zeros).2.1).sInodesPerGroup ≠ 0
  groupCount : mountGroupCount (readBlocks dev 2 2 zeros).2.1 ≤ 32

/-! ## Which volumes are safe -/

/-- A node with a block. -/
def mappedNode : Ext2Node := ⟨3, setBlock (setSize zeros 1) 0 1, [], 1, 0, false⟩

lemma checkedVfsRead_mapped (hp : (fs.pool 0).inode = mappedNode.inode) {t : List UInt8 × Ext2}
    (h : checkedVfsRead fs 0 0 1 = .ok t) : fs.blockSize ≠ 0 ∧ fs.blockSize ≤ 1024 := by
  have hlen : readLength mappedNode.inode 0 1 = 1 := by decide +kernel
  have hblock : iBlock mappedNode.inode 0 = 1 := by decide +kernel
  have hindex : u32 (u64 (0 + ([] : List UInt8).length) / fs.blockSize) = 0 :=
    congrArg u32 (Nat.zero_div _)
  have hfile : checkedGetFileBlock fs mappedNode.inode
      (u32 (u64 (0 + ([] : List UInt8).length) / fs.blockSize)) = .ok (1, fs) := by
    rw [hindex, checkedGetFileBlock]
    dsimp only
    rw [if_pos (by omega), hblock]
  unfold checkedVfsRead at h
  dsimp only at h
  rw [hp, hlen, checkedReadLoop, if_pos (by decide)] at h
  refine ⟨fun h0 => ?_, ?_⟩
  · rw [show divisor fs.blockSize = .error .divByZero from if_pos h0] at h
    cases h
  · by_contra hle
    by_cases h0 : fs.blockSize = 0
    · omega
    rw [show divisor fs.blockSize = .ok () from if_neg h0] at h
    dsimp only [bind, Except.bind] at h
    rw [hfile] at h
    simp only [show intoBuffer fs 1024 = .error .shortBuffer from if_neg hle] at h
    cases h

lemma checkedAllocLoop_full {kind : BitmapKind} (hz : ∀ g, (fs.bgds g).freeCount kind = 0)
    (n bg : ℕ) (hn : 0 < n) (hlt : fs.blockSize / 32 < bg + n) :
    checkedAllocLoop kind n bg fs = .error .descriptor := by
  induction n generalizing bg with
  | zero => omega
  | succ n ih =>
    unfold checkedAllocLoop
    by_cases hbg : bg < fs.blockSize / 32
    · rw [show descriptor fs bg = .ok () from if_pos hbg]
      dsimp only [bind, Except.bind]
      rw [if_pos (hz bg)]
      exact ih (bg + 1) (by omega) (by omega)
    · rw [show descriptor fs bg = .error .descriptor from if_neg hbg]
      rfl

/-- **The volumes on which no later call goes wrong** are those of safe geometry: otherwise a file
with a byte cannot be read, or the search for a free block goes past the descriptors. -/
lemma laterSafe_iff (hipg : fs.sb.sInodesPerGroup ≠ 0) : LaterSafe fs ↔ fs.geometry.Safe := by
  constructor
  · intro hsafe
    obtain ⟨t, hread⟩ := hsafe { fs with pool := fun _ => mappedNode } rfl (.vfsRead 0 0 1)
    obtain ⟨t', halloc⟩ := hsafe { fs with bgds := fun _ => ⟨0, 0, 0, 0, 0⟩ } rfl .allocBlock
    obtain ⟨r, hr⟩ : ∃ r, checkedVfsRead { fs with pool := fun _ => mappedNode } 0 0 1 = .ok r := by
      dsimp only [checkedCall] at hread
      cases hr : checkedVfsRead { fs with pool := fun _ => mappedNode } 0 0 1 with
      | ok r => exact ⟨r, rfl⟩
      | error e =>
        rw [hr] at hread
        cases hread
    obtain ⟨hpos, hle⟩ := checkedVfsRead_mapped rfl hr
    refine ⟨hpos, hle, hipg, ?_⟩
    by_contra hgc
    have hlt : fs.blockSize / 32 < fs.groupCount := not_le.mp hgc
    dsimp only [checkedCall] at halloc
    rw [checkedAllocLoop_full (fun _ => rfl) _ _ (by omega) (by dsimp only; omega)] at halloc
    cases halloc
  · intro hs fs' hgeo c
    exact ⟨_, checkedCall_eq (hgeo ▸ hs) c⟩

/-- The geometry that mounting takes from the superblock. -/
def mountGeometry (dev : BlockDev) : Geometry :=
  let buf := (readBlocks dev 2 2 zeros).2.1
  { blockSize := mountBlockSize buf
    sectorsPerBlock := mountBlockSize buf / dev.sectorSize
    groupCount := mountGroupCount buf
    inodeSize := mountInodeSize buf
    firstDataBlock := (superBlockAt buf).sFirstDataBlock
    blocksPerGroup := (superBlockAt buf).sBlocksPerGroup
    inodesPerGroup := (superBlockAt buf).sInodesPerGroup }

section Mount

variable {bgdsBuf : ℕ → UInt8} {dev : BlockDev} {mountpoint : List UInt8} {room : Bool}

lemma bind_eq_ok {ε α β : Type} {x : Except ε α} {f : α → Except ε β} {r : β}
    (h : (x >>= f) = .ok r) : ∃ a, x = .ok a ∧ f a = .ok r := by
  cases x with
  | error e => cases h
  | ok a => exact ⟨a, rfl, h⟩

lemma divisor_eq_ok {d : ℕ} {u : Unit} (h : divisor d = .ok u) : d ≠ 0 := by
  intro h0
  rw [divisor, if_pos h0] at h
  cases h

lemma checkedReadInode_ok {ino : ℕ} {r : Option Inode × Ext2} (h0 : ino ≠ 0)
    (h : checkedReadInode fs ino = .ok r) :
    fs.sb.sInodesPerGroup ≠ 0 ∧ r = ext2ReadInode fs ino := by
  unfold checkedReadInode at h
  rw [if_neg h0] at h
  obtain ⟨_, hdiv, h⟩ := bind_eq_ok h
  refine ⟨divisor_eq_ok hdiv, ?_⟩
  split_ifs at h with hg
  · rw [ext2ReadInode, if_pos (Or.inr hg)]
    exact (Except.ok.inj h).symm
  · obtain ⟨_, -, h⟩ := bind_eq_ok h
    obtain ⟨_, -, h⟩ := bind_eq_ok h
    obtain ⟨_, -, h⟩ := bind_eq_ok h
    exact (Except.ok.inj h).symm

lemma mountRoot_some {root : ℕ} {fs' : Ext2} (h : mountRoot fs mountpoint room = .ok (some root, fs')) :
    fs.sb.sInodesPerGroup ≠ 0 ∧ fs'.geometry = fs.geometry := by
  obtain ⟨r, hr, h⟩ := bind_eq_ok h
  obtain ⟨hipg, rfl⟩ := checkedReadInode_ok (by omega) hr
  refine ⟨hipg, ?_⟩
  have hgeo := ext2ReadInode_geometry fs 2
  split at h <;> rename_i heq <;> rw [heq] at hgeo
  · cases h
  · rename_i inode fs1
    have hnode := ext2CreateVfsNode_geometry fs1 2 mountpoint inode
    split at h <;> rename_i hc <;> rw [hc] at hnode
    · cases h
    · obtain ⟨-, rfl⟩ := Prod.mk.inj (Except.ok.inj h)
      exact hnode.trans hgeo

lemma mountGroups_some {root : ℕ} {fs' : Ext2}
    (h : mountGroups fs bgdsBuf mountpoint room = .ok (some root, fs')) :
    fs.sb.sInodesPerGroup ≠ 0 ∧ fs'.geometry = fs.geometry := by
  obtain ⟨_, -, h⟩ := bind_eq_ok h
  split at h <;> rename_i heq
  · cases h
  · rename_i descs fs1
    have hgeo : fs1.geometry = fs.geometry := (congrArg (fun r => r.2.2.geometry) heq).symm
    obtain ⟨hipg, hgeo'⟩ := mountRoot_some h
    have h1 : fs1.sb.sInodesPerGroup = fs.sb.sInodesPerGroup :=
      congrArg Geometry.inodesPerGroup hgeo
    exact ⟨h1 ▸ hipg, hgeo'.trans hgeo⟩

/-- **What a volume that has been mounted has passed**, and its geometry. -/
lemma ext2MountDevice_some {root : ℕ} {fs' : Ext2}
    (h : ext2MountDevice fs bgdsBuf dev mountpoint room = .ok (some root, fs')) :
    dev.sectorSize ≠ 0 ∧ (mountGeometry dev).blocksPerGroup ≠ 0 ∧
      (mountGeometry dev).inodesPerGroup ≠ 0 ∧ fs'.geometry = mountGeometry dev := by
  unfold ext2MountDevice at h
  unfold mountGeometry
  generalize readBlocks dev 2 2 zeros = r at h ⊢
  dsimp only at h ⊢
  split_ifs at h
  · cases h
  · cases h
  · obtain ⟨_, hsec, h⟩ := bind_eq_ok h
    obtain ⟨_, hbpg, h⟩ := bind_eq_ok h
    obtain ⟨hipg, hgeo⟩ := mountGroups_some h
    exact ⟨divisor_eq_ok hsec, divisor_eq_ok hbpg, hipg, hgeo⟩

lemma mountRoot_ok (hs : fs.geometry.Safe) : ∃ r, mountRoot fs mountpoint room = .ok r := by
  unfold mountRoot
  rw [checkedReadInode_eq hs]
  dsimp only [bind, Except.bind]
  split
  · exact ⟨_, rfl⟩
  · split <;> exact ⟨_, rfl⟩

lemma mountGroups_ok (hs : fs.geometry.Safe) : ∃ r, mountGroups fs bgdsBuf mountpoint room = .ok r := by
  unfold mountGroups
  rw [intoBuffer_eq hs (by decide)]
  dsimp only [bind, Except.bind]
  split <;> rename_i heq
  · exact ⟨_, rfl⟩
  · exact mountRoot_ok ((congrArg (fun r => r.2.2.geometry) heq).symm ▸ hs)

lemma GoodSuperBlock.safe (h : GoodSuperBlock dev) : (mountGeometry dev).Safe where
  blockSize_pos := h.blockSize.trans_ne (by decide)
  blockSize_le := h.blockSize.le
  inodesPerGroup := h.inodesPerGroup
  groupCount := h.groupCount.trans (by
    rw [show (mountGeometry dev).blockSize = 1024 from h.blockSize])

lemma ext2MountDevice_ok (fs : Ext2) (bgdsBuf : ℕ → UInt8) (mountpoint : List UInt8) (room : Bool)
    (h : GoodSuperBlock dev) :
    ∃ r, ext2MountDevice fs bgdsBuf dev mountpoint room = .ok r := by
  have hsafe := h.safe
  obtain ⟨hsec, -, hbpg, -, -⟩ := h
  unfold mountGeometry at hsafe
  unfold ext2MountDevice
  generalize readBlocks dev 2 2 zeros = r at hsafe hbpg ⊢
  dsimp only at hsafe ⊢
  split_ifs
  · exact ⟨_, rfl⟩
  · exact ⟨_, rfl⟩
  · rw [show divisor dev.sectorSize = .ok () from if_neg hsec,
      show divisor (superBlockAt r.2.1).sBlocksPerGroup = .ok () from if_neg hbpg]
    dsimp only [bind, Except.bind]
    exact mountGroups_ok hsafe

lemma mountBlockSize_cases (buf : ℕ → UInt8) :
    mountBlockSize buf = 0 ∨ 1024 ≤ mountBlockSize buf := by
  unfold mountBlockSize u32
  have hlt : le buf 24 4 % 32 < 32 := Nat.mod_lt _ (by norm_num)
  generalize le buf 24 4 % 32 = k at hlt
  interval_cases k <;> decide

/-- **Mounting is safe** exactly if it returns -1 or the superblock is good; then nothing that
happens to the volume makes a later call go wrong. -/
theorem mountSafe_iff (fs : Ext2) (bgdsBuf : ℕ → UInt8) (dev : BlockDev) (mountpoint : List UInt8)
    (room : Bool) :
    (MountSafe (ext2MountDevice fs bgdsBuf dev mountpoint room) ↔
      (∃ fs', ext2MountDevice fs bgdsBuf dev mountpoint room = .ok (none, fs')) ∨
        GoodSuperBlock dev) ∧
      ∀ root fs', ext2MountDevice fs bgdsBuf dev mountpoint room = .ok (some root, fs') →
        GoodSuperBlock dev → ∀ es c, checkedCall (Runs.runFrom fsStep fs' es) c =
          .ok (fsCall (Runs.runFrom fsStep fs' es) c) := by
  refine ⟨⟨fun hsafe => ?_, ?_⟩, fun root fs' hmount hgood es c => ?_⟩
  · cases hr : ext2MountDevice fs bgdsBuf dev mountpoint room with
    | error e =>
      rw [hr] at hsafe
      exact hsafe.elim
    | ok r =>
      obtain ⟨root, fs'⟩ := r
      cases root with
      | none => exact Or.inl ⟨fs', rfl⟩
      | some root =>
        rw [hr] at hsafe
        obtain ⟨hsec, hbpg, hipg, hgeo⟩ := ext2MountDevice_some hr
        have hipg' : fs'.sb.sInodesPerGroup ≠ 0 := by
          rw [show fs'.sb.sInodesPerGroup = _ from congrArg Geometry.inodesPerGroup hgeo]
          exact hipg
        have hs := (laterSafe_iff hipg').mp hsafe
        rw [hgeo] at hs
        have hbs : (mountGeometry dev).blockSize = 1024 := by
          have h1 := hs.blockSize_pos
          have h2 := hs.blockSize_le
          have h3 : (mountGeometry dev).blockSize = 0 ∨ 1024 ≤ (mountGeometry dev).blockSize :=
            mountBlockSize_cases _
          omega
        have hgc := hs.groupCount
        rw [hbs] at hgc
        exact Or.inr ⟨hsec, hbs, hbpg, hipg, hgc⟩
  · rintro (⟨fs', hr⟩ | hgood)
    · rw [hr]
      trivial
    · obtain ⟨⟨root, fs'⟩, hr⟩ := ext2MountDevice_ok fs bgdsBuf mountpoint room hgood
      rw [hr]
      cases root with
      | none => trivial
      | some root =>
        obtain ⟨-, -, hipg, hgeo⟩ := ext2MountDevice_some hr
        have hipg' : fs'.sb.sInodesPerGroup ≠ 0 := by
          rw [show fs'.sb.sInodesPerGroup = _ from congrArg Geometry.inodesPerGroup hgeo]
          exact hipg
        exact (laterSafe_iff hipg').mpr (hgeo ▸ hgood.safe)
  · have hgeo : (Runs.runFrom fsStep fs' es).geometry = mountGeometry dev :=
      Runs.invariant_runFrom_of_step (I := fun t => t.geometry = mountGeometry dev)
        (fun t e ht => (fsStep_geometry t e).trans ht) (ext2MountDevice_some hmount).2.2.2 es
    exact checkedCall_eq (hgeo ▸ hgood.safe) c

end Mount

/-! ## Two disks -/

/-- A disk with 64 blocks in one group, with `log` for `s_log_block_size`; its inode table is
block 5, and the root directory is block 6. -/
def formatted (log : ℕ) : BlockDev where
  bytes :=
    let super := putLe (putLe (putLe zeros (1024 + 4) 4 64) (1024 + 24) 4 log) (1024 + 32) 4 8192
    let super := putLe (putLe super (1024 + 40) 4 8) (1024 + 56) 2 0xEF53
    let descs := putLe super ((if log = 0 then 2048 else 1024 * 2 ^ log) + 8) 4 5
    let root := 5 * (1024 * 2 ^ log) + 128
    putLe (putLe (putLe descs root 2 0x41ED) (root + 4) 4 1024) (root + 40) 4 6
  totalSectors := 512
  sectorSize := 512
  outcomes := fun _ => none

/-- `primary_ext2` before anything has been mounted. -/
def unmounted : Ext2 where
  dev := formatted 0
  sb := ⟨0, 0, 0, 0, 0⟩
  blockSize := 0
  sectorsPerBlock := 0
  groupCount := 0
  bgds := fun _ => ⟨0, 0, 0, 0, 0⟩
  inodeSize := 0
  pool := fun _ => ⟨0, zeros, [], 0, 0, false⟩
  poolCount := 0
  writeBuf := zeros
  dirBlk := zeros

/-- A disk with blocks of 1024 bytes can be mounted safely. -/
theorem mountSafe_iff_formatted :
    MountSafe (ext2MountDevice unmounted zeros (formatted 0) [47] true) :=
  (mountSafe_iff unmounted zeros (formatted 0) [47] true).1.mpr (Or.inr
    ⟨by decide, by decide +kernel, by decide +kernel, by decide +kernel, by decide +kernel⟩)

lemma not_mountSafe {m : Except Hazard (Option ℕ × Ext2)} {root : ℕ} {c : FsCall} {e : Hazard}
    (hroot : m.map Prod.fst = .ok (some root))
    (hcall : (m >>= fun r => (checkedCall r.2 c).map fun _ => ()) = .error e) : ¬ MountSafe m := by
  cases m with
  | error e' => exact id
  | ok r =>
    obtain ⟨root', fs⟩ := r
    obtain rfl : root' = some root := Except.ok.inj hroot
    intro hsafe
    obtain ⟨t, ht⟩ := hsafe fs rfl c
    change (checkedCall fs c).map (fun _ => ()) = .error e at hcall
    rw [ht] at hcall
    cases hcall

/-- **Blocks of 2048 bytes**: the disk is mounted, and the first lookup in its root directory reads
a block into a buffer of 1024 bytes. -/
theorem mount_short_buffer :
    (ext2MountDevice unmounted zeros (formatted 1) [47] true).map Prod.fst = .ok (some 0) ∧
      (ext2MountDevice unmounted zeros (formatted 1) [47] true >>= fun r =>
        (checkedCall r.2 (.finddir 0 [97])).map fun _ => ()) = .error .shortBuffer ∧
      ¬ MountSafe (ext2MountDevice unmounted zeros (formatted 1) [47] true) := by
  have hroot : (ext2MountDevice unmounted zeros (formatted 1) [47] true).map Prod.fst =
      .ok (some 0) := by
    decide +kernel
  have hcall : (ext2MountDevice unmounted zeros (formatted 1) [47] true >>= fun r =>
      (checkedCall r.2 (.finddir 0 [97])).map fun _ => ()) = .error .shortBuffer := by
    decide +kernel
  exact ⟨hroot, hcall, not_mountSafe hroot hcall⟩

end Bangos.Fs
