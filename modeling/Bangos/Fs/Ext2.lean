import Bangos.Drivers.Block
import Bangos.Lib.Bitmap
import Bangos.Mm.Memory

/-!
# The ext2 file system (`kernel/fs/ext2/ext2.c`)

The volume is a block device with the part of the superblock and the group descriptors that
the kernel keeps in memory.  An inode is the 128 bytes of an `ext2_inode_t`; every node handed
out keeps a copy of its own in the pool.  Arithmetic in `uint32_t` is reduced modulo `2 ^ 32`
(`u32`).

The static buffers of the code start out zero and are read only as far as a block has just been
read into them, so that they appear as fresh buffers here; the two that are used after a failed
read, those of `ext2_vfs_write` and `ext2_vfs_create`, are part of the state.
-/

namespace Bangos.Fs

open ByteMem Bangos.Drivers Bangos.Mm

/-- Reduction to a `uint32_t`. -/
def u32 (x : ℕ) : ℕ := x % 0x100000000

/-- The fields of `ext2_super_block_t` that are used after mounting. -/
structure SuperBlock where
  sFreeBlocksCount : ℕ
  sFreeInodesCount : ℕ
  sFirstDataBlock : ℕ
  sBlocksPerGroup : ℕ
  sInodesPerGroup : ℕ

/-- The fields of `ext2_group_desc_t` that are used. -/
structure GroupDesc where
  bgBlockBitmap : ℕ
  bgInodeBitmap : ℕ
  bgInodeTable : ℕ
  bgFreeBlocksCount : ℕ
  bgFreeInodesCount : ℕ

/-! ## Inodes -/

/-- `sizeof(ext2_inode_t)`. -/
def inodeBytes : ℕ := 128

/-- The bytes of an `ext2_inode_t`. -/
abbrev Inode := ℕ → UInt8

/-- `i_mode`. -/
def iMode (inode : Inode) : ℕ := le inode 0 2

/-- `i_size`. -/
def iSize (inode : Inode) : ℕ := le inode 4 4

/-- `i_blocks`. -/
def iBlocks (inode : Inode) : ℕ := le inode 28 4

/-- `i_block[n]`. -/
def iBlock (inode : Inode) (n : ℕ) : ℕ := le inode (40 + 4 * n) 4

/-- Set `i_mode`. -/
def setMode (inode : Inode) (v : ℕ) : Inode := putLe inode 0 2 v

/-- Set `i_size`. -/
def setSize (inode : Inode) (v : ℕ) : Inode := putLe inode 4 4 v

/-- Set `i_links_count`. -/
def setLinksCount (inode : Inode) (v : ℕ) : Inode := putLe inode 26 2 v

/-- Set `i_blocks`. -/
def setBlocks (inode : Inode) (v : ℕ) : Inode := putLe inode 28 4 v

/-- Set `i_block[n]`. -/
def setBlock (inode : Inode) (n v : ℕ) : Inode := putLe inode (40 + 4 * n) 4 v

/-! ## The state -/

/-- A node of the pool: `ext2_node_info_t` with its `vfs_node_t`. -/
structure Ext2Node where
  ino : ℕ
  inode : Inode
  name : List UInt8
  size : ℕ
  permissions : ℕ
  isDir : Bool

/-- The number of nodes in the pool. -/
def maxNodes : ℕ := 128

/-- `primary_ext2`, its device, the pool of nodes and the buffers that outlive a call. -/
structure Ext2 where
  dev : BlockDev
  sb : SuperBlock
  blockSize : ℕ
  sectorsPerBlock : ℕ
  groupCount : ℕ
  bgds : ℕ → GroupDesc
  inodeSize : ℕ
  pool : ℕ → Ext2Node
  poolCount : ℕ
  /-- `blk_buf` of `ext2_vfs_write`. -/
  writeBuf : ℕ → UInt8
  /-- `dir_blk` of `ext2_vfs_create`. -/
  dirBlk : ℕ → UInt8

/-- Write node `h` of the pool. -/
def Ext2.setNode (fs : Ext2) (h : ℕ) (node : Ext2Node) : Ext2 :=
  { fs with pool := Function.update fs.pool h node }

/-- A cleared buffer. -/
def zeros : ℕ → UInt8 := fun _ => 0

/-! ## Blocks and inodes on the disk -/

/-- `ext2_read_block`. -/
def ext2ReadBlock (fs : Ext2) (blockNum : ℕ) (buffer : ℕ → UInt8) : Bool × (ℕ → UInt8) × Ext2 :=
  let r := readBlocks fs.dev (blockNum * fs.sectorsPerBlock) fs.sectorsPerBlock buffer
  (r.1, r.2.1, { fs with dev := r.2.2 })

/-- `ext2_write_block`. -/
def ext2WriteBlock (fs : Ext2) (blockNum : ℕ) (buffer : ℕ → UInt8) : Bool × Ext2 :=
  let r := writeBlocks fs.dev (blockNum * fs.sectorsPerBlock) fs.sectorsPerBlock buffer
  (r.1, { fs with dev := r.2 })

/-- The group of an inode, and its place in the table of the group. -/
def inodeGroup (fs : Ext2) (ino : ℕ) : ℕ := (ino - 1) / fs.sb.sInodesPerGroup

/-- The offset of an inode in the table of its group. -/
def inodeOffset (fs : Ext2) (ino : ℕ) : ℕ :=
  u32 ((ino - 1) % fs.sb.sInodesPerGroup * fs.inodeSize)

/-- The block in which an inode lies. -/
def inodeBlock (fs : Ext2) (ino : ℕ) : ℕ :=
  u32 ((fs.bgds (inodeGroup fs ino)).bgInodeTable + inodeOffset fs ino / fs.blockSize)

/-- `ext2_read_inode`. -/
def ext2ReadInode (fs : Ext2) (ino : ℕ) : Option Inode × Ext2 :=
  if ino = 0 ∨ fs.groupCount ≤ inodeGroup fs ino then (none, fs)
  else
    match ext2ReadBlock fs (inodeBlock fs ino) zeros with
    | (false, _, fs') => (none, fs')
    | (true, buf, fs') =>
      (some (copy zeros 0 buf (inodeOffset fs ino % fs.blockSize) inodeBytes), fs')

/-- `ext2_write_inode`. -/
def ext2WriteInode (fs : Ext2) (ino : ℕ) (inode : Inode) : Bool × Ext2 :=
  if ino = 0 ∨ fs.groupCount ≤ inodeGroup fs ino then (false, fs)
  else
    match ext2ReadBlock fs (inodeBlock fs ino) zeros with
    | (false, _, fs') => (false, fs')
    | (true, buf, fs') =>
      ext2WriteBlock fs' (inodeBlock fs ino)
        (copy buf (inodeOffset fs ino % fs.blockSize) inode 0 inodeBytes)

/-! ## Allocation -/

/-- The two kinds of bitmap that a group has. -/
inductive BitmapKind where
  | block
  | inode
deriving DecidableEq

/-- The block of a bitmap. -/
def GroupDesc.bitmapBlock (g : GroupDesc) : BitmapKind → ℕ
  | .block => g.bgBlockBitmap
  | .inode => g.bgInodeBitmap

/-- The number of free entries that the group descriptor records. -/
def GroupDesc.freeCount (g : GroupDesc) : BitmapKind → ℕ
  | .block => g.bgFreeBlocksCount
  | .inode => g.bgFreeInodesCount

/-- The number of bits of a bitmap. -/
def SuperBlock.perGroup (sb : SuperBlock) : BitmapKind → ℕ
  | .block => sb.sBlocksPerGroup
  | .inode => sb.sInodesPerGroup

/-- `x--` in an unsigned type with the largest value `top`. -/
def decr (top x : ℕ) : ℕ := if x = 0 then top else x - 1

/-- The counters after an entry of group `bg` has been taken. -/
def Ext2.countTaken (fs : Ext2) (bg : ℕ) : BitmapKind → Ext2
  | .block =>
    let g := fs.bgds bg
    { fs with
      bgds := Function.update fs.bgds bg
        { g with bgFreeBlocksCount := decr 0xFFFF g.bgFreeBlocksCount }
      sb := { fs.sb with sFreeBlocksCount := decr 0xFFFFFFFF fs.sb.sFreeBlocksCount } }
  | .inode =>
    let g := fs.bgds bg
    { fs with
      bgds := Function.update fs.bgds bg
        { g with bgFreeInodesCount := decr 0xFFFF g.bgFreeInodesCount }
      sb := { fs.sb with sFreeInodesCount := decr 0xFFFFFFFF fs.sb.sFreeInodesCount } }

/-- The number of the entry that bit `b` of group `bg` stands for. -/
def SuperBlock.entryOf (sb : SuperBlock) (bg b : ℕ) : BitmapKind → ℕ
  | .block => u32 (bg * sb.sBlocksPerGroup + b + sb.sFirstDataBlock)
  | .inode => u32 (bg * sb.sInodesPerGroup + b + 1)

/-- The loop of `ext2_alloc_block` and `ext2_alloc_inode` over the groups from `bg` on, of which
`n` are left. -/
def allocLoop (kind : BitmapKind) : ℕ → ℕ → Ext2 → ℕ × Ext2
  | 0, _, fs => (0, fs)
  | n + 1, bg, fs =>
    if (fs.bgds bg).freeCount kind = 0 then allocLoop kind n (bg + 1) fs
    else
      match ext2ReadBlock fs ((fs.bgds bg).bitmapBlock kind) zeros with
      | (false, _, fs) => allocLoop kind n (bg + 1) fs
      | (true, bitmap, fs) =>
        match (List.range (fs.sb.perGroup kind)).find? fun b => !bitAt bitmap b with
        | none => allocLoop kind n (bg + 1) fs
        | some b =>
          let fs := (ext2WriteBlock fs ((fs.bgds bg).bitmapBlock kind) (setBitAt bitmap b)).2
          (fs.sb.entryOf bg b kind, fs.countTaken bg kind)

/-- `ext2_alloc_block`; 0 when the disk is full. -/
def ext2AllocBlock (fs : Ext2) : ℕ × Ext2 := allocLoop .block fs.groupCount 0 fs

/-- `ext2_alloc_inode`; 0 when there is no free inode. -/
def ext2AllocInode (fs : Ext2) : ℕ × Ext2 := allocLoop .inode fs.groupCount 0 fs

/-! ## Files -/

/-- The entry `n` of the pointer block `blockNum`, or 0. -/
def pointerAt (fs : Ext2) (blockNum n : ℕ) : ℕ × Ext2 :=
  if blockNum = 0 then (0, fs)
  else
    match ext2ReadBlock fs blockNum zeros with
    | (false, _, fs) => (0, fs)
    | (true, buf, fs) => (le buf (4 * n) 4, fs)

/-- `ext2_get_file_block`. -/
def ext2GetFileBlock (fs : Ext2) (inode : Inode) (fileBlockNum : ℕ) : ℕ × Ext2 :=
  let ptrsPerBlock := fs.blockSize / 4
  if fileBlockNum < 12 then (iBlock inode fileBlockNum, fs)
  else if fileBlockNum - 12 < ptrsPerBlock then pointerAt fs (iBlock inode 12) (fileBlockNum - 12)
  else
    let n := fileBlockNum - 12 - ptrsPerBlock
    if n < u32 (ptrsPerBlock * ptrsPerBlock) then
      let r := pointerAt fs (iBlock inode 13) (n / ptrsPerBlock)
      pointerAt r.2 r.1 (n % ptrsPerBlock)
    else (0, fs)

/-- `ext2_create_vfs_node`: the place of the node in the pool. -/
def ext2CreateVfsNode (fs : Ext2) (ino : ℕ) (name : List UInt8) (inode : Inode) :
    Option ℕ × Ext2 :=
  if maxNodes ≤ fs.poolCount then (none, fs)
  else
    (some fs.poolCount,
      { fs with
        pool := Function.update fs.pool fs.poolCount
          { ino := ino
            inode := inode
            name := name.take 127
            size := iSize inode
            permissions := iMode inode % 512
            isDir := iMode inode / 0x1000 * 0x1000 % 0x10000 == 0x4000 }
        poolCount := fs.poolCount + 1 })

/-- The loop of `ext2_vfs_read`, with the bytes read so far; every turn reads a byte at
least. -/
def vfsReadLoop (inode : Inode) (offset toRead : ℕ) : ℕ → Ext2 → List UInt8 → List UInt8 × Ext2
  | 0, fs, out => (out, fs)
  | fuel + 1, fs, out =>
    if out.length < toRead then
      let curPos := u64 (offset + out.length)
      let blkOffset := u32 (curPos % fs.blockSize)
      let chunk := min (fs.blockSize - blkOffset) (toRead - out.length)
      match ext2GetFileBlock fs inode (u32 (curPos / fs.blockSize)) with
      | (0, fs) => vfsReadLoop inode offset toRead fuel fs (out ++ List.replicate chunk 0)
      | (physBlk, fs) =>
        match ext2ReadBlock fs physBlk zeros with
        | (false, _, fs) => (out, fs)
        | (true, buf, fs) =>
          vfsReadLoop inode offset toRead fuel fs
            (out ++ (List.range chunk).map fun x => buf (blkOffset + x))
    else (out, fs)

/-- The clamp of a read at the end of the file, with the sum in 64 bits. -/
def clampLength (fileSize offset size : ℕ) : ℕ :=
  if fileSize ≤ offset then 0
  else if fileSize < u64 (offset + size) then fileSize - offset
  else size

/-- The number of bytes that `ext2_vfs_read` goes for. -/
def readLength (inode : Inode) (offset size : ℕ) : ℕ := clampLength (iSize inode) offset size

/-- `ext2_vfs_read` on node `h` of the pool: the bytes read. -/
def ext2VfsRead (fs : Ext2) (h offset size : ℕ) : List UInt8 × Ext2 :=
  let inode := (fs.pool h).inode
  let toRead := readLength inode offset size
  vfsReadLoop inode offset toRead toRead fs []

/-- The part of a turn of `ext2_vfs_write` that makes `blk_buf` hold the block: `none` when
there is no space. -/
def writePrepare (fs : Ext2) (inode : Inode) (fileBlk : ℕ) : Option (Inode × Ext2) × Ext2 :=
  if iBlock inode fileBlk = 0 then
    let r := ext2AllocBlock fs
    if r.1 = 0 then (none, r.2)
    else
      (some (setBlocks (setBlock inode fileBlk r.1)
          (u32 (iBlocks (setBlock inode fileBlk r.1) + fs.blockSize / 512)),
        { r.2 with writeBuf := fill r.2.writeBuf 0 fs.blockSize 0 }), r.2)
  else
    let r := ext2ReadBlock fs (iBlock inode fileBlk) fs.writeBuf
    (some (inode, { r.2.2 with writeBuf := r.2.1 }), r.2.2)

/-- The loop of `ext2_vfs_write`, with the number of bytes written so far. -/
def vfsWriteLoop (offset : ℕ) (data : List UInt8) : ℕ → Ext2 → Inode → ℕ → Ext2 × Inode × ℕ
  | 0, fs, inode, written => (fs, inode, written)
  | fuel + 1, fs, inode, written =>
    if written < data.length then
      let curPos := u64 (offset + written)
      let fileBlk := u32 (curPos / fs.blockSize)
      let blkOffset := u32 (curPos % fs.blockSize)
      let chunk := min (fs.blockSize - blkOffset) (data.length - written)
      if fileBlk < 12 then
        match writePrepare fs inode fileBlk with
        | (none, fs) => (fs, inode, written)
        | (some (inode, fs), _) =>
          let buf := copy fs.writeBuf blkOffset (fun x => data.getD x 0) written chunk
          let fs := (ext2WriteBlock { fs with writeBuf := buf } (iBlock inode fileBlk) buf).2
          vfsWriteLoop offset data fuel fs inode (written + chunk)
      else (fs, inode, written)
    else (fs, inode, written)

/-- `ext2_vfs_write` on node `h` of the pool: the number of bytes written. -/
def ext2VfsWrite (fs : Ext2) (h offset : ℕ) (data : List UInt8) : ℕ × Ext2 :=
  let node := fs.pool h
  let (fs, inode, written) := vfsWriteLoop offset data data.length fs node.inode 0
  if iSize inode < u64 (offset + written) then
    let inode := setSize inode (u64 (offset + written))
    let fs := fs.setNode h { node with inode := inode, size := iSize inode }
    (written, (ext2WriteInode fs node.ino inode).2)
  else (written, fs.setNode h { node with inode := inode })

/-! ## Directories -/

/-- A record of a directory block. -/
structure DirEntry where
  offset : ℕ
  inode : ℕ
  recLen : ℕ
  nameLen : ℕ
  fileType : ℕ
  name : List UInt8
deriving DecidableEq

/-- `ext2_dir_entry_2_t` at an offset of a block. -/
def entryAt (blk : ℕ → UInt8) (offset : ℕ) : DirEntry where
  offset := offset
  inode := le blk offset 4
  recLen := le blk (offset + 4) 2
  nameLen := (blk (offset + 6)).toNat
  fileType := (blk (offset + 7)).toNat
  name := (List.range (blk (offset + 6)).toNat).map fun x => blk (offset + 8 + x)

/-- The records of a block from an offset on, followed by `rec_len` up to the end of the block
or a record of length 0. -/
def blockEntries (blk : ℕ → UInt8) (blockSize : ℕ) : ℕ → ℕ → List DirEntry
  | 0, _ => []
  | fuel + 1, offset =>
    if offset < blockSize ∧ (entryAt blk offset).recLen ≠ 0 then
      entryAt blk offset :: blockEntries blk blockSize fuel (offset + (entryAt blk offset).recLen)
    else []

/-- A record in use. -/
def DirEntry.live (e : DirEntry) : Bool := e.inode != 0 && decide (0 < e.nameLen)

/-- The number of blocks of a directory. -/
def dirBlocks (fs : Ext2) (inode : Inode) : ℕ :=
  max 1 (decr 0xFFFFFFFF (u32 (iSize inode + fs.blockSize)) / fs.blockSize)

/-- The records in use of block `b` of a directory; none if it is a hole or cannot be read. -/
def dirBlockEntries (fs : Ext2) (inode : Inode) (b : ℕ) : List DirEntry × Ext2 :=
  match ext2GetFileBlock fs inode b with
  | (0, fs) => ([], fs)
  | (physBlk, fs) =>
    match ext2ReadBlock fs physBlk zeros with
    | (false, _, fs) => ([], fs)
    | (true, buf, fs) => ((blockEntries buf fs.blockSize fs.blockSize 0).filter DirEntry.live, fs)

/-- The inner loop of `ext2_vfs_finddir` over the records of a block: the first with the name
whose inode can be read. -/
def findEntry (name : List UInt8) : List DirEntry → Ext2 → Option (DirEntry × Inode) × Ext2
  | [], fs => (none, fs)
  | e :: es, fs =>
    if name.length = e.nameLen ∧ name = e.name then
      match ext2ReadInode fs e.inode with
      | (some inode, fs) => (some (e, inode), fs)
      | (none, fs) => findEntry name es fs
    else findEntry name es fs

/-- The outer loop of `ext2_vfs_finddir`, over `n` blocks from `b` on. -/
def findBlocks (inode : Inode) (name : List UInt8) :
    ℕ → ℕ → Ext2 → Option (DirEntry × Inode) × Ext2
  | 0, _, fs => (none, fs)
  | n + 1, b, fs =>
    let r := dirBlockEntries fs inode b
    match findEntry name r.1 r.2 with
    | (some x, fs) => (some x, fs)
    | (none, fs) => findBlocks inode name n (b + 1) fs

/-- `ext2_vfs_finddir` on node `dir` of the pool. -/
def ext2VfsFinddir (fs : Ext2) (dir : ℕ) (name : List UInt8) : Option ℕ × Ext2 :=
  let inode := (fs.pool dir).inode
  match findBlocks inode name (dirBlocks fs inode) 0 fs with
  | (none, fs) => (none, fs)
  | (some (e, child), fs) => ext2CreateVfsNode fs e.inode (e.name.take 127) child

/-- What `ext2_vfs_readdir` returns: `vfs_dirent_t`. -/
structure VfsDirent where
  dIno : ℕ
  dName : List UInt8
  isDir : Bool

/-- The loops of `ext2_vfs_readdir`, over `n` blocks from `b` on, with `index` records still to
skip. -/
def readdirBlocks (inode : Inode) : ℕ → ℕ → ℕ → Ext2 → Option VfsDirent × Ext2
  | 0, _, _, fs => (none, fs)
  | n + 1, b, index, fs =>
    let r := dirBlockEntries fs inode b
    match r.1[index]? with
    | some e => (some ⟨e.inode, e.name.take 127, e.fileType == 2⟩, r.2)
    | none => readdirBlocks inode n (b + 1) (index - r.1.length) r.2

/-- `ext2_vfs_readdir` on node `dir` of the pool. -/
def ext2VfsReaddir (fs : Ext2) (dir index : ℕ) : Option VfsDirent × Ext2 :=
  let inode := (fs.pool dir).inode
  readdirBlocks inode (dirBlocks fs inode) 0 index fs

/-! ## Creating a file -/

/-- `8 + ((len + 3) & ~3)`: the space that a record with a name of that length needs.  The code
keeps it in a `uint32_t`; no string in the memory of the machine is long enough to leave it. -/
def recordSpace (len : ℕ) : ℕ := 8 + (len + 3) / 4 * 4

/-- The record of `blk` that `ext2_vfs_create` splits for a name of length `len`: the first with
enough space behind its own name. -/
def splitEntry (blk : ℕ → UInt8) (blockSize len : ℕ) : Option DirEntry :=
  (blockEntries blk blockSize blockSize 0).find? fun e =>
    decide (recordSpace e.nameLen + recordSpace len ≤ e.recLen)

/-- The block with a record for `name` and `ino` behind the name of the record `e`. -/
def insertEntry (blk : ℕ → UInt8) (e : DirEntry) (ino : ℕ) (name : List UInt8) : ℕ → UInt8 :=
  let used := recordSpace e.nameLen
  let a := e.offset + used
  let blk := putLe blk (e.offset + 4) 2 used
  let blk := putLe (putLe blk a 4 ino) (a + 4) 2 (e.recLen - used)
  let blk := putLe (putLe blk (a + 6) 1 name.length) (a + 7) 1 1
  copy blk (a + 8) (fun x => name.getD x 0) 0 name.length

/-- The first part of `ext2_vfs_create`: the inode. -/
def newInode (mode : ℕ) : Inode :=
  setLinksCount (setMode zeros (0x8000 + if mode = 0 then 0o644 else mode % 512)) 1

/-- The second part: the number of the first block of the directory, which is in `dir_blk`. -/
def createDirBlock (fs : Ext2) (dir : ℕ) : ℕ × Ext2 :=
  let node := fs.pool dir
  let r := ext2GetFileBlock fs node.inode 0
  if r.1 = 0 then
    let a := ext2AllocBlock r.2
    let inode := setBlock node.inode 0 a.1
    let inode := setSize (setBlocks inode (u32 (iBlocks inode + fs.blockSize / 512))) fs.blockSize
    let w := { a.2.setNode dir { node with inode := inode } with
      dirBlk := fill a.2.dirBlk 0 fs.blockSize 0 }
    (a.1, (ext2WriteInode w node.ino inode).2)
  else
    let b := ext2ReadBlock r.2 r.1 r.2.dirBlk
    (r.1, { b.2.2 with dirBlk := b.2.1 })

/-- The third part: the record. -/
def createRecord (fs : Ext2) (dirPhysBlk ino : ℕ) (name : List UInt8) : Ext2 :=
  match splitEntry fs.dirBlk fs.blockSize name.length with
  | none => fs
  | some e =>
    let blk := insertEntry fs.dirBlk e ino name
    (ext2WriteBlock { fs with dirBlk := blk } dirPhysBlk blk).2

/-- `ext2_vfs_create` on node `dir` of the pool: the node of the new file. -/
def ext2VfsCreate (fs : Ext2) (dir : ℕ) (name : List UInt8) (mode : ℕ) : Option ℕ × Ext2 :=
  let a := ext2AllocInode fs
  if a.1 = 0 then (none, a.2)
  else
    let w := (ext2WriteInode a.2 a.1 (newInode mode)).2
    let d := createDirBlock w dir
    ext2CreateVfsNode (createRecord d.2 d.1 a.1 name) a.1 name (newInode mode)

end Bangos.Fs
