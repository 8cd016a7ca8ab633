import Bangos.Fs.Ext2Create
import Bangos.Fs.Ext2File
import Bangos.Lib.Runs

/-!
# Several handles of one file

Every lookup copies the inode of the file into a node of its own, and reads and writes go by
that copy.  A handle whose copy has the size and the direct blocks of the inode on the disk is
*fresh*; a write that makes the file grow leaves all other handles stale.  Through fresh handles
the file behaves as one byte array: this is a refinement of `SharedFile` by the volume, kept by
every write, read and lookup.
-/

namespace Bangos.Fs

open ByteMem Bangos.Drivers Bangos.Mm Runs

variable {fs fs' fs1 : Ext2} {inode : Inode} {dir ino h off n : ℕ} {name data : List UInt8}

/-! ## The abstract file -/

/-- A byte array with a size; beyond its size there are zeros. -/
structure SharedFile where
  bytes : ℕ → UInt8
  size : ℕ
  beyond : ∀ x, size ≤ x → bytes x = 0

/-- Write at an offset; the gap that a write beyond the end leaves reads as zeros. -/
def SharedFile.write (f : SharedFile) (off : ℕ) (data : List UInt8) : SharedFile :=
  if data = [] then f
  else
    { bytes := copy f.bytes off (fun x => data.getD x 0) 0 data.length
      size := max f.size (off + data.length)
      beyond := fun x hx => by
        rw [copy_apply_of_not_mem (Or.inr (by omega))]
        exact f.beyond x (by omega) }

/-- Read at an offset, up to the size. -/
def SharedFile.read (f : SharedFile) (off n : ℕ) : List UInt8 :=
  (List.range (min n (f.size - off))).map fun k => f.bytes (off + k)

/-! ## The refinement -/

/-- The volume holds the file `f` under the inode number `ino`, in direct blocks. -/
structure Holds (fs : Ext2) (ino : ℕ) (f : SharedFile) : Prop where
  sound : Sound fs
  hasInode : fs.layout.HasInode ino
  direct : DirectOk fs (diskInode fs ino)
  size : iSize (diskInode fs ino) = f.size
  small : f.size ≤ 12288
  bytes : ∀ x < 12288, fileByte fs (diskInode fs ino) x = f.bytes x

/-- The directory at node `dir` has the name for the inode, and its blocks are in use for nothing
else. -/
structure Named (fs : Ext2) (dir : ℕ) (name : List UInt8) (ino : ℕ) : Prop where
  dir_lt : dir < fs.poolCount
  other : (fs.pool dir).ino ≠ ino
  blocks : ∀ n, DirUses fs (fs.pool dir).inode n → fs.layout.OnDisk n ∧ fs.layout.Plain n ∧
    ¬ FreeBlock fs n ∧ ∀ i < 12, iBlock (diskInode fs ino) i ≠ n
  inodes : ∀ e ∈ dirEntries fs (fs.pool dir).inode, fs.layout.HasInode e.inode
  lookup : dirLookup fs (fs.pool dir).inode name = some ino

/-- Handle `h` is a node of the file, and its copy of the inode has the size and the direct
blocks that the inode on the disk has. -/
def Fresh (fs : Ext2) (ino h : ℕ) : Prop :=
  h < fs.poolCount ∧ (fs.pool h).ino = ino ∧ iSize (fs.pool h).inode = iSize (diskInode fs ino) ∧
    ∀ i < 12, iBlock (fs.pool h).inode i = iBlock (diskInode fs ino) i

lemma fileByte_congr {inode' : Inode} (hbs : fs.blockSize = 1024)
    (heq : ∀ i < 12, iBlock inode' i = iBlock inode i) {x : ℕ} (hx : x < 12288) :
    fileByte fs inode' x = fileByte fs inode x := by
  rw [fileByte_direct hbs hx, fileByte_direct hbs hx, heq _ (by omega)]

lemma DirectOk.congr {inode' : Inode} (hd : DirectOk fs inode)
    (heq : ∀ i < 12, iBlock inode' i = iBlock inode i) : DirectOk fs inode' where
  onDisk := fun i hi => by rw [heq i hi]; exact hd.onDisk i hi
  plain := fun i hi => by rw [heq i hi]; exact hd.plain i hi
  used := fun i hi => by rw [heq i hi]; exact hd.used i hi
  inj := fun i hi j hj => by rw [heq i hi, heq j hj]; exact hd.inj i hi j hj

lemma DirectOk.blocksOnDisk (hd : DirectOk fs inode) (hbs : fs.blockSize = 1024)
    (hsize : iSize inode ≤ 12288) : BlocksOnDisk fs inode := by
  intro b hb
  have hb12 : b < 12 := by
    rw [hbs] at hb
    omega
  unfold pointerBlocks fileBlock
  dsimp only
  rw [if_pos hb12, if_pos hb12]
  exact ⟨fun n hn => absurd hn List.not_mem_nil, hd.onDisk b hb12⟩

/-- **Reading through a fresh handle** reads the shared file. -/
theorem Holds.read {f : SharedFile} (hf : Holds fs ino f) (hh : Fresh fs ino h)
    (hfit : off + n < 2 ^ 64) : ext2VfsRead fs h off n = (f.read off n, fs) := by
  obtain ⟨-, -, hsize, hblocks⟩ := hh
  have hbs : fs.blockSize = 1024 := hf.sound.valid.blockSize
  have hsize : iSize (fs.pool h).inode = f.size := hsize.trans hf.size
  have hsmall := hf.small
  have hd := hf.direct.congr hblocks
  rw [ext2VfsRead_eq hf.sound.valid.serves hbs (hd.blocksOnDisk hbs (by omega)) hfit, hsize]
  refine congrArg (·, fs) (List.map_congr_left fun k hk => ?_)
  have hk := List.mem_range.mp hk
  rw [fileByte_congr hbs hblocks (by omega), hf.bytes _ (by omega)]

/-! ## Writes -/

/-- The conditions on a write: the handle is fresh, there is something to write, it ends within
the direct blocks, there are blocks for the holes, and a hole is filled only by a write that
makes the file grow. -/
def WriteOk (fs : Ext2) (ino h off : ℕ) (data : List UInt8) : Prop :=
  Fresh fs ino h ∧ data ≠ [] ∧ off + data.length ≤ 12288 ∧
    (holes (fs.pool h).inode).card ≤ available fs .block ∧
    (iSize (fs.pool h).inode < off + data.length ∨
      ∀ i < 12, off < (i + 1) * 1024 → i * 1024 < off + data.length →
        iBlock (fs.pool h).inode i ≠ 0)

/-- What the call leaves on the disk: the contents as the loop has written them, and an inode
with the blocks of the loop and the given size. -/
structure Stored (fs1 : Ext2) (inode1 : Inode) (fs' : Ext2) (ino size : ℕ) : Prop where
  layout : fs'.layout = fs1.layout
  bitmaps : ∀ g < fs1.groupCount, diskBlock fs' (fs1.layout.metaBlock g 0) =
    diskBlock fs1 (fs1.layout.metaBlock g 0)
  plain : ∀ n, fs1.layout.Plain n → diskBlock fs' n = diskBlock fs1 n
  blocks : ∀ i < 12, iBlock (diskInode fs' ino) i = iBlock inode1 i
  size : iSize (diskInode fs' ino) = size

lemma Written.diskInode_eq {w : ℕ} {inode1 : Inode} (hw : Written fs inode off data w fs1 inode1)
    (hv : fs.layout.Valid) (hino : fs.layout.HasInode ino) :
    diskInode fs1 ino = diskInode fs ino := by
  obtain ⟨hg, j, hj, hblock, -⟩ := inodeBlock_spec hv.tables hino
  have hl := hw.layout
  have hoff : inodeOffset fs1 ino = inodeOffset fs ino := by
    unfold inodeOffset
    rw [show fs1.sb.sInodesPerGroup = fs.sb.sInodesPerGroup from congrArg Layout.inodesPerGroup hl,
      show fs1.inodeSize = fs.inodeSize from congrArg Layout.inodeSize hl]
  have hbs : fs1.blockSize = fs.blockSize := congrArg Layout.blockSize hl
  have hib : inodeBlock fs1 ino = inodeBlock fs ino := by
    have hgroup : inodeGroup fs1 ino = inodeGroup fs ino := by
      unfold inodeGroup
      rw [show fs1.sb.sInodesPerGroup = fs.sb.sInodesPerGroup from
        congrArg Layout.inodesPerGroup hl]
    unfold inodeBlock
    rw [hoff, hbs, hgroup]
    exact congrArg (fun t => u32 (t + _)) (congrFun (congrArg Layout.inodeTable hl) _)
  have hdisk := hw.tables (inodeGroup fs ino) (j + 2) ⟨hg, by omega⟩ (by omega)
  rw [← hblock] at hdisk
  unfold diskInode
  rw [hib, hdisk, hoff, hbs]

lemma stored_putInode {inode1 : Inode} {size : ℕ} (hv : fs1.layout.Valid)
    (hi : fs1.layout.HasInode ino) (h : ℕ) (node : Ext2Node) (hsize : size < 2 ^ 32) :
    Stored fs1 inode1 ((fs1.setNode h node).putInode ino (setSize inode1 size)) ino size := by
  have hvt : (fs1.setNode h node).layout.Valid := hv
  have hit : (fs1.setNode h node).layout.HasInode ino := hi
  have hread : ∀ x < inodeBytes, diskInode ((fs1.setNode h node).putInode ino
      (setSize inode1 size)) ino x = setSize inode1 size x := fun x hx =>
    diskInode_putInode_self hvt.tables hit _ hx
  unfold inodeBytes at hread
  refine ⟨rfl, fun g hg => diskBlock_putInode_of_bitmap hvt hit hg (by omega) _,
    fun n hn => diskBlock_putInode_of_plain hvt.tables hit hn _, fun i hi => ?_, ?_⟩
  · refine Eq.trans ?_ (iBlock_setSize : iBlock (setSize inode1 size) i = _)
    exact le_congr fun x _ _ => hread x (by omega)
  · refine Eq.trans ?_ (iSize_setSize hsize : iSize (setSize inode1 size) = size)
    exact le_congr fun x _ _ => hread x (by omega)

/-- **What a write leaves** when its conditions are met. -/
lemma Holds.stored {f : SharedFile} (hf : Holds fs ino f) (hok : WriteOk fs ino h off data) :
    ∃ fs1 inode1, Written fs (fs.pool h).inode off data data.length fs1 inode1 ∧
      Stored fs1 inode1 (ext2VfsWrite fs h off data).2 ino (max f.size (off + data.length)) ∧
      (∀ d ≠ h, (ext2VfsWrite fs h off data).2.pool d = fs.pool d) ∧
      (ext2VfsWrite fs h off data).2.poolCount = fs.poolCount := by
  obtain ⟨⟨-, hino, hsize, hblocks⟩, hne, hfit, hspace, hgrow⟩ := hok
  have hhas : fs.layout.HasInode (fs.pool h).ino := by rw [hino]; exact hf.hasInode
  obtain ⟨fs1, inode1, w, -, hle, hw, hstop, heq⟩ :=
    ext2VfsWrite_cases hf.sound (hf.direct.congr hblocks) hhas
      (show off + data.length < 2 ^ 32 by omega)
  -- there was a block for every hole, so nothing is left to write
  obtain rfl : w = data.length := by
    by_contra hlt
    rcases hstop (by omega) with h12 | ⟨h0, hav⟩
    · omega
    · have hpos : 0 < (holes inode1).card := Finset.card_pos.mpr
        ⟨(off + w) / 1024, Finset.mem_filter.mpr ⟨Finset.mem_range.mpr (by omega), h0⟩⟩
      have hcount := hw.count
      omega
  refine ⟨fs1, inode1, hw, ?_, ?_, ?_⟩
  · rw [heq, hino]
    have hsize' : iSize (fs.pool h).inode = f.size := hsize.trans hf.size
    rw [hsize'] at hgrow ⊢
    by_cases hg : f.size < off + data.length
    · -- the inode is written back
      rw [if_pos hg, Nat.max_eq_right hg.le]
      exact stored_putInode hw.sound.valid (by rw [hw.layout]; exact hf.hasInode) h _ (by omega)
    · -- no block is new, and the inode on the disk stays
      rw [if_neg hg, Nat.max_eq_left (by omega)]
      have hsame := hw.same (hgrow.resolve_left hg)
      have hdisk : diskInode (fs1.setNode h { fs.pool h with inode := inode1 }) ino =
          diskInode fs ino := hw.diskInode_eq hf.sound.valid hf.hasInode
      refine ⟨rfl, fun g _ => rfl, fun n _ => rfl, fun i hi => ?_, ?_⟩
      · rw [hdisk, hsame, hblocks i hi]
      · rw [hdisk, hf.size]
  · intro d hd
    rw [heq]
    dsimp only
    split_ifs
    · exact (Function.update_of_ne hd _ _).trans (congrFun hw.pool d)
    · exact (Function.update_of_ne hd _ _).trans (congrFun hw.pool d)
  · rw [heq]
    dsimp only
    split_ifs
    · exact hw.poolCount
    · exact hw.poolCount

section Write

variable {inode1 : Inode} {f : SharedFile} (hf : Holds fs ino f)
  (hblocks : ∀ i < 12, iBlock (fs.pool h).inode i = iBlock (diskInode fs ino) i)
  (hw : Written fs (fs.pool h).inode off data data.length fs1 inode1)
  (hst : Stored fs1 inode1 fs' ino (max f.size (off + data.length)))
include hblocks hw hst

omit hblocks in
lemma Stored.freeBlock (hn : FreeBlock fs' n) : FreeBlock fs n :=
  hw.free n ((freeBlock_congr hst.layout hst.bitmaps).mp hn)

include hf in
/-- The volume holds the file with the new bytes. -/
lemma Holds.of_stored (hne : data ≠ []) (hfit : off + data.length ≤ 12288) :
    Holds fs' ino (f.write off data) := by
  have hl : fs'.layout = fs.layout := hst.layout.trans hw.layout
  have hbs1 : fs1.blockSize = 1024 := hw.sound.valid.blockSize
  have hbs' : fs'.blockSize = 1024 := (congrArg Layout.blockSize hst.layout).trans hbs1
  have hfirst : fs'.sb.sFirstDataBlock = fs1.sb.sFirstDataBlock :=
    congrArg Layout.firstDataBlock hst.layout
  have hfree : ∀ m, FreeBlock fs' m ↔ FreeBlock fs1 m := fun m =>
    freeBlock_congr hst.layout hst.bitmaps
  have hsmall := hf.small
  unfold SharedFile.write
  rw [if_neg hne]
  refine ⟨⟨?_, ?_, fun m hm => ?_⟩, ?_, ?_, hst.size, ?_, fun x hx => ?_⟩
  · rw [hst.layout]
    exact hw.sound.valid
  · rw [hfirst]
    exact hw.sound.first
  · rw [hst.layout]
    exact hw.sound.free m ((hfree m).mp hm)
  · rw [hl]
    exact hf.hasInode
  · have hd : DirectOk fs' inode1 := by
      refine ⟨?_, ?_, fun i hi h0 hm => hw.direct.used i hi h0 ((hfree _).mp hm), hw.direct.inj⟩
      · rw [hst.layout]
        exact hw.direct.onDisk
      · rw [hst.layout]
        exact hw.direct.plain
    exact hd.congr hst.blocks
  · exact Nat.max_le.mpr ⟨hsmall, hfit⟩
  · have hmove : fileByte fs' (diskInode fs' ino) x = fileByte fs1 inode1 x := by
      rw [fileByte_congr hbs' hst.blocks hx, fileByte_direct hbs' hx, fileByte_direct hbs1 hx]
      split_ifs with h0
      · rfl
      · rw [hst.plain _ (hw.direct.plain _ (by omega) h0)]
    rw [hmove, hw.bytes x hx, fileByte_congr hf.sound.valid.blockSize hblocks hx, hf.bytes x hx]
    change _ = copy f.bytes off (fun y => data.getD y 0) 0 data.length x
    unfold copy
    rw [Nat.zero_add]

lemma Named.of_stored (hn : Named fs dir name ino) (hdir : fs'.pool dir = fs.pool dir)
    (hcount : fs'.poolCount = fs.poolCount) : Named fs' dir name ino := by
  have hl : fs'.layout = fs.layout := hst.layout.trans hw.layout
  have hbs : fs'.blockSize = fs.blockSize := congrArg Layout.blockSize hl
  have hsame : ∀ n, DirUses fs (fs.pool dir).inode n → diskBlock fs' n = diskBlock fs n := by
    intro n hu
    obtain ⟨-, hplain, hused, hptr⟩ := hn.blocks n hu
    rw [hst.plain n (by rwa [hw.layout])]
    refine hw.frame n hplain hused fun i hi => ?_
    rw [hblocks i hi]
    exact hptr i hi
  have hes := dirEntries_congr hbs hsame
  refine ⟨by rw [hcount]; exact hn.dir_lt, by rw [hdir]; exact hn.other, fun n hu => ?_, ?_, ?_⟩
  · rw [hdir] at hu
    obtain ⟨hon, hplain, hused, hptr⟩ := hn.blocks n (dirUses_congr hbs hsame hu)
    rw [hl]
    refine ⟨hon, hplain, fun hfree => hused (hst.freeBlock hw hfree), fun i hi => ?_⟩
    rw [hst.blocks i hi]
    rcases hw.pointer i hi with heq | ⟨-, hfree⟩
    · rw [heq, hblocks i hi]
      exact hptr i hi
    · exact fun heq => hused (heq ▸ hfree)
  · rw [hdir, hes, hl]
    exact hn.inodes
  · unfold dirLookup
    rw [hdir, hes]
    exact hn.lookup

end Write

/-! ## Lookups -/

/-- **A lookup** copies the inode on the disk into a node. -/
lemma Named.finddir_eq (hn : Named fs dir name ino) (hs : Sound fs) :
    ∃ short, ext2VfsFinddir fs dir name = ext2CreateVfsNode fs ino short (diskInode fs ino) := by
  obtain ⟨e, he, heino⟩ := Option.map_eq_some_iff.mp hn.lookup
  rw [ext2VfsFinddir_eq hs.valid.tables (fun n hu => (hn.blocks n hu).1) rfl hn.inodes, he, ← heino]
  exact ⟨_, rfl⟩

lemma create_node_keeps {f : SharedFile} (hf : Holds fs ino f) (hn : Named fs dir name ino)
    (short : List UInt8) :
    Holds (ext2CreateVfsNode fs ino short (diskInode fs ino)).2 ino f ∧
      Named (ext2CreateVfsNode fs ino short (diskInode fs ino)).2 dir name ino := by
  have hlt := hn.dir_lt
  unfold ext2CreateVfsNode
  split_ifs with hfull
  · exact ⟨hf, hn⟩
  · have hdir : ∀ node : Ext2Node, Function.update fs.pool fs.poolCount node dir = fs.pool dir :=
      fun node => Function.update_of_ne (by omega) _ _
    refine ⟨⟨⟨hf.sound.valid, hf.sound.first, hf.sound.free⟩, hf.hasInode,
      ⟨hf.direct.onDisk, hf.direct.plain, hf.direct.used, hf.direct.inj⟩, hf.size, hf.small,
      hf.bytes⟩, ?_⟩
    dsimp only
    refine ⟨Nat.lt_succ_of_lt hlt, ?_, ?_, ?_, ?_⟩
    all_goals dsimp only
    · rw [hdir]
      exact hn.other
    · rw [hdir]
      exact hn.blocks
    · rw [hdir]
      exact hn.inodes
    · rw [hdir]
      exact hn.lookup

lemma create_node_fresh (ino : ℕ) (hpool : fs.poolCount < maxNodes) (short : List UInt8) :
    (ext2CreateVfsNode fs ino short (diskInode fs ino)).1 = some fs.poolCount ∧
      Fresh (ext2CreateVfsNode fs ino short (diskInode fs ino)).2 ino fs.poolCount ∧
      ((ext2CreateVfsNode fs ino short (diskInode fs ino)).2.pool fs.poolCount).size =
        iSize (diskInode fs ino) := by
  unfold ext2CreateVfsNode
  rw [if_neg (by omega)]
  have hself : ∀ node : Ext2Node, Function.update fs.pool fs.poolCount node fs.poolCount = node :=
    fun node => Function.update_self ..
  refine ⟨rfl, ⟨Nat.lt_succ_self _, ?_, ?_, fun i _ => ?_⟩, ?_⟩
  · simp only [hself]
  · simp only [hself]
    rfl
  · simp only [hself]
    rfl
  · simp only [hself]

/-! ## Runs -/

/-- What happens to one file: writes and reads through handles, and lookups. -/
inductive FileEvent where
  | write (h off : ℕ) (data : List UInt8)
  | read (h off n : ℕ)
  | lookup

/-- The volume, and the file that it should hold. -/
structure FileState where
  fs : Ext2
  file : SharedFile

/-- One event, on the volume and on the abstract file. -/
def fileStep (dir : ℕ) (name : List UInt8) (s : FileState) : FileEvent → FileState
  | .write h off data => ⟨(ext2VfsWrite s.fs h off data).2, s.file.write off data⟩
  | .read h off n => ⟨(ext2VfsRead s.fs h off n).2, s.file⟩
  | .lookup => ⟨(ext2VfsFinddir s.fs dir name).2, s.file⟩

/-- The condition on an event: reads and writes go through fresh handles, and a write that fills
a hole makes the file grow. -/
def EventOk (ino : ℕ) (s : FileState) : FileEvent → Prop
  | .write h off data => WriteOk s.fs ino h off data
  | .read h off n => Fresh s.fs ino h ∧ off + n < 2 ^ 64
  | .lookup => True

lemma fileStep_keeps {s : FileState} {e : FileEvent}
    (hs : Holds s.fs ino s.file ∧ Named s.fs dir name ino) (he : EventOk ino s e) :
    Holds (fileStep dir name s e).fs ino (fileStep dir name s e).file ∧
      Named (fileStep dir name s e).fs dir name ino := by
  obtain ⟨hf, hn⟩ := hs
  cases e with
  | write h off data =>
    have he : WriteOk s.fs ino h off data := he
    obtain ⟨fs1, inode1, hw, hst, hpool, hcount⟩ := hf.stored he
    obtain ⟨⟨-, hino, -, hblocks⟩, hne, hfit, -⟩ := he
    have hdir : dir ≠ h := fun heq => hn.other (heq ▸ hino)
    exact ⟨hf.of_stored hblocks hw hst hne hfit,
      Named.of_stored hblocks hw hst hn (hpool dir hdir) hcount⟩
  | read h off n =>
    obtain ⟨hfresh, hfit⟩ := he
    dsimp only [fileStep]
    rw [hf.read hfresh hfit]
    exact ⟨hf, hn⟩
  | lookup =>
    obtain ⟨short, heq⟩ := hn.finddir_eq hf.sound
    dsimp only [fileStep]
    rw [heq]
    exact create_node_keeps hf hn short

/-- **One file, many handles**: after every run of writes, reads and lookups in which reads and
writes go through fresh handles, a read through a fresh handle returns what the shared byte
array holds, and so does a read after a fresh lookup. -/
theorem handles_share_file {s : FileState} {es : List FileEvent} (hf : Holds s.fs ino s.file)
    (hn : Named s.fs dir name ino) (hrun : StepsMeet (fileStep dir name) (EventOk ino) s es) :
    (∀ h off n, Fresh (runFrom (fileStep dir name) s es).fs ino h → off + n < 2 ^ 64 →
      (ext2VfsRead (runFrom (fileStep dir name) s es).fs h off n).1 =
        (runFrom (fileStep dir name) s es).file.read off n) ∧
      ((runFrom (fileStep dir name) s es).fs.poolCount < maxNodes → ∃ h fs',
        ext2VfsFinddir (runFrom (fileStep dir name) s es).fs dir name = (some h, fs') ∧
        (fs'.pool h).size = (runFrom (fileStep dir name) s es).file.size ∧
        ∀ off n, off + n < 2 ^ 64 → (ext2VfsRead fs' h off n).1 =
          (runFrom (fileStep dir name) s es).file.read off n) := by
  have hinv : Holds (runFrom (fileStep dir name) s es).fs ino (runFrom (fileStep dir name) s es).file ∧
      Named (runFrom (fileStep dir name) s es).fs dir name ino :=
    invariant_runFrom (I := fun t => Holds t.fs ino t.file ∧ Named t.fs dir name ino)
      (fun t e ht he => fileStep_keeps ht he) ⟨hf, hn⟩ hrun
  obtain ⟨hf', hn'⟩ := hinv
  generalize runFrom (fileStep dir name) s es = t at hf' hn'
  refine ⟨fun h off n hfresh hfit => by rw [hf'.read hfresh hfit], fun hpool => ?_⟩
  obtain ⟨short, heq⟩ := hn'.finddir_eq hf'.sound
  obtain ⟨hret, hfresh, hsize⟩ := create_node_fresh ino hpool short
  obtain ⟨hkept, -⟩ := create_node_keeps hf' hn' short
  generalize ext2CreateVfsNode t.fs ino short (diskInode t.fs ino) = r at *
  obtain ⟨r, fs'⟩ := r
  obtain rfl : r = some t.fs.poolCount := hret
  refine ⟨_, fs', heq, hsize.trans hf'.size, fun off n hfit => ?_⟩
  rw [hkept.read hfresh hfit]

/-! ## An empty file -/

/-- A root directory with the empty file `f`, inode 3. -/
def fileRoot : List DirEntry :=
  [⟨0, 2, 12, 1, 2, [46]⟩, ⟨12, 2, 12, 2, 2, [46, 46]⟩, ⟨24, 3, 1000, 1, 1, [102]⟩]

/-- The empty array. -/
def emptyFile : SharedFile := ⟨fun _ => 0, 0, fun _ _ => rfl⟩

lemma freeBlock_fileRoot (hn : FreeBlock (rootVolume fileRoot) n) : 7 ≤ n ∧ n ≤ 31 :=
  freeBlock_smallVolume (by decide +kernel) hn

lemma holds_emptyFile : Holds (rootVolume fileRoot) 3 emptyFile := by
  have hblock : ∀ i < 12, iBlock (diskInode (rootVolume fileRoot) 3) i = 0 := by decide +kernel
  refine ⟨⟨rootVolume_valid fileRoot, Nat.zero_lt_one, fun n hn => ?_⟩, by decide +kernel, ?_,
    by decide +kernel, Nat.zero_le _, fun x hx => ?_⟩
  · obtain ⟨h1, h2⟩ := freeBlock_fileRoot hn
    exact ⟨show n * 2 + 2 ≤ 64 by omega, plain_smallVolume (by omega)⟩
  · exact ⟨fun i hi h0 => absurd (hblock i hi) h0, fun i hi h0 => absurd (hblock i hi) h0,
      fun i hi h0 => absurd (hblock i hi) h0, fun i hi j _ h0 => absurd (hblock i hi) h0⟩
  · rw [fileByte_direct (rootVolume_valid fileRoot).blockSize hx, if_pos (hblock _ (by omega))]
    rfl

lemma named_fileRoot : Named (rootVolume fileRoot) 0 [102] 3 := by
  have hes : dirEntries (rootVolume fileRoot) ((rootVolume fileRoot).pool 0).inode = fileRoot := by
    decide +kernel
  refine ⟨Nat.zero_lt_one, by decide +kernel, fun n hn => ?_, ?_, by decide +kernel⟩
  · obtain rfl := dirUses_rootVolume hn
    exact ⟨show 6 * 2 + 2 ≤ 64 by omega, plain_smallVolume le_rfl,
      fun h => by have := freeBlock_fileRoot h; omega, by decide +kernel⟩
  · rw [hes]
    decide +kernel

/-- A lookup, a write through the handle, and a read. -/
theorem handles_share_file_write :
    (ext2VfsRead (runFrom (fileStep 0 [102]) ⟨rootVolume fileRoot, emptyFile⟩
      [.lookup, .write 1 0 [65]]).fs 1 0 1).1 = (emptyFile.write 0 [65]).read 0 1 := by
  have hrun : StepsMeet (fileStep 0 [102]) (EventOk 3) ⟨rootVolume fileRoot, emptyFile⟩
      [.lookup, .write 1 0 [65]] := by
    refine ⟨trivial, ⟨⟨?_, ?_, ?_, ?_⟩, ?_, ?_, ?_, Or.inl ?_⟩, trivial⟩
    all_goals decide +kernel
  refine (handles_share_file holds_emptyFile named_fileRoot hrun).1 1 0 1 ⟨?_, ?_, ?_, ?_⟩
    (by decide)
  all_goals decide +kernel

/-- **A stale handle**: the file is looked up twice, and a byte written through the first handle
cannot be read through the second. -/
theorem stale_handle_reads_nothing :
    Holds (rootVolume fileRoot) 3 emptyFile ∧ Named (rootVolume fileRoot) 0 [102] 3 ∧
      (ext2VfsRead (runFrom (fileStep 0 [102]) ⟨rootVolume fileRoot, emptyFile⟩
        [.lookup, .lookup, .write 1 0 [65]]).fs 2 0 1).1 = [] ∧
      (emptyFile.write 0 [65]).read 0 1 = [65] :=
  ⟨holds_emptyFile, named_fileRoot, by decide +kernel, by decide +kernel⟩

end Bangos.Fs
