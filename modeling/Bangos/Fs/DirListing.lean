import Bangos.Fs.Ext2Create
import Bangos.Fs.FileReads

/-!
# Listing and lookup agree

The records of a directory are those of its blocks, as the block map of ext2 gives them, in
order.  `ext2_vfs_readdir` counts the records in use and `ext2_vfs_finddir` compares their names;
on a working volume they go through the same list (`dirEntries`).

This list is the directory as long as its records lie in the blocks that the code can find.  The
blocks that are reached through the third level of tables are holes for it, so that a directory of
more than 65804 blocks may have records which neither function sees.
-/

namespace Bangos.Fs

open ByteMem Bangos.Drivers Bangos.Mm

variable {fs : Ext2} {inode : Inode} {dir b n i : ℕ} {es : ℕ → List DirEntry}

/-! ## What the listing returns -/

/-- The `vfs_dirent_t` of a record. -/
def DirEntry.dirent (e : DirEntry) : VfsDirent := ⟨e.inode, e.name.take 127, e.fileType == 2⟩

section Working

variable (hv : fs.layout.InodeTables) (hd : ∀ n, DirUses fs inode n → fs.layout.OnDisk n)
include hv hd

lemma readdirBlocks_eq (n b i : ℕ) (hn : b + n ≤ dirBlocks fs inode) :
    readdirBlocks inode n b i fs =
      (((List.range' b n).flatMap (entriesAt fs inode))[i]?.map DirEntry.dirent, fs) := by
  induction n generalizing b i with
  | zero => rfl
  | succ n ih =>
    rw [readdirBlocks, dirBlockEntries_eq hv hd (by omega), List.range'_succ, List.flatMap_cons]
    dsimp only
    cases h : (entriesAt fs inode b)[i]? with
    | none =>
      have hle := List.getElem?_eq_none_iff.mp h
      dsimp only
      rw [ih (b + 1) _ (by omega), List.getElem?_append_right hle]
    | some e =>
      have hlt := (List.getElem?_eq_some_iff.mp h).1
      rw [List.getElem?_append_left hlt, h]
      rfl

/-- **`ext2_vfs_readdir`** on a working volume: the record with the index, of those in use. -/
theorem ext2VfsReaddir_eq (hdir : (fs.pool dir).inode = inode) (i : ℕ) :
    ext2VfsReaddir fs dir i = ((dirEntries fs inode)[i]?.map DirEntry.dirent, fs) := by
  unfold ext2VfsReaddir
  dsimp only
  rw [hdir, readdirBlocks_eq hv hd _ 0 i (Nat.zero_add _).le, dirEntries, List.range_eq_range']

end Working

/-! ## Well-formed directories -/

/-- A well-formed directory: a whole number of blocks, of which those that are no holes are tiled
by their records; block `b` has the records `es b`. -/
structure DirRecords (fs : Ext2) (inode : Inode) (es : ℕ → List DirEntry) : Prop where
  size : 1024 ∣ iSize inode
  empty : iSize inode = 0 → iBlock inode 0 = 0
  onDisk : ∀ n, DirUses fs inode n → fs.layout.OnDisk n
  hole : ∀ b, blockMap fs inode b = 0 → es b = []
  walk : ∀ b < iSize inode / 1024, blockMap fs inode b ≠ 0 →
    Walk (diskBlock fs (blockMap fs inode b)) 1024 0 (es b)

/-- The records in use of a directory, in the order of the disk. -/
def liveRecords (inode : Inode) (es : ℕ → List DirEntry) : List DirEntry :=
  (List.range (iSize inode / 1024)).flatMap fun b => (es b).filter DirEntry.live

/-- The number of blocks that direct pointers and two levels of tables give. -/
def mappedBlocks : ℕ := 12 + 256 + 65536

lemma dirBlocks_eq (hbs : fs.blockSize = 1024) (hsize : 1024 ∣ iSize inode) :
    dirBlocks fs inode = max 1 (iSize inode / 1024) := by
  have hlt : iSize inode < 256 ^ 4 := le_lt inode 4 4
  have hdecr : decr 0xFFFFFFFF (u32 (iSize inode + 1024)) / 1024 = iSize inode / 1024 := by
    unfold decr u32
    split_ifs <;> omega
  rw [dirBlocks, hbs, hdecr]

lemma fileBlock_eq_zero (hbs : fs.blockSize = 1024) (hb : mappedBlocks ≤ b) :
    fileBlock fs inode b = 0 := by
  unfold mappedBlocks at hb
  unfold fileBlock u32
  rw [hbs]
  dsimp only
  rw [if_neg (by omega), if_neg (by omega), if_neg (by omega)]

lemma flatMap_range_ite {α : Type} (f : ℕ → List α) (m n : ℕ) :
    (List.range n).flatMap (fun b => if b < m then f b else []) =
      (List.range (min m n)).flatMap f := by
  induction n with
  | zero => simp
  | succ n ih =>
    rw [List.range_succ, List.flatMap_append, ih, List.flatMap_singleton]
    split_ifs with h
    · rw [Nat.min_eq_right h, Nat.min_eq_right h.le, List.range_succ, List.flatMap_append,
        List.flatMap_singleton]
    · rw [List.append_nil, Nat.min_eq_left (by omega), Nat.min_eq_left (by omega)]

section Records

variable (hbs : fs.blockSize = 1024) (hdir : DirRecords fs inode es)
include hbs hdir

lemma DirRecords.entriesAt_eq (hb : b < iSize inode / 1024) :
    entriesAt fs inode b = if b < mappedBlocks then (es b).filter DirEntry.live else [] := by
  unfold entriesAt
  split_ifs with h0 hm hm
  · rw [fileBlock_eq_blockMap hbs hm] at h0
    rw [hdir.hole b h0]
    rfl
  · rfl
  · rw [fileBlock_eq_blockMap hbs hm] at h0 ⊢
    rw [hbs, (hdir.walk b hb h0).blockEntries_eq (by omega)]
  · exact absurd (fileBlock_eq_zero hbs (by omega)) h0

lemma DirRecords.dirEntries_eq : dirEntries fs inode =
    (List.range (min mappedBlocks (iSize inode / 1024))).flatMap
      fun b => (es b).filter DirEntry.live := by
  unfold dirEntries
  rw [dirBlocks_eq hbs hdir.size]
  rcases Nat.eq_zero_or_pos (iSize inode / 1024) with h0 | hpos
  · have hzero : iBlock inode 0 = 0 := hdir.empty (by have := hdir.size; omega)
    have hnone : entriesAt fs inode 0 = [] := if_pos hzero
    rw [h0]
    simp [hnone]
  · rw [Nat.max_eq_right hpos, ← flatMap_range_ite]
    exact List.flatMap_congr fun b hb => hdir.entriesAt_eq hbs (List.mem_range.mp hb)

lemma DirRecords.liveRecords_eq : liveRecords inode es = dirEntries fs inode ++
    (List.range' (min mappedBlocks (iSize inode / 1024))
      (iSize inode / 1024 - mappedBlocks)).flatMap fun b => (es b).filter DirEntry.live := by
  have hsplit : List.range (iSize inode / 1024) =
      List.range (min mappedBlocks (iSize inode / 1024)) ++
        List.range' (min mappedBlocks (iSize inode / 1024))
          (iSize inode / 1024 - mappedBlocks) := by
    have happend := @List.range'_append_1 0 (min mappedBlocks (iSize inode / 1024))
      (iSize inode / 1024 - mappedBlocks)
    rw [Nat.zero_add] at happend
    rw [List.range_eq_range', List.range_eq_range', happend,
      show min mappedBlocks (iSize inode / 1024) + (iSize inode / 1024 - mappedBlocks) =
        iSize inode / 1024 by omega]
  rw [hdir.dirEntries_eq hbs, liveRecords, hsplit, List.flatMap_append]

/-- The code sees the whole directory if there is no record in use in the blocks it cannot find. -/
lemma DirRecords.dirEntries_eq_iff : dirEntries fs inode = liveRecords inode es ↔
    ∀ b, mappedBlocks ≤ b → b < iSize inode / 1024 → ∀ e ∈ es b, e.live = false := by
  rw [hdir.liveRecords_eq hbs, List.self_eq_append_right, List.flatMap_eq_nil_iff]
  simp only [List.mem_range'_1, List.filter_eq_nil_iff, Bool.not_eq_true]
  constructor
  · intro h b h1 h2
    exact h b ⟨by omega, by omega⟩
  · intro h b hb
    exact h b (by omega) (by omega)

end Records

/-! ## The two functions -/

/-- Directory `dir` is listed and searched as one with the records `live` in use:
`ext2_vfs_readdir` returns them by their indices, and `ext2_vfs_finddir` finds their names and no
others, with their inodes. -/
structure Agrees (fs : Ext2) (dir : ℕ) (live : List DirEntry) : Prop where
  readdir : ∀ i, ext2VfsReaddir fs dir i =
    (live[i]?.map fun e => ⟨e.inode, e.name, e.fileType == 2⟩, fs)
  finddir : ∀ name, (ext2VfsFinddir fs dir name).1.isSome = true ↔ ∃ e ∈ live, e.name = name
  inode : ∀ e ∈ live, ∀ h, (ext2VfsFinddir fs dir e.name).1 = some h →
    ((ext2VfsFinddir fs dir e.name).2.pool h).ino = e.inode

lemma find?_name_eq {live : List DirEntry} {e : DirEntry} (hnames : (live.map DirEntry.name).Nodup)
    (he : e ∈ live) : (live.find? fun x => decide (x.name = e.name)) = some e := by
  induction live with
  | nil => cases he
  | cons x live ih =>
    rw [List.map_cons, List.nodup_cons] at hnames
    rw [List.find?_cons]
    rcases List.mem_cons.mp he with rfl | he
    · simp
    · have hne : x.name ≠ e.name := fun h => hnames.1 (h ▸ List.mem_map_of_mem he)
      simp only [hne, decide_false]
      exact ih hnames.2 he

section Agree

variable {live : List DirEntry} (hv : fs.layout.InodeTables)
  (hd : ∀ n, DirUses fs inode n → fs.layout.OnDisk n) (hdir : (fs.pool dir).inode = inode)
include hv hd hdir

lemma agrees_of_dirEntries_eq (hpool : fs.poolCount < maxNodes)
    (hlive : dirEntries fs inode = live) (hnames : (live.map DirEntry.name).Nodup)
    (hlen : ∀ e ∈ live, e.name.length ≤ 127) (hino : ∀ e ∈ live, fs.layout.HasInode e.inode) :
    Agrees fs dir live := by
  have hfind : ∀ name, ext2VfsFinddir fs dir name = _ := fun name =>
    ext2VfsFinddir_eq hv hd hdir (hlive ▸ hino)
  have hnode : ∀ (ino : ℕ) (name : List UInt8) (inode : Inode),
      (ext2CreateVfsNode fs ino name inode).1 = some fs.poolCount ∧
        ((ext2CreateVfsNode fs ino name inode).2.pool fs.poolCount).ino = ino := by
    intro ino name inode
    unfold ext2CreateVfsNode
    rw [if_neg (by omega)]
    refine ⟨rfl, ?_⟩
    dsimp only
    rw [Function.update_self]
  refine ⟨fun i => ?_, fun name => ?_, fun e he h hret => ?_⟩
  · rw [ext2VfsReaddir_eq hv hd hdir, hlive]
    congr 1
    refine Option.map_congr fun e he => ?_
    rw [DirEntry.dirent, List.take_of_length_le (hlen e (List.mem_of_getElem? he))]
  · rw [hfind, hlive]
    cases h : live.find? fun e => decide (e.name = name) with
    | none =>
      have hnone := List.find?_eq_none.mp h
      simp only [decide_eq_true_eq] at hnone
      simpa using hnone
    | some e =>
      have hname : e.name = name := by simpa using List.find?_some h
      exact iff_of_true (by rw [(hnode _ _ _).1]; rfl) ⟨e, List.mem_of_find?_eq_some h, hname⟩
  · rw [hfind, hlive, find?_name_eq hnames he] at hret ⊢
    dsimp only at hret ⊢
    rw [(hnode _ _ _).1] at hret
    rw [← Option.some.inj hret]
    exact (hnode _ _ _).2

lemma Agrees.dirEntries_length (hagree : Agrees fs dir live) (hle : dirEntries fs inode <+: live) :
    dirEntries fs inode = live := by
  refine hle.eq_of_length_le (not_lt.mp fun hlt => ?_)
  have h := congrArg Prod.fst (hagree.readdir (dirEntries fs inode).length)
  rw [ext2VfsReaddir_eq hv hd hdir, List.getElem?_eq_none le_rfl, List.getElem?_eq_getElem hlt] at h
  cases h

end Agree

/-- **Listing and lookup agree** with the directory exactly when no record in use lies in a block
that is reached through the third level of tables. -/
theorem listing_agrees_iff (hv : fs.layout.InodeTables) (hbs : fs.blockSize = 1024)
    (hdir : DirRecords fs (fs.pool dir).inode es) (hpool : fs.poolCount < maxNodes)
    (hnames : ((liveRecords (fs.pool dir).inode es).map DirEntry.name).Nodup)
    (hname : ∀ e ∈ liveRecords (fs.pool dir).inode es,
      0 < e.name.length ∧ e.name.length ≤ 127 ∧ (0 : UInt8) ∉ e.name)
    (hino : ∀ e ∈ liveRecords (fs.pool dir).inode es, fs.layout.HasInode e.inode) :
    Agrees fs dir (liveRecords (fs.pool dir).inode es) ↔
      ∀ b, 12 + 256 + 65536 ≤ b → b < iSize (fs.pool dir).inode / 1024 →
        ∀ e ∈ es b, e.live = false := by
  refine Iff.trans ?_ (hdir.dirEntries_eq_iff hbs)
  constructor
  · intro hagree
    refine hagree.dirEntries_length hv hdir.onDisk rfl ?_
    rw [hdir.liveRecords_eq hbs]
    exact List.prefix_append _ _
  · intro heq
    exact agrees_of_dirEntries_eq hv hdir.onDisk rfl hpool heq hnames (fun e he => (hname e he).2.1)
      hino

/-! ## A directory with a third level of tables -/

lemma ptr_zero (fs : Ext2) (i : ℕ) : ptr fs 0 i = 0 := if_pos rfl

/-- The inode of a directory of 65805 blocks, of which all but the last are holes. -/
def deepInode : Inode := setBlock (setSize (setMode zeros 0x41ED) 67384320) 14 10

/-- The record of the directory. -/
def deepRecord : DirEntry := ⟨0, 2, 1024, 1, 2, [97]⟩

/-- A small volume with the directory: blocks 10, 11 and 12 lead to block 13. -/
def deepVolume : Ext2 :=
  smallVolume (copy (putLe (putLe (putLe zeros 10240 4 11) 11264 4 12) 12288 4 13) 13312
    (putEntry zeros deepRecord) 0 1024) (fun _ => ⟨2, deepInode, [], 67384320, 0o755, true⟩) 1

/-- The records of its blocks. -/
def deepRecords (b : ℕ) : List DirEntry := if b = 65804 then [deepRecord] else []

lemma iBlock_deepInode : ∀ i < 14, iBlock deepInode i = 0 := by decide +kernel

lemma blockMap_deepVolume (b : ℕ) (hb : b < 65805) :
    blockMap deepVolume deepInode b = if b = 65804 then 13 else 0 := by
  unfold blockMap
  by_cases h1 : b < 12
  · rw [if_pos h1, if_neg (by omega), iBlock_deepInode b (by omega)]
  by_cases h2 : b < 12 + 256
  · rw [if_neg h1, if_pos h2, if_neg (by omega), iBlock_deepInode 12 (by omega), ptr_zero]
  by_cases h3 : b < 12 + 256 + 256 ^ 2
  · rw [if_neg h1, if_neg h2, if_pos h3, if_neg (by omega), iBlock_deepInode 13 (by omega)]
    dsimp only
    rw [ptr_zero, ptr_zero]
  · obtain rfl : b = 65804 := by omega
    rw [if_neg h1, if_neg h2, if_neg h3, if_pos rfl]
    decide +kernel

lemma fileBlock_deepVolume (b : ℕ) : fileBlock deepVolume deepInode b = 0 := by
  by_cases hb : b < 12 + 256 + 65536
  · rw [fileBlock_eq_blockMap rfl hb, blockMap_deepVolume b (by omega), if_neg (by omega)]
  · exact fileBlock_eq_zero rfl (not_lt.mp hb)

lemma not_dirUses_deepVolume (n : ℕ) : ¬ DirUses deepVolume deepInode n := by
  rintro ⟨hn, b, -, hmem | heq⟩
  · refine hn ?_
    unfold pointerBlocks at hmem
    dsimp only at hmem
    rw [iBlock_deepInode 12 (by omega), iBlock_deepInode 13 (by omega), ptr_zero] at hmem
    split_ifs at hmem <;> simp at hmem <;> exact hmem
  · exact hn (heq.trans (fileBlock_deepVolume b))

lemma iSize_deepInode : iSize deepInode / 1024 = 65805 := by decide +kernel

lemma walk_deepRecord : Walk (diskBlock deepVolume 13) 1024 0 [deepRecord] :=
  .of_entry (by decide +kernel) (by decide) (by decide) (by decide) .nil

lemma dirRecords_deepVolume : DirRecords deepVolume deepInode deepRecords where
  size := by decide +kernel
  empty := fun _ => iBlock_deepInode 0 (by omega)
  onDisk := fun n hn => absurd hn (not_dirUses_deepVolume n)
  hole := by
    intro b h0
    unfold deepRecords
    refine if_neg fun hb => ?_
    rw [hb, blockMap_deepVolume 65804 (by omega), if_pos rfl] at h0
    omega
  walk := by
    intro b hb hne
    rw [iSize_deepInode] at hb
    rw [blockMap_deepVolume b hb] at hne ⊢
    unfold deepRecords
    split_ifs at hne ⊢ with h
    · exact walk_deepRecord
    · exact absurd rfl hne

lemma liveRecords_deepVolume : liveRecords deepInode deepRecords = [deepRecord] := by
  have hholes : (List.range 65804).flatMap
      (fun b => (deepRecords b).filter DirEntry.live) = [] := by
    rw [List.flatMap_eq_nil_iff]
    intro b hb
    have hlt := List.mem_range.mp hb
    rw [deepRecords, if_neg (by omega), List.filter_nil]
  rw [liveRecords, iSize_deepInode, List.range_succ, List.flatMap_append, hholes]
  rfl

/-- **A listing that stops early**: the directory has a record in its last block, which
`ext2_vfs_readdir` does not return. -/
theorem listing_stops_early :
    deepVolume.layout.InodeTables ∧ DirRecords deepVolume (deepVolume.pool 0).inode deepRecords ∧
      deepVolume.layout.HasInode deepRecord.inode ∧
      liveRecords (deepVolume.pool 0).inode deepRecords = [deepRecord] ∧
      (ext2VfsReaddir deepVolume 0 0).1.isSome = false ∧
      ¬ Agrees deepVolume 0 (liveRecords (deepVolume.pool 0).inode deepRecords) := by
  have hv : deepVolume.layout.InodeTables := (smallVolume_valid _ _ _).tables
  have hempty : dirEntries deepVolume deepInode = [] := by
    unfold dirEntries
    rw [List.flatMap_eq_nil_iff]
    exact fun b _ => if_pos (fileBlock_deepVolume b)
  have hread : (ext2VfsReaddir deepVolume 0 0).1.isSome = false := by
    rw [ext2VfsReaddir_eq hv dirRecords_deepVolume.onDisk rfl, hempty]
    rfl
  have hlive : liveRecords (deepVolume.pool 0).inode deepRecords = [deepRecord] :=
    liveRecords_deepVolume
  refine ⟨hv, dirRecords_deepVolume, by decide, hlive, hread, fun hagree => ?_⟩
  rw [hagree.readdir 0, hlive] at hread
  exact Bool.noConfusion hread

/-- The root directory of a new volume. -/
theorem listing_agrees_newRoot : Agrees (rootVolume newRoot) 0 newRoot := by
  have hok := rootVolume_dirOk walk_newRoot
  have hfirst : blockMap (rootVolume newRoot) ((rootVolume newRoot).pool 0).inode 0 = 6 :=
    iBlock_rootVolume newRoot
  have hsize : iSize ((rootVolume newRoot).pool 0).inode = 1024 := by decide +kernel
  have hlive : liveRecords ((rootVolume newRoot).pool 0).inode (fun b => if b = 0 then newRoot else [])
      = newRoot := by
    rw [liveRecords, hsize]
    decide
  have hdir : DirRecords (rootVolume newRoot) ((rootVolume newRoot).pool 0).inode
      (fun b => if b = 0 then newRoot else []) := by
    refine ⟨by rw [hsize], fun h => ?_, hok.onDisk, fun b h0 => ?_, fun b hb hne => ?_⟩
    · omega
    · refine if_neg fun hb => ?_
      rw [hb, hfirst] at h0
      omega
    · obtain rfl : b = 0 := by omega
      rw [hfirst]
      exact walk_newRoot
  have hiff := listing_agrees_iff (rootVolume_valid newRoot).tables rfl hdir
    (show 1 < 128 by omega) (by rw [hlive]; decide) (by rw [hlive]; decide) (by rw [hlive]; decide)
  rw [hlive] at hiff
  refine hiff.mpr fun b hb hlt => ?_
  omega

end Bangos.Fs
