import Bangos.Fs.Ext2Dir

/-!
# Creating a file (`ext2_vfs_create`)

The call takes an inode, writes it, puts a record into the first block of the directory and
takes a node from the pool.  The inode is not given back when the node pool is exhausted, the
record is left out without a word when the first block has no room for it, and a name of 256
bytes or more does not fit the length field of a record.  Outside these three cases the call
does what it should: the record is there, or nothing has changed.
-/

namespace Bangos.Fs

open ByteMem Bangos.Drivers Bangos.Mm

variable {fs fs' : Ext2} {inode : Inode} {dir g b ino mode : ℕ} {name : List UInt8}
  {es pre post : List DirEntry} {e new : DirEntry}

/-- A well-formed directory: it has a first block, its blocks lie on the disk and outside the
metadata, and the records of the first block tile it. -/
structure DirOk (fs : Ext2) (inode : Inode) : Prop where
  first : iBlock inode 0 ≠ 0
  onDisk : ∀ n, DirUses fs inode n → fs.layout.OnDisk n
  plain : ∀ n, DirUses fs inode n → fs.layout.Plain n
  walk : ∃ es, Walk (diskBlock fs (iBlock inode 0)) 1024 0 es

/-- What a call of `ext2_vfs_create` on node `dir` should do: a scan of the directory finds the
new file, or, when the call fails, the blocks of the directory and the inode bitmaps are as
before. -/
def CreateOk (fs : Ext2) (dir : ℕ) (name : List UInt8) (mode : ℕ) : Prop :=
  match ext2VfsCreate fs dir name mode with
  | (some h, fs') => dirLookup fs' (fs'.pool dir).inode name = some (fs'.pool h).ino
  | (none, fs') =>
    (∀ n, DirUses fs (fs.pool dir).inode n → diskBlock fs' n = diskBlock fs n) ∧
      ∀ g < fs.groupCount, diskBlock fs' (fs.bgds g).bgInodeBitmap =
        diskBlock fs (fs.bgds g).bgInodeBitmap

/-! ## What the scan sees -/

lemma dirBlocks_pos (fs : Ext2) (inode : Inode) : 0 < dirBlocks fs inode :=
  Nat.lt_of_lt_of_le Nat.zero_lt_one (Nat.le_max_left _ _)

lemma DirOk.dirUses_first (h : DirOk fs inode) : DirUses fs inode (iBlock inode 0) :=
  ⟨h.first, 0, dirBlocks_pos fs inode, Or.inr rfl⟩

lemma dirLookup_eq_none_of_long (hlen : 256 ≤ name.length) : dirLookup fs inode name = none := by
  unfold dirLookup
  rw [Option.map_eq_none_iff, List.find?_eq_none]
  intro e he heq
  obtain ⟨⟨blk, o, rfl⟩, -⟩ := mem_dirEntries he
  have h1 := length_entryAt_name blk o
  have h2 : (entryAt blk o).nameLen < 256 := (blk (o + 6)).toNat_lt
  rw [of_decide_eq_true heq] at h1
  omega

lemma dirEntries_eq (hb : fs.blockSize = 1024) (h0 : iBlock inode 0 ≠ 0)
    (hw : Walk (diskBlock fs (iBlock inode 0)) 1024 0 es) :
    ∃ rest, dirEntries fs inode = es.filter DirEntry.live ++ rest := by
  obtain ⟨n, hn⟩ : ∃ n, dirBlocks fs inode = n + 1 :=
    ⟨_, (Nat.sub_add_cancel (dirBlocks_pos fs inode)).symm⟩
  have hfirst : entriesAt fs inode 0 = es.filter DirEntry.live := by
    have hf : fileBlock fs inode 0 = iBlock inode 0 := rfl
    unfold entriesAt
    rw [hf, if_neg h0, hb, hw.blockEntries_eq (by omega)]
  unfold dirEntries
  rw [hn, List.range_succ_eq_map, List.flatMap_cons, hfirst]
  exact ⟨_, rfl⟩

/-- **A new record is found**: the name was in no record before, and the record stands behind a
shortened one in the first block. -/
lemma dirLookup_of_record {r : ℕ} (hb : fs.blockSize = 1024) (hb' : fs'.blockSize = 1024)
    (h0 : iBlock inode 0 ≠ 0)
    (hw : Walk (diskBlock fs (iBlock inode 0)) 1024 0 (pre ++ e :: post))
    (hw' : Walk (diskBlock fs' (iBlock inode 0)) 1024 0
      (pre ++ { e with recLen := r } :: new :: post))
    (hfresh : dirLookup fs inode new.name = none) (hlive : new.live = true) :
    dirLookup fs' inode new.name = some new.inode := by
  obtain ⟨rest, hes⟩ := dirEntries_eq hb h0 hw
  obtain ⟨rest', hes'⟩ := dirEntries_eq hb' h0 hw'
  unfold dirLookup at hfresh ⊢
  rw [Option.map_eq_none_iff, List.find?_eq_none, hes] at hfresh
  have hold : ∀ x ∈ pre ++ [e], x.live = true → x.name ≠ new.name := by
    intro x hx hl heq
    refine hfresh x (List.mem_append_left _ (List.mem_filter.mpr ⟨?_, hl⟩)) (decide_eq_true heq)
    rw [List.append_cons]
    exact List.mem_append_left _ hx
  have hpre : ((pre ++ [{ e with recLen := r }]).filter DirEntry.live).find?
      (fun x : DirEntry => decide (x.name = new.name)) = none := by
    rw [List.find?_eq_none]
    intro x hx heq
    obtain ⟨hmem, hl⟩ := List.mem_filter.mp hx
    rcases List.mem_append.mp hmem with hp | he
    · exact hold x (List.mem_append_left _ hp) hl (of_decide_eq_true heq)
    · rw [List.mem_singleton.mp he] at hl heq
      exact hold e (List.mem_append_right _ (List.mem_singleton_self e)) hl (of_decide_eq_true heq)
  rw [hes', List.append_cons, List.filter_append, List.filter_cons, if_pos hlive,
    List.append_assoc, List.find?_append, hpre, List.cons_append, List.find?_cons]
  simp

/-! ## The call -/

/-- The volume when the inode has been taken and written. -/
def Ext2.withInode (fs : Ext2) (g b mode : ℕ) : Ext2 :=
  (fs.take .inode g b).putInode (fs.sb.entryOf g b .inode) (newInode mode)

@[simp] lemma withInode_layout (fs : Ext2) (g b mode : ℕ) :
    (fs.withInode g b mode).layout = fs.layout := by
  rw [Ext2.withInode, putInode_layout, take_layout]

@[simp] lemma withInode_pool (fs : Ext2) (g b mode : ℕ) :
    (fs.withInode g b mode).pool = fs.pool := by
  rw [Ext2.withInode, putInode_pool, take_pool]

@[simp] lemma withInode_poolCount (fs : Ext2) (g b mode : ℕ) :
    (fs.withInode g b mode).poolCount = fs.poolCount := by
  rw [Ext2.withInode, putInode_poolCount, take_poolCount]

section Valid

variable (hv : fs.layout.Valid) (hg : g < fs.groupCount) (hb : b < fs.sb.sInodesPerGroup)
include hv hg hb

lemma hasInode_take : (fs.take .inode g b).layout.HasInode (fs.sb.entryOf g b .inode) := by
  rw [take_layout]
  exact (entryOf_inode hv.allocates hg hb).2

lemma diskBlock_withInode {n : ℕ} (hn : fs.layout.Plain n) :
    diskBlock (fs.withInode g b mode) n = diskBlock fs n := by
  have hne : n ≠ (fs.bgds g).bitmapBlock .inode := by
    rw [bitmapBlock_eq]
    exact fun h => hn _ _ (isMeta_slot hg) h.symm
  have hv' : (fs.take .inode g b).layout.Valid := by rwa [take_layout]
  have hn' : (fs.take .inode g b).layout.Plain n := by rwa [take_layout]
  unfold Ext2.withInode
  rw [diskBlock_putInode_of_plain hv'.tables (hasInode_take hv hg hb) hn', diskBlock_take_of_ne hne]

lemma entryBit_withInode : bitAt (diskBlock (fs.withInode g b mode) (fs.bgds g).bgInodeBitmap) b =
    true := by
  have hv' : (fs.take .inode g b).layout.Valid := by rwa [take_layout]
  have hgc : (fs.take .inode g b).groupCount = fs.groupCount :=
    congrArg Layout.groupCount (take_layout fs .inode g b)
  have hbit : entryBit (fs.take .inode g b) .inode g b = true := by
    rw [entryBit_take hv.allocates hg hg (show b < fs.sb.perGroup .inode from hb)]
    simp
  have hmeta : (fs.bgds g).bgInodeBitmap = (fs.take .inode g b).layout.metaBlock g 1 := by
    rw [take_layout]
    rfl
  unfold entryBit at hbit
  rw [bitmapBlock_eq] at hbit
  unfold Ext2.withInode
  rw [hmeta, diskBlock_putInode_of_bitmap hv' (hasInode_take hv hg hb) (by rwa [hgc]) (by omega)]
  exact hbit

end Valid

lemma createDirBlock_eq (hv : fs.layout.Valid) (h0 : iBlock (fs.pool dir).inode 0 ≠ 0)
    (hon : fs.layout.OnDisk (iBlock (fs.pool dir).inode 0)) :
    createDirBlock fs dir = (iBlock (fs.pool dir).inode 0, { fs with
      dirBlk := copy fs.dirBlk 0 (diskBlock fs (iBlock (fs.pool dir).inode 0)) 0 fs.blockSize }) := by
  have hget : ext2GetFileBlock fs (fs.pool dir).inode 0 = (iBlock (fs.pool dir).inode 0, fs) := rfl
  unfold createDirBlock
  dsimp only
  rw [hget]
  dsimp only
  rw [if_neg h0, ext2ReadBlock_eq hv.serves hon]

/-- The volume when the record has been put into the directory, or has found no room there. -/
def Ext2.created (fs : Ext2) (dir g b mode : ℕ) (name : List UInt8) : Ext2 :=
  let d := createDirBlock (fs.withInode g b mode) dir
  createRecord d.2 d.1 (fs.sb.entryOf g b .inode) name

/-- The record behind a record that has been split. -/
def DirEntry.behind (e : DirEntry) (ino : ℕ) (name : List UInt8) : DirEntry :=
  ⟨e.offset + recordSpace e.nameLen, ino, e.recLen - recordSpace e.nameLen, name.length, 1, name⟩

/-- What the directory looks like afterwards: unchanged if there was no room, else with a record
more. -/
def Recorded (fs c : Ext2) (inode : Inode) (ino : ℕ) (name : List UInt8) : Prop :=
  (splitEntry (diskBlock fs (iBlock inode 0)) 1024 name.length = none ∧
      ∀ n, DirUses fs inode n → diskBlock c n = diskBlock fs n) ∨
    (splitEntry (diskBlock fs (iBlock inode 0)) 1024 name.length).isSome ∧
      ∃ pre e post, Walk (diskBlock fs (iBlock inode 0)) 1024 0 (pre ++ e :: post) ∧
        (name.length < 256 → Walk (diskBlock c (iBlock inode 0)) 1024 0
          (pre ++ { e with recLen := recordSpace e.nameLen } :: e.behind ino name :: post))

/-- The part of a name that the length field of a record has room for. -/
def storedName (name : List UInt8) : List UInt8 := name.take (name.length % 256)

lemma storedName_of_length_lt (h : name.length < 256) : storedName name = name := by
  rw [storedName, Nat.mod_eq_of_lt h, List.take_length]

lemma length_storedName (name : List UInt8) : (storedName name).length = name.length % 256 := by
  rw [storedName, List.length_take, Nat.min_eq_left (Nat.mod_le _ _)]

lemma splitEntry_spec {blk : ℕ → UInt8} {len : ℕ} (hw : Walk blk 1024 0 es)
    (hs : splitEntry blk 1024 len = some e) :
    recordSpace e.nameLen + recordSpace len ≤ e.recLen ∧ ∃ pre post, es = pre ++ e :: post := by
  have hmem := List.mem_of_find?_eq_some hs
  rw [hw.blockEntries_eq (by omega)] at hmem
  exact ⟨by simpa using List.find?_some hs, List.append_of_mem hmem⟩

lemma Walk.insert_splitEntry {blk : ℕ → UInt8} (hw : Walk blk 1024 0 es) (hino : ino < 2 ^ 32)
    (hs : splitEntry blk 1024 name.length = some e) :
    ∃ pre post, es = pre ++ e :: post ∧ Walk (insertEntry blk e ino name) 1024 0
      (pre ++ { e with recLen := recordSpace e.nameLen } :: e.behind ino (storedName name) ::
        post) := by
  obtain ⟨hslack, pre, post, rfl⟩ := splitEntry_spec hw hs
  refine ⟨pre, post, rfl, ?_⟩
  unfold DirEntry.behind
  rw [length_storedName]
  exact hw.insert hslack hino

lemma createRecord_eq {d : ℕ} (hv : fs.layout.Valid) (hon : fs.layout.OnDisk d) :
    createRecord fs d ino name =
      match splitEntry fs.dirBlk 1024 name.length with
      | none => fs
      | some e => { fs with dirBlk := insertEntry fs.dirBlk e ino name }.putBlock d
          (insertEntry fs.dirBlk e ino name) := by
  have hbs : fs.blockSize = 1024 := hv.blockSize
  have hfs : splitEntry fs.dirBlk fs.blockSize = splitEntry fs.dirBlk 1024 := by rw [hbs]
  unfold createRecord
  rw [hfs]
  cases splitEntry fs.dirBlk 1024 name.length with
  | none => rfl
  | some e =>
    dsimp only
    rw [ext2WriteBlock_eq (by exact hv.serves) (by exact hon)]

lemma insertEntry_congr {blk blk' : ℕ → UInt8} {x : ℕ} (h : blk x = blk' x) :
    insertEntry blk e ino name x = insertEntry blk' e ino name x := by
  simp only [insertEntry, copy, putLe, h]

/-- The first block of directory `dir` lies on the disk, outside the metadata, and its records
are `es`. -/
structure FirstBlock (fs : Ext2) (dir : ℕ) (es : List DirEntry) : Prop where
  some : iBlock (fs.pool dir).inode 0 ≠ 0
  onDisk : fs.layout.OnDisk (iBlock (fs.pool dir).inode 0)
  plain : fs.layout.Plain (iBlock (fs.pool dir).inode 0)
  walk : Walk (diskBlock fs (iBlock (fs.pool dir).inode 0)) 1024 0 es

section Call

variable (hv : fs.layout.Valid) (hg : g < fs.groupCount) (hb : b < fs.sb.sInodesPerGroup)
include hv hg hb

/-- **The record**: the first block has it if there was room, and nothing else but the inode has
changed. -/
lemma created_block (hfirst : FirstBlock fs dir es) (mode : ℕ) (name : List UInt8) :
    (fs.created dir g b mode name).layout = fs.layout ∧
      (fs.created dir g b mode name).pool = fs.pool ∧
      (fs.created dir g b mode name).poolCount = fs.poolCount ∧
      (∀ n, n ≠ iBlock (fs.pool dir).inode 0 →
        diskBlock (fs.created dir g b mode name) n = diskBlock (fs.withInode g b mode) n) ∧
      diskBlock (fs.created dir g b mode name) (iBlock (fs.pool dir).inode 0) =
        match splitEntry (diskBlock fs (iBlock (fs.pool dir).inode 0)) 1024 name.length with
        | none => diskBlock fs (iBlock (fs.pool dir).inode 0)
        | some e => copy zeros 0 (insertEntry (diskBlock fs (iBlock (fs.pool dir).inode 0)) e
            (fs.sb.entryOf g b .inode) name) 0 1024 := by
  obtain ⟨h0, hon, hplain, hwalk⟩ := hfirst
  have hsame : diskBlock (fs.withInode g b mode) _ = _ := diskBlock_withInode hv hg hb hplain
  have hl := withInode_layout fs g b mode
  have hp := withInode_pool fs g b mode
  have hpc := withInode_poolCount fs g b mode
  unfold Ext2.created
  generalize fs.withInode g b mode = w at hsame hl hp hpc
  have hvw : w.layout.Valid := by rwa [hl]
  have hbs : w.blockSize = 1024 := hvw.blockSize
  rw [← hp] at h0 hon hsame hwalk ⊢
  rw [← hl] at hon
  rw [createDirBlock_eq hvw h0 hon]
  dsimp only
  generalize iBlock (w.pool dir).inode 0 = d at hon hwalk hsame
  -- the buffer holds the records of the block
  obtain ⟨c, hc⟩ : ∃ c : Ext2, c = { w with dirBlk := copy w.dirBlk 0 (diskBlock w d) 0 w.blockSize } :=
    ⟨_, rfl⟩
  have hbuf : ∀ x < 1024, c.dirBlk x = diskBlock fs d x := by
    intro x hx
    rw [hc, ← hsame]
    exact copy_zero_apply (by rwa [hbs])
  have hsplit : splitEntry c.dirBlk 1024 name.length =
      splitEntry (diskBlock fs d) 1024 name.length := by
    have hwbuf : Walk c.dirBlk 1024 0 es := hwalk.congr fun x _ hx => hbuf x hx
    unfold splitEntry
    rw [hwbuf.blockEntries_eq (by omega), hwalk.blockEntries_eq (by omega)]
  have hcl : c.layout = w.layout := by rw [hc]; rfl
  have hcp : c.pool = w.pool := by rw [hc]
  have hcpc : c.poolCount = w.poolCount := by rw [hc]
  have hcd : ∀ n, diskBlock c n = diskBlock w n := by rw [hc]; exact fun n => rfl
  rw [← hc, createRecord_eq (by rwa [hcl]) (by rwa [hcl]), ← hsplit]
  clear hc
  cases splitEntry c.dirBlk 1024 name.length with
  | none => exact ⟨hcl.trans hl, hcp, hcpc.trans hpc, fun n _ => hcd n,
      (hcd d).trans hsame⟩
  | some e =>
    dsimp only
    rw [putBlock_layout, putBlock_pool, putBlock_poolCount]
    refine ⟨hcl.trans hl, hcp, hcpc.trans hpc, fun n hn => ?_, ?_⟩
    · rw [diskBlock_putBlock_of_ne hn]
      exact hcd n
    · have hcbs : c.blockSize = 1024 := (congrArg Layout.blockSize hcl).trans hbs
      rw [diskBlock_putBlock_self]
      change copy zeros 0 _ 0 c.blockSize = _
      rw [hcbs]
      exact copy_congr fun x hx => insertEntry_congr (hbuf (0 + x) (by omega))

lemma created_spec (hok : DirOk fs (fs.pool dir).inode) (mode : ℕ) (name : List UInt8) :
    (fs.created dir g b mode name).layout = fs.layout ∧
      (fs.created dir g b mode name).pool = fs.pool ∧
      (fs.created dir g b mode name).poolCount = fs.poolCount ∧
      bitAt (diskBlock (fs.created dir g b mode name) (fs.bgds g).bgInodeBitmap) b = true ∧
      Recorded fs (fs.created dir g b mode name) (fs.pool dir).inode (fs.sb.entryOf g b .inode)
        name := by
  have hplain := hok.plain _ hok.dirUses_first
  obtain ⟨es, hwalk⟩ := hok.walk
  obtain ⟨hl, hp, hpc, hother, hblock⟩ := created_block hv hg hb
    ⟨hok.first, hok.onDisk _ hok.dirUses_first, hplain, hwalk⟩ mode name
  have hlt : fs.sb.entryOf g b .inode < 2 ^ 32 :=
    (entryOf_inode hv.allocates hg hb).2.2.trans_lt hv.inodes_fit
  refine ⟨hl, hp, hpc, ?_, ?_⟩
  · have hne : (fs.bgds g).bgInodeBitmap ≠ iBlock (fs.pool dir).inode 0 :=
      hplain g 1 ⟨hg, by omega⟩
    rw [hother _ hne]
    exact entryBit_withInode hv hg hb
  unfold Recorded
  generalize hd : iBlock (fs.pool dir).inode 0 = d at hwalk hother hblock
  cases hs : splitEntry (diskBlock fs d) 1024 name.length with
  | none =>
    rw [hs] at hblock
    refine Or.inl ⟨rfl, fun n hn => ?_⟩
    by_cases hne : n = d
    · rw [hne, hblock]
    · rw [hother n hne, diskBlock_withInode hv hg hb (hok.plain n hn)]
  | some e =>
    rw [hs] at hblock
    obtain ⟨pre, post, rfl, hw⟩ := hwalk.insert_splitEntry hlt hs
    refine Or.inr ⟨rfl, pre, e, post, hwalk, fun hlen => ?_⟩
    rw [storedName_of_length_lt hlen] at hw
    rw [hblock]
    exact hw.congr fun x _ hx => copy_zero_apply hx

end Call

lemma ext2VfsCreate_eq (hv : fs.layout.Valid) (hg : g < fs.groupCount)
    (hb : b < fs.sb.sInodesPerGroup) (dir mode : ℕ) (name : List UInt8) (halloc : ext2AllocInode fs =
    (fs.sb.entryOf g b .inode, fs.take .inode g b)) :
    ext2VfsCreate fs dir name mode = ext2CreateVfsNode (fs.created dir g b mode name)
      (fs.sb.entryOf g b .inode) name (newInode mode) := by
  have hpos := (entryOf_inode hv.allocates hg hb).2.1
  have hvt : (fs.take .inode g b).layout.Valid := by rwa [take_layout]
  unfold ext2VfsCreate
  rw [halloc]
  dsimp only
  rw [if_neg (by omega), ext2WriteInode_eq hvt.tables (hasInode_take hv hg hb)]
  rfl

lemma lookup_created_iff (hv : fs.layout.Valid) (hl : fs'.layout = fs.layout)
    (hok : DirOk fs inode) (hname : name ≠ []) (hfresh : dirLookup fs inode name = none)
    (hino : 0 < ino) (hrec : Recorded fs fs' inode ino name) :
    dirLookup fs' inode name = some ino ↔ name.length ≤ 255 ∧
      (splitEntry (diskBlock fs (iBlock inode 0)) 1024 name.length).isSome := by
  have hbs : fs'.blockSize = fs.blockSize := congrArg Layout.blockSize hl
  rcases hrec with ⟨hnone, hsame⟩ | ⟨hsome, pre, e, post, hw, hw'⟩
  · refine iff_of_false ?_ fun h => ?_
    · unfold dirLookup at hfresh ⊢
      rw [dirEntries_congr hbs hsame, hfresh]
      exact Option.some_ne_none ino ∘ Eq.symm
    · rw [hnone] at h
      exact Bool.false_ne_true h.2
  · by_cases hlen : name.length ≤ 255
    · refine iff_of_true ?_ ⟨hlen, hsome⟩
      have hlive : (e.behind ino name).live = true := by
        have := List.length_pos_iff.mpr hname
        unfold DirEntry.live DirEntry.behind
        simp only [Bool.and_eq_true, bne_iff_ne, decide_eq_true_eq]
        exact ⟨by omega, this⟩
      exact dirLookup_of_record hv.blockSize (hbs.trans hv.blockSize) hok.first hw (hw' (by omega))
        hfresh hlive
    · refine iff_of_false ?_ fun h => hlen h.1
      rw [dirLookup_eq_none_of_long (by omega)]
      exact Option.some_ne_none ino ∘ Eq.symm

lemma ext2AllocInode_cases (hv : fs.layout.Valid) :
    (ext2AllocInode fs = (0, fs) ∧ ∀ g < fs.groupCount, Full fs .inode g) ∨
      ∃ g b, g < fs.groupCount ∧ b < fs.sb.sInodesPerGroup ∧ ¬ Full fs .inode g ∧
        entryBit fs .inode g b = false ∧
        ext2AllocInode fs = (fs.sb.entryOf g b .inode, fs.take .inode g b) := by
  rcases allocLoop_result hv.allocates .inode fs.groupCount 0 (by omega) with
    ⟨h, hfull⟩ | ⟨g, b, -, hg, hb, hfree, hbit, h⟩
  · exact Or.inl ⟨h, fun g hg => hfull g (by omega) (by omega)⟩
  · refine Or.inr ⟨g, b, by omega, hb, ?_, hbit, h⟩
    rintro (h0 | hall)
    · exact hfree h0
    · exact absurd (hall b hb) (by rw [hbit]; exact Bool.false_ne_true)

/-- **Creating a file is all or nothing and visible** exactly when there is no inode, or there
is a node in the pool, a name of at most 255 bytes and room in the first block. -/
theorem createOk_iff (hv : fs.layout.Valid) (hdir : dir < fs.poolCount)
    (hok : DirOk fs (fs.pool dir).inode) (hname : name ≠ [])
    (hfresh : dirLookup fs (fs.pool dir).inode name = none) (mode : ℕ) :
    CreateOk fs dir name mode ↔
      (∀ g < fs.groupCount, Full fs .inode g) ∨
        fs.poolCount < maxNodes ∧ name.length ≤ 255 ∧
          (splitEntry (diskBlock fs (iBlock (fs.pool dir).inode 0)) 1024 name.length).isSome := by
  rcases ext2AllocInode_cases hv with ⟨halloc, hfull⟩ | ⟨g, b, hg, hb, hnfull, hbit, halloc⟩
  · have hcall : ext2VfsCreate fs dir name mode = (none, fs) := by
      unfold ext2VfsCreate
      rw [halloc]
      rfl
    refine iff_of_true ?_ (Or.inl hfull)
    unfold CreateOk
    rw [hcall]
    exact ⟨fun n _ => rfl, fun g _ => rfl⟩
  · have hnot : ¬ ∀ g < fs.groupCount, Full fs .inode g := fun h => hnfull (h g hg)
    have hcall := ext2VfsCreate_eq hv hg hb dir mode name halloc
    obtain ⟨hl, hp, hpc, htaken, hrec⟩ := created_spec hv hg hb hok mode name
    have hino := (entryOf_inode hv.allocates hg hb).2.1
    unfold CreateOk
    rw [hcall]
    generalize fs.created dir g b mode name = c at hl hp hpc htaken hrec
    generalize fs.sb.entryOf g b .inode = ino at hino hrec
    unfold ext2CreateVfsNode
    by_cases hpool : maxNodes ≤ c.poolCount
    · -- the inode stays taken
      rw [if_pos hpool]
      refine iff_of_false (fun h => ?_) fun h => ?_
      · rw [h.2 g hg] at htaken
        exact absurd (hbit.symm.trans htaken) Bool.false_ne_true
      · have := (h.resolve_left hnot).1
        omega
    · rw [if_neg hpool]
      dsimp only
      rw [Function.update_self, Function.update_of_ne (by omega : dir ≠ c.poolCount), hp]
      generalize (fs.pool dir).inode = inode at hok hrec hfresh
      exact (lookup_created_iff hv hl hok hname hfresh hino hrec).trans
        ⟨fun h => Or.inr ⟨by omega, h⟩, fun h => (h.resolve_left hnot).2⟩

/-! ## The records of the block -/

/-- The records are the same, or one of them has been split: it keeps all but its length, and the
new one lies in what was its slack. -/
def AtMostOneMore (es es' : List DirEntry) : Prop :=
  es' = es ∨ ∃ pre e new post, es = pre ++ e :: post ∧
    es' = pre ++ { e with recLen := new.offset - e.offset } :: new :: post ∧
    e.offset + recordSpace e.nameLen ≤ new.offset ∧ new.offset + new.recLen ≤ e.offset + e.recLen

/-- What `ext2_vfs_create` does to a block whose records are `es`: they tile the block as before,
and at most one has been added. -/
def KeepsRecords (es : List DirEntry) (blk : ℕ → UInt8) : Prop :=
  ∃ es', Walk blk 1024 0 es' ∧ AtMostOneMore es es'

lemma keepsRecords_of_walk {blk : ℕ → UInt8} (hw : Walk blk 1024 0 es) : KeepsRecords es blk :=
  ⟨es, hw, Or.inl rfl⟩

lemma keepsRecords_insertEntry {blk : ℕ → UInt8} (hw : Walk blk 1024 0 es) (hino : ino < 2 ^ 32)
    (hs : splitEntry blk 1024 name.length = some e) :
    KeepsRecords es (insertEntry blk e ino name) := by
  obtain ⟨hslack, -⟩ := splitEntry_spec hw hs
  have hsp := recordSpace_ge name.length
  obtain ⟨pre, post, hes, hins⟩ := hw.insert_splitEntry hino hs
  refine ⟨_, hins, Or.inr ⟨pre, e, e.behind ino (storedName name), post, hes, ?_, le_rfl, ?_⟩⟩
  · unfold DirEntry.behind
    rw [Nat.add_sub_cancel_left]
  · unfold DirEntry.behind
    dsimp only
    omega

lemma KeepsRecords.congr {blk blk' : ℕ → UInt8} (h : KeepsRecords es blk)
    (heq : ∀ x < 1024, blk' x = blk x) : KeepsRecords es blk' := by
  obtain ⟨es', hw, hmore⟩ := h
  exact ⟨es', hw.congr fun x _ hx => heq x hx, hmore⟩

lemma keepsRecords_createRecord {d : ℕ} (hbs : fs.blockSize = 1024) (hw : Walk fs.dirBlk 1024 0 es)
    (hino : ino < 2 ^ 32) : KeepsRecords es (createRecord fs d ino name).dirBlk := by
  unfold createRecord
  rw [hbs]
  cases hs : splitEntry fs.dirBlk 1024 name.length with
  | none => exact keepsRecords_of_walk hw
  | some e => exact keepsRecords_insertEntry hw hino hs

lemma diskBlock_ext2CreateVfsNode (fs : Ext2) (ino n : ℕ) (name : List UInt8) (inode : Inode) :
    diskBlock (ext2CreateVfsNode fs ino name inode).2 n = diskBlock fs n := by
  unfold ext2CreateVfsNode
  split_ifs
  · rfl
  · rfl

/-- **Creating a file keeps the first block of the directory well-formed**, whatever the name:
the records of the block stay where they are, and at most one is added, in the slack of one of
them. The buffer is treated so on every device, the block on the disk when the device works. -/
theorem create_keeps_records (name : List UInt8) (mode : ℕ) :
    (∀ (fs : Ext2) (es : List DirEntry) (d ino : ℕ), fs.blockSize = 1024 → ino < 2 ^ 32 →
      Walk fs.dirBlk 1024 0 es → KeepsRecords es (createRecord fs d ino name).dirBlk) ∧
    ∀ (fs : Ext2) (dir : ℕ) (es : List DirEntry), fs.layout.Valid → FirstBlock fs dir es →
      KeepsRecords es
        (diskBlock (ext2VfsCreate fs dir name mode).2 (iBlock (fs.pool dir).inode 0)) := by
  refine ⟨fun fs es d ino hbs hino hw => keepsRecords_createRecord hbs hw hino,
    fun fs dir es hv hfirst => ?_⟩
  rcases ext2AllocInode_cases hv with ⟨halloc, -⟩ | ⟨g, b, hg, hb, -, -, halloc⟩
  · have hcall : ext2VfsCreate fs dir name mode = (none, fs) := by
      unfold ext2VfsCreate
      rw [halloc]
      rfl
    rw [hcall]
    exact keepsRecords_of_walk hfirst.walk
  · have hlt : fs.sb.entryOf g b .inode < 2 ^ 32 :=
      (entryOf_inode hv.allocates hg hb).2.2.trans_lt hv.inodes_fit
    obtain ⟨-, -, -, -, hblock⟩ := created_block hv hg hb hfirst mode name
    rw [ext2VfsCreate_eq hv hg hb dir mode name halloc, diskBlock_ext2CreateVfsNode, hblock]
    cases hs : splitEntry (diskBlock fs (iBlock (fs.pool dir).inode 0)) 1024 name.length with
    | none => exact keepsRecords_of_walk hfirst.walk
    | some e =>
      exact (keepsRecords_insertEntry hfirst.walk hlt hs).congr fun x hx => copy_zero_apply hx

/-! ## A directory with room, and one without -/

/-- Write a record into a block. -/
def putEntry (blk : ℕ → UInt8) (e : DirEntry) : ℕ → UInt8 :=
  let blk := putLe (putLe blk e.offset 4 e.inode) (e.offset + 4) 2 e.recLen
  let blk := putLe (putLe blk (e.offset + 6) 1 e.nameLen) (e.offset + 7) 1 e.fileType
  copy blk (e.offset + 8) (fun x => e.name.getD x 0) 0 e.name.length

/-- A small volume whose root directory, node 0, is block 6 with the records given; blocks 1 to
6 and inodes 1 to 4 are taken. -/
def rootVolume (es : List DirEntry) : Ext2 :=
  smallVolume
    (copy (putLe (putLe zeros 3072 1 0x3F) 4096 1 0x0F) 6144 (es.foldl putEntry zeros) 0 1024)
    (fun _ => ⟨2, setBlock (setSize (setMode zeros 0x41ED) 1024) 0 6, [], 1024, 0o755, true⟩) 1

/-- The root directory of a new volume. -/
def newRoot : List DirEntry := [⟨0, 2, 12, 1, 2, [46]⟩, ⟨12, 2, 1012, 2, 2, [46, 46]⟩]

/-- A root directory of four records of the same length. -/
def fourRecords : List DirEntry :=
  [⟨0, 2, 256, 1, 2, [46]⟩, ⟨256, 2, 256, 2, 2, [46, 46]⟩, ⟨512, 3, 256, 1, 1, [97]⟩,
    ⟨768, 4, 256, 1, 1, [98]⟩]

lemma walk_newRoot : Walk (diskBlock (rootVolume newRoot) 6) 1024 0 newRoot :=
  .of_entry (by decide +kernel) (by decide) (by decide) (by decide) <|
    .of_entry (by decide +kernel) (by decide) (by decide) (by decide) .nil

lemma walk_fourRecords : Walk (diskBlock (rootVolume fourRecords) 6) 1024 0 fourRecords :=
  .of_entry (by decide +kernel) (by decide) (by decide) (by decide) <|
    .of_entry (by decide +kernel) (by decide) (by decide) (by decide) <|
      .of_entry (by decide +kernel) (by decide) (by decide) (by decide) <|
        .of_entry (by decide +kernel) (by decide) (by decide) (by decide) .nil

lemma iBlock_rootVolume (es : List DirEntry) : iBlock ((rootVolume es).pool 0).inode 0 = 6 := by
  change iBlock (setBlock (setSize (setMode zeros 0x41ED) 1024) 0 6) 0 = 6
  decide +kernel

lemma dirUses_rootVolume {es : List DirEntry} {n : ℕ}
    (hn : DirUses (rootVolume es) ((rootVolume es).pool 0).inode n) : n = 6 := by
  have hsize : dirBlocks (rootVolume es) ((rootVolume es).pool 0).inode = 1 := by
    change max 1 (decr 0xFFFFFFFF (u32 (iSize (setBlock (setSize (setMode zeros 0x41ED) 1024) 0 6) +
      1024)) / 1024) = 1
    decide +kernel
  obtain ⟨-, b, hb, hn⟩ := hn
  rw [hsize] at hb
  obtain rfl : b = 0 := by omega
  rcases hn with hn | hn
  · cases hn
  · exact hn.trans (iBlock_rootVolume es)

lemma rootVolume_dirOk {es : List DirEntry} (hw : Walk (diskBlock (rootVolume es) 6) 1024 0 es) :
    DirOk (rootVolume es) ((rootVolume es).pool 0).inode := by
  refine ⟨by rw [iBlock_rootVolume]; omega, fun n hn => ?_, fun n hn => ?_, es,
    by rwa [iBlock_rootVolume]⟩
  · rw [dirUses_rootVolume hn]
    exact show 6 * 2 + 2 ≤ 64 by omega
  · rw [dirUses_rootVolume hn]
    exact plain_smallVolume le_rfl

lemma rootVolume_valid (es : List DirEntry) : (rootVolume es).layout.Valid :=
  smallVolume_valid _ _ _

/-- A name of 300 bytes, of which the record has room for 44. -/
theorem create_keeps_records_newRoot :
    FirstBlock (rootVolume newRoot) 0 newRoot ∧ KeepsRecords newRoot
      (diskBlock (ext2VfsCreate (rootVolume newRoot) 0 (List.replicate 300 97) 0).2
        (iBlock ((rootVolume newRoot).pool 0).inode 0)) := by
  have hok := rootVolume_dirOk walk_newRoot
  have hfirst : FirstBlock (rootVolume newRoot) 0 newRoot :=
    ⟨hok.first, hok.onDisk _ hok.dirUses_first, hok.plain _ hok.dirUses_first, by
      rw [iBlock_rootVolume]; exact walk_newRoot⟩
  exact ⟨hfirst, (create_keeps_records (List.replicate 300 97) 0).2 _ 0 _
    (rootVolume_valid newRoot) hfirst⟩

/-- A file in the root directory of a new volume. -/
theorem createOk_newRoot : CreateOk (rootVolume newRoot) 0 [97] 0 := by
  have hdir : 0 < (rootVolume newRoot).poolCount := Nat.zero_lt_one
  have hpool : (rootVolume newRoot).poolCount < maxNodes := show 1 < 128 by omega
  have hfresh : dirLookup (rootVolume newRoot) ((rootVolume newRoot).pool 0).inode [97] = none := by
    decide +kernel
  have hok := rootVolume_dirOk walk_newRoot
  have hiff := createOk_iff (rootVolume_valid newRoot) hdir hok (List.cons_ne_nil _ _) hfresh 0
  exact hiff.mpr (Or.inr ⟨hpool, show 1 ≤ 255 by omega, by decide +kernel⟩)

lemma not_createOk {h : ℕ} (hret : (ext2VfsCreate fs dir name mode).1 = some h)
    (hlost : dirLookup (ext2VfsCreate fs dir name mode).2
      ((ext2VfsCreate fs dir name mode).2.pool dir).inode name = none) :
    ¬ CreateOk fs dir name mode := by
  unfold CreateOk
  generalize ext2VfsCreate fs dir name mode = r at hret hlost
  obtain ⟨r, fs'⟩ := r
  obtain rfl : r = some h := hret
  intro hfound
  exact Option.some_ne_none _ (hfound.symm.trans hlost)

/-- **A file that is not there**: no record of the root directory has room for a name of 250
bytes, and `ext2_vfs_create` returns a node for it all the same. -/
theorem create_without_room :
    (rootVolume fourRecords).layout.Valid ∧
      DirOk (rootVolume fourRecords) ((rootVolume fourRecords).pool 0).inode ∧
      dirLookup (rootVolume fourRecords) ((rootVolume fourRecords).pool 0).inode
        (List.replicate 250 97) = none ∧
      (ext2VfsCreate (rootVolume fourRecords) 0 (List.replicate 250 97) 0).1 = some 1 ∧
      ¬ CreateOk (rootVolume fourRecords) 0 (List.replicate 250 97) 0 := by
  have hret : (ext2VfsCreate (rootVolume fourRecords) 0 (List.replicate 250 97) 0).1 = some 1 := by
    decide +kernel
  exact ⟨rootVolume_valid fourRecords, rootVolume_dirOk walk_fourRecords, by decide +kernel, hret,
    not_createOk hret (by decide +kernel)⟩

end Bangos.Fs
