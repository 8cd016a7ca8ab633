import Bangos.Fs.Ext2Alloc

/-!
# Directories on a working volume

What the scans of `ext2_vfs_finddir` and `ext2_vfs_readdir` see: the records in use of the
blocks of the directory, in order.  `Walk` describes a block whose records tile it; a record
that is split in two gives a walk with one record more.
-/

namespace Bangos.Fs

open ByteMem Bangos.Drivers Bangos.Mm

variable {fs fs' : Ext2} {inode : Inode} {n b off bs : ℕ} {blk blk' : ℕ → UInt8}
  {es pre post : List DirEntry} {e : DirEntry}

/-! ## The blocks of a file -/

/-- The entry `i` of the pointer block `n`, or 0. -/
def ptr (fs : Ext2) (n i : ℕ) : ℕ := if n = 0 then 0 else le (diskBlock fs n) (4 * i) 4

/-- The number of the block with the contents of block `b` of a file, or 0. -/
def fileBlock (fs : Ext2) (inode : Inode) (b : ℕ) : ℕ :=
  let p := fs.blockSize / 4
  if b < 12 then iBlock inode b
  else if b - 12 < p then ptr fs (iBlock inode 12) (b - 12)
  else if b - 12 - p < u32 (p * p) then
    ptr fs (ptr fs (iBlock inode 13) ((b - 12 - p) / p)) ((b - 12 - p) % p)
  else 0

/-- The pointer blocks on the way to block `b` of a file. -/
def pointerBlocks (fs : Ext2) (inode : Inode) (b : ℕ) : List ℕ :=
  let p := fs.blockSize / 4
  if b < 12 then []
  else if b - 12 < p then [iBlock inode 12]
  else if b - 12 - p < u32 (p * p) then
    [iBlock inode 13, ptr fs (iBlock inode 13) ((b - 12 - p) / p)]
  else []

lemma pointerAt_eq (hv : fs.layout.Serves) (hn : n ≠ 0 → fs.layout.OnDisk n) (i : ℕ) :
    pointerAt fs n i = (ptr fs n i, fs) := by
  unfold pointerAt ptr
  split_ifs with h0
  · rfl
  · rw [ext2ReadBlock_eq hv (hn h0), copy_zeros_diskBlock]

/-- **Finding a block of a file** on a working device. -/
theorem ext2GetFileBlock_eq (hv : fs.layout.Serves)
    (h : ∀ n ∈ pointerBlocks fs inode b, n ≠ 0 → fs.layout.OnDisk n) :
    ext2GetFileBlock fs inode b = (fileBlock fs inode b, fs) := by
  unfold ext2GetFileBlock fileBlock
  unfold pointerBlocks at h
  dsimp only at h ⊢
  split_ifs at h ⊢ with h1 h2 h3
  · rfl
  · exact pointerAt_eq hv (h _ (by simp)) _
  · rw [pointerAt_eq hv (h _ (by simp))]
    exact pointerAt_eq hv (h _ (by simp)) _
  · rfl

lemma ptr_congr (hn : n ≠ 0 → diskBlock fs' n = diskBlock fs n) (i : ℕ) : ptr fs' n i = ptr fs n i := by
  unfold ptr
  split_ifs with h0
  · rfl
  · rw [hn h0]

lemma fileBlock_congr (hbs : fs'.blockSize = fs.blockSize)
    (h : ∀ n ∈ pointerBlocks fs inode b, n ≠ 0 → diskBlock fs' n = diskBlock fs n) :
    fileBlock fs' inode b = fileBlock fs inode b ∧
      pointerBlocks fs' inode b = pointerBlocks fs inode b := by
  unfold fileBlock pointerBlocks
  unfold pointerBlocks at h
  dsimp only at h ⊢
  rw [hbs]
  split_ifs at h ⊢ with h1 h2 h3
  · exact ⟨rfl, rfl⟩
  · exact ⟨ptr_congr (h _ (by simp)) _, rfl⟩
  · rw [ptr_congr (h (iBlock inode 13) (by simp)), ptr_congr (h _ (by simp))]
    exact ⟨rfl, rfl⟩
  · exact ⟨rfl, rfl⟩

/-! ## The scan -/

/-- The records in use of block `b` of a directory, as they are on the disk. -/
def entriesAt (fs : Ext2) (inode : Inode) (b : ℕ) : List DirEntry :=
  if fileBlock fs inode b = 0 then []
  else (blockEntries (diskBlock fs (fileBlock fs inode b)) fs.blockSize fs.blockSize 0).filter
    DirEntry.live

/-- The records in use of a directory, as they are on the disk. -/
def dirEntries (fs : Ext2) (inode : Inode) : List DirEntry :=
  (List.range (dirBlocks fs inode)).flatMap (entriesAt fs inode)

/-- The inode number of the first record with a name. -/
def dirLookup (fs : Ext2) (inode : Inode) (name : List UInt8) : Option ℕ :=
  ((dirEntries fs inode).find? fun e => decide (e.name = name)).map DirEntry.inode

/-- Block `n` holds a part of the directory, or is on the way to one. -/
def DirUses (fs : Ext2) (inode : Inode) (n : ℕ) : Prop :=
  n ≠ 0 ∧ ∃ b < dirBlocks fs inode, n ∈ pointerBlocks fs inode b ∨ n = fileBlock fs inode b

lemma length_entryAt_name (blk : ℕ → UInt8) (off : ℕ) :
    (entryAt blk off).name.length = (entryAt blk off).nameLen := by
  simp [entryAt]

lemma mem_blockEntries {fuel : ℕ} (h : e ∈ blockEntries blk bs fuel off) :
    ∃ o, e = entryAt blk o := by
  induction fuel generalizing off with
  | zero => cases h
  | succ fuel ih =>
    rw [blockEntries] at h
    split_ifs at h
    · rcases List.mem_cons.mp h with rfl | h
      · exact ⟨off, rfl⟩
      · exact ih h
    · cases h

lemma mem_dirEntries (h : e ∈ dirEntries fs inode) :
    (∃ blk o, e = entryAt blk o) ∧ e.live = true := by
  obtain ⟨b, -, hb⟩ := List.mem_flatMap.mp h
  unfold entriesAt at hb
  split_ifs at hb
  · cases hb
  · obtain ⟨hmem, hlive⟩ := List.mem_filter.mp hb
    obtain ⟨o, rfl⟩ := mem_blockEntries hmem
    exact ⟨⟨_, o, rfl⟩, hlive⟩

lemma entriesAt_congr (hbs : fs'.blockSize = fs.blockSize)
    (hp : ∀ n ∈ pointerBlocks fs inode b, n ≠ 0 → diskBlock fs' n = diskBlock fs n)
    (hd : fileBlock fs inode b ≠ 0 →
      diskBlock fs' (fileBlock fs inode b) = diskBlock fs (fileBlock fs inode b)) :
    entriesAt fs' inode b = entriesAt fs inode b := by
  unfold entriesAt
  rw [(fileBlock_congr hbs hp).1, hbs]
  split_ifs with h0
  · rfl
  · rw [hd h0]

lemma dirEntries_congr (hbs : fs'.blockSize = fs.blockSize)
    (h : ∀ n, DirUses fs inode n → diskBlock fs' n = diskBlock fs n) :
    dirEntries fs' inode = dirEntries fs inode := by
  have hn : dirBlocks fs' inode = dirBlocks fs inode := by unfold dirBlocks; rw [hbs]
  unfold dirEntries
  rw [hn]
  refine List.flatMap_congr fun b hb => ?_
  have hb := List.mem_range.mp hb
  exact entriesAt_congr hbs (fun n hn h0 => h n ⟨h0, b, hb, Or.inl hn⟩)
    fun h0 => h _ ⟨h0, b, hb, Or.inr rfl⟩

lemma dirUses_congr (hbs : fs'.blockSize = fs.blockSize)
    (h : ∀ n, DirUses fs inode n → diskBlock fs' n = diskBlock fs n) (hn : DirUses fs' inode n) :
    DirUses fs inode n := by
  have hblocks : dirBlocks fs' inode = dirBlocks fs inode := by unfold dirBlocks; rw [hbs]
  obtain ⟨h0, b, hb, hn⟩ := hn
  rw [hblocks] at hb
  obtain ⟨hf, hp⟩ := fileBlock_congr hbs fun m hm hm0 => h m ⟨hm0, b, hb, Or.inl hm⟩
  rw [hf, hp] at hn
  exact ⟨h0, b, hb, hn⟩

lemma findEntry_eq (hv : fs.layout.InodeTables) {name : List UInt8} (es : List DirEntry)
    (hes : ∀ e ∈ es, e.name.length = e.nameLen ∧ fs.layout.HasInode e.inode) :
    findEntry name es fs = ((es.find? fun e => decide (e.name = name)).map
      fun e => (e, diskInode fs e.inode), fs) := by
  induction es with
  | nil => rfl
  | cons e es ih =>
    obtain ⟨hlen, hino⟩ := hes e List.mem_cons_self
    rw [findEntry, List.find?_cons]
    by_cases hname : e.name = name
    · rw [if_pos ⟨by rw [← hname, hlen], hname.symm⟩, ext2ReadInode_eq hv hino]
      simp [hname]
    · rw [if_neg fun h => hname h.2.symm, ih fun x hx => hes x (List.mem_cons_of_mem e hx)]
      simp [hname]

section Working

variable (hv : fs.layout.InodeTables) (hd : ∀ n, DirUses fs inode n → fs.layout.OnDisk n)
include hv hd

lemma dirBlockEntries_eq (hb : b < dirBlocks fs inode) :
    dirBlockEntries fs inode b = (entriesAt fs inode b, fs) := by
  unfold dirBlockEntries entriesAt
  rw [ext2GetFileBlock_eq hv.serves fun n hn h0 => hd n ⟨h0, b, hb, Or.inl hn⟩]
  split
  · rename_i heq
    obtain ⟨h0, rfl⟩ := Prod.mk.inj heq
    rw [h0, if_pos rfl]
  · rename_i phys fs1 hne heq
    obtain ⟨h0, rfl⟩ := Prod.mk.inj heq
    have hpos : fileBlock fs inode b ≠ 0 := fun h => hne (h0.symm.trans h)
    rw [if_neg hpos, ← h0, ext2ReadBlock_eq hv.serves (hd _ ⟨hpos, b, hb, Or.inr rfl⟩),
      copy_zeros_diskBlock]

/-- **The scan of `ext2_vfs_finddir`** on a working volume, over `n` blocks from `b` on. -/
lemma findBlocks_eq {name : List UInt8} (n b : ℕ) (hn : b + n ≤ dirBlocks fs inode)
    (hes : ∀ e ∈ dirEntries fs inode, fs.layout.HasInode e.inode) :
    findBlocks inode name n b fs =
      ((((List.range' b n).flatMap (entriesAt fs inode)).find? fun e => decide (e.name = name)).map
        fun e => (e, diskInode fs e.inode), fs) := by
  induction n generalizing b with
  | zero => rfl
  | succ n ih =>
    have hmem : ∀ e ∈ entriesAt fs inode b, e ∈ dirEntries fs inode := fun e he =>
      List.mem_flatMap.mpr ⟨b, List.mem_range.mpr (by omega), he⟩
    have hfind : findEntry name _ fs = _ := findEntry_eq hv (entriesAt fs inode b) fun e he => by
      obtain ⟨⟨blk, o, rfl⟩, -⟩ := mem_dirEntries (hmem e he)
      exact ⟨length_entryAt_name blk o, hes _ (hmem _ he)⟩
    rw [findBlocks, dirBlockEntries_eq hv hd (by omega)]
    dsimp only
    rw [hfind, List.range'_succ, List.flatMap_cons, List.find?_append]
    cases (entriesAt fs inode b).find? fun e => decide (e.name = name) with
    | none => exact ih (b + 1) (by omega)
    | some e => rfl

/-- **`ext2_vfs_finddir`** on a working volume: the first record with the name, and its inode. -/
theorem ext2VfsFinddir_eq {dir : ℕ} {name : List UInt8} (hdir : (fs.pool dir).inode = inode)
    (hes : ∀ e ∈ dirEntries fs inode, fs.layout.HasInode e.inode) :
    ext2VfsFinddir fs dir name =
      match (dirEntries fs inode).find? fun e => decide (e.name = name) with
      | none => (none, fs)
      | some e => ext2CreateVfsNode fs e.inode (e.name.take 127) (diskInode fs e.inode) := by
  have hfind : findBlocks inode name (dirBlocks fs inode) 0 fs = _ :=
    findBlocks_eq hv hd (dirBlocks fs inode) 0 (Nat.zero_add _).le hes
  have hscan : (List.range' 0 (dirBlocks fs inode)).flatMap (entriesAt fs inode) =
      dirEntries fs inode := by
    rw [dirEntries, List.range_eq_range']
  rw [hscan] at hfind
  unfold ext2VfsFinddir
  dsimp only
  rw [hdir, hfind]
  cases (dirEntries fs inode).find? fun e => decide (e.name = name) with
  | none => rfl
  | some e => rfl

end Working

/-! ## Blocks whose records tile them -/

/-- The records of a block from `off` on are `es`: each has room for its name, their lengths are
multiples of 4, and the last ends where the block ends. -/
inductive Walk (blk : ℕ → UInt8) (bs : ℕ) : ℕ → List DirEntry → Prop
  | nil : Walk blk bs bs []
  | cons {off : ℕ} {es : List DirEntry} (hroom : recordSpace (entryAt blk off).nameLen ≤
      (entryAt blk off).recLen) (hmul : (entryAt blk off).recLen % 4 = 0)
      (hfit : off + (entryAt blk off).recLen ≤ bs)
      (hrest : Walk blk bs (off + (entryAt blk off).recLen) es) :
      Walk blk bs off (entryAt blk off :: es)

lemma recordSpace_ge (len : ℕ) : 8 + len ≤ recordSpace len := by
  unfold recordSpace
  omega

lemma Walk.offset_ge (h : Walk blk bs off es) (he : e ∈ es) : off ≤ e.offset := by
  induction h with
  | nil => cases he
  | @cons off es hroom hmul hfit hrest ih =>
    rcases List.mem_cons.mp he with rfl | he
    · exact le_rfl
    · exact (Nat.le_add_right _ _).trans (ih he)

lemma Walk.of_entry (he : entryAt blk off = e) (hroom : recordSpace e.nameLen ≤ e.recLen)
    (hmul : e.recLen % 4 = 0) (hfit : off + e.recLen ≤ bs)
    (hrest : Walk blk bs (off + e.recLen) es) : Walk blk bs off (e :: es) := by
  rw [← he] at hroom hmul hfit hrest ⊢
  exact .cons hroom hmul hfit hrest

lemma Walk.blockEntries_eq (h : Walk blk bs off es) {fuel : ℕ} (hf : bs - off ≤ fuel) :
    blockEntries blk bs fuel off = es := by
  induction h generalizing fuel with
  | nil =>
    cases fuel with
    | zero => rfl
    | succ fuel => rw [blockEntries, if_neg (by omega)]
  | @cons off es hroom hmul hfit hrest ih =>
    have := recordSpace_ge (entryAt blk off).nameLen
    obtain ⟨f, rfl⟩ : ∃ f, fuel = f + 1 := ⟨fuel - 1, by omega⟩
    rw [blockEntries, if_pos ⟨by omega, by omega⟩, ih (by omega)]

lemma entryAt_congr (h : ∀ x, off ≤ x → x < off + 8 + (entryAt blk off).nameLen →
    blk' x = blk x) : entryAt blk' off = entryAt blk off := by
  have h6 : blk' (off + 6) = blk (off + 6) := h _ (by omega) (by omega)
  have h7 : blk' (off + 7) = blk (off + 7) := h _ (by omega) (by omega)
  have hino : le blk' off 4 = le blk off 4 := le_congr fun x h1 h2 => h x h1 (by omega)
  have hrec : le blk' (off + 4) 2 = le blk (off + 4) 2 :=
    le_congr fun x h1 h2 => h x (by omega) (by omega)
  unfold entryAt at h ⊢
  rw [hino, hrec, h6, h7]
  congr 1
  refine List.map_congr_left fun x hx => h _ (by omega) ?_
  have := List.mem_range.mp hx
  dsimp only
  omega

lemma Walk.congr (h : Walk blk bs off es) (heq : ∀ x, off ≤ x → x < bs → blk' x = blk x) :
    Walk blk' bs off es := by
  induction h with
  | nil => exact .nil
  | @cons off es hroom hmul hfit hrest ih =>
    have hsp := recordSpace_ge (entryAt blk off).nameLen
    have he : entryAt blk' off = entryAt blk off :=
      entryAt_congr fun x h1 h2 => heq x h1 (by omega)
    rw [← he] at hroom hmul hfit ⊢
    refine .cons hroom hmul hfit ?_
    rw [he]
    exact ih fun x h1 h2 => heq x (by omega) h2

/-! ## Splitting a record -/

lemma insertEntry_of_not_mem {ino x : ℕ} {name : List UInt8}
    (h1 : x < e.offset + 4 ∨ e.offset + 6 ≤ x)
    (h2 : x < e.offset + recordSpace e.nameLen ∨
      e.offset + recordSpace e.nameLen + 8 + name.length ≤ x) :
    insertEntry blk e ino name x = blk x := by
  unfold insertEntry
  rw [copy_apply_of_not_mem (by omega), putLe_apply_of_not_mem (by omega),
    putLe_apply_of_not_mem (by omega), putLe_apply_of_not_mem (by omega),
    putLe_apply_of_not_mem (by omega), putLe_apply_of_not_mem (by omega)]

lemma toNat_eq_le (blk : ℕ → UInt8) (x : ℕ) : (blk x).toNat = le blk x 1 := by
  simp [le]

lemma entryAt_insertEntry_old {ino : ℕ} {name : List UInt8} (he : e = entryAt blk off) :
    entryAt (insertEntry blk e ino name) off = { e with recLen := recordSpace e.nameLen } := by
  have hoff : e.offset = off := by rw [he]; rfl
  have hsp := recordSpace_ge e.nameLen
  have hlt : recordSpace e.nameLen < 256 ^ 2 := by
    have : e.nameLen < 256 := by rw [he]; exact (blk (off + 6)).toNat_lt
    unfold recordSpace
    omega
  have hsame : ∀ x, off ≤ x → x < off + 8 + e.nameLen → x < off + 4 ∨ off + 6 ≤ x →
      insertEntry blk e ino name x = blk x := fun x h1 h2 h3 =>
    insertEntry_of_not_mem (by omega) (by omega)
  have hrec : le (insertEntry blk e ino name) (off + 4) 2 = recordSpace e.nameLen := by
    unfold insertEntry
    dsimp only
    rw [le_copy_of_disjoint (by omega), le_putLe_of_disjoint (by omega),
      le_putLe_of_disjoint (by omega), le_putLe_of_disjoint (by omega),
      le_putLe_of_disjoint (by omega), hoff, le_putLe_self, Nat.mod_eq_of_lt hlt]
  have hino : le (insertEntry blk e ino name) off 4 = le blk off 4 :=
    le_congr fun x h1 h2 => hsame x h1 (by omega) (by omega)
  have h6 := hsame (off + 6) (by omega) (by omega) (by omega)
  have h7 := hsame (off + 7) (by omega) (by omega) (by omega)
  have hname : (List.range (blk (off + 6)).toNat).map
      (fun x => insertEntry blk e ino name (off + 8 + x)) =
      (List.range (blk (off + 6)).toNat).map fun x => blk (off + 8 + x) := by
    refine List.map_congr_left fun x hx => hsame _ (by omega) ?_ (by omega)
    have hlen : e.nameLen = (blk (off + 6)).toNat := by rw [he]; rfl
    have := List.mem_range.mp hx
    omega
  unfold entryAt
  rw [hrec, hino, h6, h7, hname]
  rw [he]
  rfl

/-- The new record: its length field has room for the length of the name modulo 256. -/
lemma entryAt_insertEntry_new {ino : ℕ} {name : List UInt8} (hino : ino < 2 ^ 32)
    (hrec : e.recLen < 2 ^ 16) :
    entryAt (insertEntry blk e ino name) (e.offset + recordSpace e.nameLen) =
      ⟨e.offset + recordSpace e.nameLen, ino, e.recLen - recordSpace e.nameLen,
        name.length % 256, 1, name.take (name.length % 256)⟩ := by
  obtain ⟨a, ha⟩ : ∃ a, a = e.offset + recordSpace e.nameLen := ⟨_, rfl⟩
  have hsp := recordSpace_ge e.nameLen
  have h1 : le (insertEntry blk e ino name) a 4 = ino := by
    unfold insertEntry
    dsimp only
    rw [← ha, le_copy_of_disjoint (by omega), le_putLe_of_disjoint (by omega),
      le_putLe_of_disjoint (by omega), le_putLe_of_disjoint (by omega), le_putLe_self,
      Nat.mod_eq_of_lt (by omega)]
  have h2 : le (insertEntry blk e ino name) (a + 4) 2 = e.recLen - recordSpace e.nameLen := by
    unfold insertEntry
    dsimp only
    rw [← ha, le_copy_of_disjoint (by omega), le_putLe_of_disjoint (by omega),
      le_putLe_of_disjoint (by omega), le_putLe_self, Nat.mod_eq_of_lt (by omega)]
  have h3 : (insertEntry blk e ino name (a + 6)).toNat = name.length % 256 := by
    rw [toNat_eq_le]
    unfold insertEntry
    dsimp only
    rw [← ha, le_copy_of_disjoint (by omega), le_putLe_of_disjoint (by omega), le_putLe_self]
    rfl
  have h4 : (insertEntry blk e ino name (a + 7)).toNat = 1 := by
    rw [toNat_eq_le]
    unfold insertEntry
    dsimp only
    rw [← ha, le_copy_of_disjoint (by omega), le_putLe_self]
    rfl
  have hmod := Nat.mod_le name.length 256
  have h5 : (List.range (name.length % 256)).map
      (fun x => insertEntry blk e ino name (a + 8 + x)) = name.take (name.length % 256) := by
    refine List.ext_getElem (by simp [hmod]) fun x hx1 hx2 => ?_
    have hx : x < name.length % 256 := by simpa using hx1
    have hx' : x < name.length := by omega
    rw [List.getElem_map, List.getElem_range, List.getElem_take]
    unfold insertEntry
    rw [← ha, copy_apply_of_mem hx', Nat.zero_add, List.getD_eq_getElem _ _ hx']
  rw [← ha]
  unfold entryAt
  rw [h1, h2, h3, h4, h5]

lemma recordSpace_mod_le (len : ℕ) : recordSpace (len % 256) ≤ recordSpace len := by
  unfold recordSpace
  omega

/-- **A new record in a block**: the walk of the block has one record more. -/
theorem Walk.insert {ino : ℕ} {name : List UInt8} (h : Walk blk bs off (pre ++ e :: post))
    (hslack : recordSpace e.nameLen + recordSpace name.length ≤ e.recLen) (hino : ino < 2 ^ 32) :
    Walk (insertEntry blk e ino name) bs off
      (pre ++ { e with recLen := recordSpace e.nameLen } ::
        ⟨e.offset + recordSpace e.nameLen, ino, e.recLen - recordSpace e.nameLen,
          name.length % 256, 1, name.take (name.length % 256)⟩ :: post) := by
  have hsp := recordSpace_ge name.length
  have hshort := recordSpace_mod_le name.length
  induction pre generalizing off with
  | nil =>
    cases h with
    | cons hroom hmul hfit hrest =>
      have hold : entryAt (insertEntry blk (entryAt blk off) ino name) off = _ :=
        entryAt_insertEntry_old rfl
      have hrec16 : (entryAt blk off).recLen < 2 ^ 16 := le_lt blk (off + 4) 2
      have hnew : entryAt (insertEntry blk (entryAt blk off) ino name) _ = _ :=
        entryAt_insertEntry_new hino hrec16
      generalize he : entryAt blk off = e at *
      have hoff : e.offset = off := by rw [← he]; rfl
      have hmod : recordSpace e.nameLen % 4 = 0 := by unfold recordSpace; omega
      have hmod' : recordSpace name.length % 4 = 0 := by unfold recordSpace; omega
      rw [List.nil_append, ← hold]
      rw [hoff] at hnew ⊢
      refine .cons (by rw [hold]) (by rw [hold]; exact hmod) (by rw [hold]; dsimp only; omega) ?_
      rw [hold]
      dsimp only
      rw [← hnew]
      refine .cons (by rw [hnew]; dsimp only; omega) (by rw [hnew]; dsimp only; omega)
        (by rw [hnew]; dsimp only; omega) ?_
      rw [hnew]
      dsimp only
      rw [show off + recordSpace e.nameLen + (e.recLen - recordSpace e.nameLen) = off + e.recLen by
        omega]
      exact hrest.congr fun x h1 _ => insertEntry_of_not_mem (by omega) (by omega)
  | cons p pre ih =>
    cases h with
    | cons hroom hmul hfit hrest =>
      have hspp := recordSpace_ge (entryAt blk off).nameLen
      have hge : off + (entryAt blk off).recLen ≤ e.offset :=
        hrest.offset_ge (List.mem_append_right _ List.mem_cons_self)
      have hp : entryAt (insertEntry blk e ino name) off = entryAt blk off :=
        entryAt_congr fun x h1 h2 => insertEntry_of_not_mem (by omega) (by omega)
      rw [List.cons_append, ← hp]
      rw [← hp] at hroom hmul hfit
      refine .cons hroom hmul hfit ?_
      rw [hp]
      exact ih hrest

end Bangos.Fs
