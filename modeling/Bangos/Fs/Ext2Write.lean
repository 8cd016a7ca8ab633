import Bangos.Fs.Ext2Handles

/-!
# Writing to a consistent volume

On a consistent volume every block that a file refers to is in use, lies outside the metadata and
is referred to in one place only.  A write through a node changes the bytes of its file between
the offset and the offset plus what it returns; all other bytes of the file and all other files
stay as they are, and the volume stays consistent, also when the disk is full before the end
(`write_then_read`).
-/

namespace Bangos.Fs

open ByteMem Bangos.Drivers Bangos.Mm

variable {fs fs' : Ext2} {inode inode' : Inode} {n h off ino i j x : ℕ} {data : List UInt8}

/-! ## References -/

/-- Where a file refers to a block: the blocks with its contents, the two pointer blocks that the
inode names, and those that the second of them names. -/
inductive Place where
  | data (b : ℕ)
  | single
  | double
  | second (j : ℕ)
deriving DecidableEq

/-- The number of the block at a place, or 0. -/
def refAt (fs : Ext2) (inode : Inode) : Place → ℕ
  | .data b => fileBlock fs inode b
  | .single => iBlock inode 12
  | .double => iBlock inode 13
  | .second j => if j < fs.blockSize / 4 then ptr fs (iBlock inode 13) j else 0

/-- The file refers to block `n`. -/
def Refers (fs : Ext2) (inode : Inode) (n : ℕ) : Prop := n ≠ 0 ∧ ∃ p, refAt fs inode p = n

/-- The places of the direct blocks. -/
def Place.direct : Place → Bool
  | .data b => decide (b < 12)
  | _ => false

lemma refAt_direct (hi : i < 12) : refAt fs inode (.data i) = iBlock inode i := if_pos hi

lemma refAt_of_indirect (hbs : fs'.blockSize = fs.blockSize)
    (h12 : iBlock inode' 12 = iBlock inode 12) (h13 : iBlock inode' 13 = iBlock inode 13)
    (hsame : ∀ p : Place, p.direct = false → refAt fs inode p ≠ 0 →
      diskBlock fs' (refAt fs inode p) = diskBlock fs (refAt fs inode p))
    {p : Place} (hp : p.direct = false) : refAt fs' inode' p = refAt fs inode p := by
  have hsingle : ∀ k, ptr fs' (iBlock inode 12) k = ptr fs (iBlock inode 12) k :=
    ptr_congr (hsame .single rfl)
  have hdouble : ∀ k, ptr fs' (iBlock inode 13) k = ptr fs (iBlock inode 13) k :=
    ptr_congr (hsame .double rfl)
  have hsecond : ∀ k < fs.blockSize / 4, ∀ l, ptr fs' (ptr fs (iBlock inode 13) k) l =
      ptr fs (ptr fs (iBlock inode 13) k) l := fun k hk => ptr_congr fun h0 => by
    have hk' : refAt fs inode (.second k) = ptr fs (iBlock inode 13) k := if_pos hk
    rw [← hk'] at h0 ⊢
    exact hsame (.second k) rfl h0
  cases p with
  | single => exact h12
  | double => exact h13
  | second k =>
    dsimp only [refAt]
    rw [hbs, h13, hdouble]
  | data b =>
    have hb : ¬ b < 12 := by simpa [Place.direct] using hp
    dsimp only [refAt, fileBlock]
    rw [hbs, h12, h13, hsingle, hdouble, if_neg hb, if_neg hb]
    split_ifs with h1 h2
    · rfl
    · refine hsecond _ (Nat.div_lt_of_lt_mul (h2.trans_le ?_)) _
      exact Nat.mod_le _ _
    · rfl

lemma refAt_congr (hbs : fs'.blockSize = fs.blockSize)
    (hsame : ∀ n, Refers fs inode n → diskBlock fs' n = diskBlock fs n) (p : Place) :
    refAt fs' inode p = refAt fs inode p := by
  by_cases hp : p.direct = true
  · cases p with
    | data b =>
      have hb : b < 12 := by simpa [Place.direct] using hp
      rw [refAt_direct hb, refAt_direct hb]
    | _ => cases hp
  · exact refAt_of_indirect hbs rfl rfl (fun q _ h0 => hsame _ ⟨h0, q, rfl⟩) (by simpa using hp)

lemma fileByte_eq_of_refAt (hbs : fs'.blockSize = fs.blockSize)
    (href : refAt fs' inode' (.data (x / fs.blockSize)) = refAt fs inode (.data (x / fs.blockSize)))
    (hsame : refAt fs inode (.data (x / fs.blockSize)) ≠ 0 →
      diskBlock fs' (refAt fs inode (.data (x / fs.blockSize))) =
        diskBlock fs (refAt fs inode (.data (x / fs.blockSize)))) :
    fileByte fs' inode' x = fileByte fs inode x := by
  dsimp only [refAt] at href hsame
  unfold fileByte
  rw [hbs, href]
  split_ifs with h0
  · rfl
  · rw [hsame h0]

lemma refers_pointerBlocks {b : ℕ} (hn : n ∈ pointerBlocks fs inode b) (h0 : n ≠ 0) :
    Refers fs inode n := by
  unfold pointerBlocks at hn
  dsimp only at hn
  split_ifs at hn with h1 h2 h3
  · cases hn
  · exact ⟨h0, .single, (List.mem_singleton.mp hn).symm⟩
  · have hk : (b - 12 - fs.blockSize / 4) / (fs.blockSize / 4) < fs.blockSize / 4 :=
      Nat.div_lt_of_lt_mul (h3.trans_le (Nat.mod_le _ _))
    rcases List.mem_cons.mp hn with rfl | hn
    · exact ⟨h0, .double, rfl⟩
    · exact ⟨h0, .second _, (if_pos hk).trans (List.mem_singleton.mp hn).symm⟩
  · cases hn

/-! ## Consistent volumes -/

/-- Block `n` is marked used. -/
def MarkedUsed (fs : Ext2) (n : ℕ) : Prop :=
  ∃ g b, g < fs.groupCount ∧ b < fs.sb.sBlocksPerGroup ∧ entryBit fs .block g b = true ∧
    fs.sb.entryOf g b .block = n

/-- Block `n` can be part of a file: it lies on the disk, outside the metadata and what is
reserved, and is marked used. -/
structure InUse (reserved : Set ℕ) (fs : Ext2) (n : ℕ) : Prop where
  onDisk : fs.layout.OnDisk n
  plain : fs.layout.Plain n
  unreserved : n ∉ reserved
  marked : MarkedUsed fs n

/-- The blocks of a file are in use, and each is referred to in one place. -/
structure FileOk (reserved : Set ℕ) (fs : Ext2) (inode : Inode) : Prop where
  inUse : ∀ p, refAt fs inode p ≠ 0 → InUse reserved fs (refAt fs inode p)
  once : ∀ p q, refAt fs inode p ≠ 0 → refAt fs inode p = refAt fs inode q → p = q

/-- The inodes of the files as the holder of node `h` sees them: the copy in the node, and for the
other files what is on the disk. -/
def viewInode (fs : Ext2) (h i : ℕ) : Inode :=
  if i = (fs.pool h).ino then (fs.pool h).inode else diskInode fs i

/-- A consistent volume whose files have the inode numbers `files`, as the holder of node `h` sees
it.  The blocks in `reserved` belong to no file, such as the superblock, the group descriptors
and their copies. -/
structure Consistent (reserved files : Set ℕ) (fs : Ext2) (h : ℕ) : Prop where
  valid : fs.layout.Valid
  first : 0 < fs.sb.sFirstDataBlock
  free : ∀ n, FreeBlock fs n → fs.layout.OnDisk n ∧ fs.layout.Plain n ∧ n ∉ reserved
  node : (fs.pool h).ino ∈ files
  size : (fs.pool h).size = iSize (fs.pool h).inode
  hasInode : ∀ i ∈ files, fs.layout.HasInode i
  file : ∀ i ∈ files, FileOk reserved fs (viewInode fs h i)
  apart : ∀ i ∈ files, ∀ j ∈ files, i ≠ j → ∀ n, Refers fs (viewInode fs h i) n →
    ¬ Refers fs (viewInode fs h j) n

lemma markedUsed_iff (hv : fs.layout.Valid) : MarkedUsed fs n ↔
    (∃ g b, g < fs.groupCount ∧ b < fs.sb.sBlocksPerGroup ∧ fs.sb.entryOf g b .block = n) ∧
      ¬ FreeBlock fs n := by
  constructor
  · rintro ⟨g, b, hg, hb, hbit, heq⟩
    refine ⟨⟨g, b, hg, hb, heq⟩, ?_⟩
    rintro ⟨g', b', hg', hb', hbit', heq'⟩
    obtain ⟨rfl, rfl⟩ := entryOf_inj hv.allocates hg hg' hb hb' (heq.trans heq'.symm)
    rw [hbit] at hbit'
    cases hbit'
  · rintro ⟨⟨g, b, hg, hb, heq⟩, hfree⟩
    refine ⟨g, b, hg, hb, ?_, heq⟩
    by_contra hbit
    exact hfree ⟨g, b, hg, hb, by simpa using hbit, heq⟩

lemma MarkedUsed.mono (hv : fs.layout.Valid) (hl : fs'.layout = fs.layout)
    (hfree : ∀ n, FreeBlock fs' n → FreeBlock fs n) (h : MarkedUsed fs n ∨
      FreeBlock fs n ∧ ¬ FreeBlock fs' n) : MarkedUsed fs' n := by
  have hgc : fs'.groupCount = fs.groupCount := congrArg Layout.groupCount hl
  have hbpg : fs'.sb.sBlocksPerGroup = fs.sb.sBlocksPerGroup := congrArg Layout.blocksPerGroup hl
  have hfirst : fs'.sb.sFirstDataBlock = fs.sb.sFirstDataBlock := congrArg Layout.firstDataBlock hl
  have hentry : ∀ g b, fs'.sb.entryOf g b .block = fs.sb.entryOf g b .block := fun g b => by
    unfold SuperBlock.entryOf
    dsimp only
    rw [hbpg, hfirst]
  have hrange : (∃ g b, g < fs.groupCount ∧ b < fs.sb.sBlocksPerGroup ∧
      fs.sb.entryOf g b .block = n) ∧ ¬ FreeBlock fs' n := by
    rcases h with h | ⟨⟨g, b, hg, hb, -, heq⟩, hn⟩
    · exact ((markedUsed_iff hv).mp h).imp_right fun hn hf => hn (hfree n hf)
    · exact ⟨⟨g, b, hg, hb, heq⟩, hn⟩
  rw [markedUsed_iff (by rw [hl]; exact hv), hgc, hbpg]
  simpa only [hentry] using hrange

lemma InUse.not_free {reserved : Set ℕ} (h : InUse reserved fs n) (hv : fs.layout.Valid) :
    ¬ FreeBlock fs n := ((markedUsed_iff hv).mp h.marked).2

lemma FileOk.directOk {reserved : Set ℕ} (h : FileOk reserved fs inode) (hv : fs.layout.Valid) :
    DirectOk fs inode := by
  have hblock : ∀ i < 12, iBlock inode i ≠ 0 → InUse reserved fs (iBlock inode i) := by
    intro i hi h0
    have := h.inUse (.data i)
    rw [refAt_direct hi] at this
    exact this h0
  refine ⟨fun i hi h0 => (hblock i hi h0).onDisk, fun i hi h0 => (hblock i hi h0).plain,
    fun i hi h0 => (hblock i hi h0).not_free hv, fun i hi j hj h0 heq => ?_⟩
  have := h.once (.data i) (.data j)
  rw [refAt_direct hi, refAt_direct hj] at this
  exact Place.data.inj (this h0 heq)

lemma FileOk.blocksOnDisk {reserved : Set ℕ} (h : FileOk reserved fs inode) :
    BlocksOnDisk fs inode := by
  intro b _
  refine ⟨fun n hn h0 => ?_, fun h0 => (h.inUse (.data b) h0).onDisk⟩
  obtain ⟨-, p, rfl⟩ := refers_pointerBlocks hn h0
  exact (h.inUse p h0).onDisk

/-! ## What a write does -/

/-- What `ext2_vfs_write` does when it returns `w`: the inode in the node is `inode'`, whose
direct blocks are those of before or have been free; nothing else is written but the direct
blocks of the file, the bitmaps and the inode on the disk. -/
structure Overwrites (fs : Ext2) (h off : ℕ) (data : List UInt8) (w : ℕ) (fs' : Ext2)
    (inode' : Inode) : Prop where
  length : w ≤ data.length
  sound : Sound fs'
  layout : fs'.layout = fs.layout
  free : ∀ n, FreeBlock fs' n → FreeBlock fs n
  node : fs'.pool h = { fs.pool h with inode := inode', size := (fs'.pool h).size }
  nodes : ∀ d, d ≠ h → fs'.pool d = fs.pool d
  poolCount : fs'.poolCount = fs.poolCount
  inodeSize : iSize inode' = max (iSize (fs.pool h).inode) (off + w)
  nodeSize : (fs'.pool h).size =
    if iSize (fs.pool h).inode < off + w then off + w else (fs.pool h).size
  direct : DirectOk fs' inode'
  pointer : ∀ i < 12, iBlock inode' i = iBlock (fs.pool h).inode i ∨
    iBlock (fs.pool h).inode i = 0 ∧ FreeBlock fs (iBlock inode' i)
  indirect : ∀ i, 12 ≤ i → iBlock inode' i = iBlock (fs.pool h).inode i
  bytes : ∀ x < 12288, fileByte fs' inode' x =
    if off ≤ x ∧ x < off + w then data.getD (x - off) 0 else fileByte fs (fs.pool h).inode x
  frame : ∀ n, fs.layout.Plain n → ¬ FreeBlock fs n → (∀ i < 12, iBlock (fs.pool h).inode i ≠ n) →
    diskBlock fs' n = diskBlock fs n
  inodes : ∀ i, i ≠ (fs.pool h).ino → fs.layout.HasInode i → diskInode fs' i = diskInode fs i

lemma fileByte_of_plain (hl : fs'.layout = fs.layout) (hv : fs.layout.Valid)
    (hd : DirectOk fs inode) (hplain : ∀ n, fs.layout.Plain n → diskBlock fs' n = diskBlock fs n)
    (heq : ∀ i < 12, iBlock inode' i = iBlock inode i) (hx : x < 12288) :
    fileByte fs' inode' x = fileByte fs inode x := by
  have hbs : fs.blockSize = 1024 := hv.blockSize
  have hbs' : fs'.blockSize = 1024 := (congrArg Layout.blockSize hl).trans hbs
  rw [fileByte_congr hbs' heq hx, fileByte_direct hbs' hx, fileByte_direct hbs hx]
  split_ifs with h0
  · rfl
  · rw [hplain _ (hd.plain _ (by omega) h0)]

lemma Sound.of_layout (hs : Sound fs) (hl : fs'.layout = fs.layout)
    (hfree : ∀ n, FreeBlock fs' n → FreeBlock fs n) : Sound fs' where
  valid := by rw [hl]; exact hs.valid
  first := by
    rw [show fs'.sb.sFirstDataBlock = fs.sb.sFirstDataBlock from congrArg Layout.firstDataBlock hl]
    exact hs.first
  free := fun n hn => by rw [hl]; exact hs.free n (hfree n hn)

/-- What is left to do behind the loop: a volume with the blocks and the bitmaps that the loop
leaves, and `inode'` in the node, which has the blocks that the loop leaves. -/
lemma Written.overwrites {fs1 : Ext2} {inode1 : Inode} {w : ℕ}
    (hwr : Written fs (fs.pool h).inode off data w fs1 inode1) (hw : w ≤ data.length)
    (hv : fs.layout.Valid) (hl : fs'.layout = fs1.layout)
    (hbitmap : ∀ g < fs1.groupCount, diskBlock fs' (fs1.layout.metaBlock g 0) =
      diskBlock fs1 (fs1.layout.metaBlock g 0))
    (hplain : ∀ n, fs1.layout.Plain n → diskBlock fs' n = diskBlock fs1 n)
    (hinodes : ∀ i, i ≠ (fs.pool h).ino → fs1.layout.HasInode i →
      diskInode fs' i = diskInode fs1 i)
    (hblocks : ∀ i, iBlock inode' i = iBlock inode1 i)
    (hsize : iSize inode' = max (iSize (fs.pool h).inode) (off + w))
    (hnode : fs'.pool h = { fs.pool h with
      inode := inode'
      size := if iSize (fs.pool h).inode < off + w then off + w else (fs.pool h).size })
    (hnodes : ∀ d, d ≠ h → fs'.pool d = fs1.pool d) (hcount : fs'.poolCount = fs1.poolCount) :
    Overwrites fs h off data w fs' inode' := by
  have hfree : ∀ n, FreeBlock fs' n → FreeBlock fs1 n := fun n =>
    (freeBlock_congr hl hbitmap).mp
  exact {
    length := hw
    sound := hwr.sound.of_layout hl hfree
    layout := hl.trans hwr.layout
    free := fun n hn => hwr.free n (hfree n hn)
    node := by rw [hnode]
    nodes := fun d hd => (hnodes d hd).trans (congrFun hwr.pool d)
    poolCount := hcount.trans hwr.poolCount
    inodeSize := hsize
    nodeSize := by rw [hnode]
    direct := (hwr.direct.congr fun i _ => hblocks i).of_layout hl hfree
    pointer := fun i hi => by rw [hblocks]; exact hwr.pointer i hi
    indirect := fun i h1 => by
      rw [hblocks]
      exact le_congr fun x h3 h4 => hwr.rest x (by omega)
    bytes := fun x hx => by
      rw [fileByte_of_plain hl hwr.sound.valid hwr.direct hplain (fun i _ => hblocks i) hx]
      exact hwr.bytes x hx
    frame := fun n hn hused hptr => by
      rw [hplain n (by rwa [hwr.layout])]
      exact hwr.frame n hn hused hptr
    inodes := fun i hne hi => by
      rw [hinodes i hne (by rwa [hwr.layout])]
      exact hwr.diskInode_eq hv hi }

/-- **The effect of a write.** -/
lemma ext2VfsWrite_overwrites (hs : Sound fs) (hd : DirectOk fs (fs.pool h).inode)
    (hino : fs.layout.HasInode (fs.pool h).ino) (hfit : off + data.length < 2 ^ 32) :
    ∃ inode', Overwrites fs h off data (ext2VfsWrite fs h off data).1
      (ext2VfsWrite fs h off data).2 inode' := by
  obtain ⟨fs1, inode1, w, -, hw, hwr, -, heq⟩ := ext2VfsWrite_cases hs hd hino hfit
  have hsize : iSize inode1 = iSize (fs.pool h).inode :=
    le_congr fun x h1 h2 => hwr.rest x (Or.inl (by omega))
  have hpool : ∀ node : Ext2Node, Function.update fs1.pool h node h = node := fun node =>
    Function.update_self ..
  rw [heq]
  dsimp only
  split_ifs with hgrow
  · -- the inode goes to the disk with its new size
    have hi : fs1.layout.HasInode (fs.pool h).ino := by rwa [hwr.layout]
    refine ⟨setSize inode1 (off + w), hwr.overwrites hw hs.valid rfl
      (fun g hg => diskBlock_putInode_of_bitmap ?_ hi hg (by omega) _)
      (fun n hn => diskBlock_putInode_of_plain ?_ hi hn _)
      (fun i hne hi' => diskInode_putInode_of_ne ?_ hi hi' hne _) (fun i => iBlock_setSize) ?_ ?_
      (fun d hd => Function.update_of_ne hd _ _) rfl⟩
    · exact hwr.sound.valid
    · exact hwr.sound.valid.tables
    · exact hwr.sound.valid.tables
    · rw [iSize_setSize (by omega), Nat.max_eq_right hgrow.le]
    · rw [if_pos hgrow]
      exact hpool _
  · refine ⟨inode1, hwr.overwrites hw hs.valid rfl (fun _ _ => rfl) (fun _ _ => rfl)
      (fun _ _ _ => rfl) (fun _ => rfl) ?_ ?_ (fun d hd => Function.update_of_ne hd _ _) rfl⟩
    · rw [hsize, Nat.max_eq_left (by omega)]
    · rw [if_neg hgrow]
      exact hpool _

/-! ## The volume after a write -/

lemma viewInode_self (fs : Ext2) (h : ℕ) : viewInode fs h (fs.pool h).ino = (fs.pool h).inode :=
  if_pos rfl

lemma viewInode_of_ne (hi : i ≠ (fs.pool h).ino) : viewInode fs h i = diskInode fs i := if_neg hi

section Consistent

variable {reserved files : Set ℕ} {w : ℕ} (hc : Consistent reserved files fs h)
  (ho : Overwrites fs h off data w fs' inode')
include hc

lemma Consistent.own : FileOk reserved fs (fs.pool h).inode := by
  rw [← viewInode_self fs h]
  exact hc.file _ hc.node

lemma Consistent.own_apart (hi : i ∈ files) (hne : i ≠ (fs.pool h).ino)
    (hown : Refers fs (fs.pool h).inode n) (hother : Refers fs (diskInode fs i) n) : False := by
  refine hc.apart _ hc.node i hi hne.symm n ?_ ?_
  · rwa [viewInode_self]
  · rwa [viewInode_of_ne hne]

include ho

omit hc in
lemma Overwrites.blockSize : fs'.blockSize = fs.blockSize := congrArg Layout.blockSize ho.layout

lemma Overwrites.inUse (hn : InUse reserved fs n ∨ FreeBlock fs n ∧ ¬ FreeBlock fs' n) :
    InUse reserved fs' n := by
  have hmarked : MarkedUsed fs' n := MarkedUsed.mono hc.valid ho.layout ho.free
    (hn.imp_left InUse.marked)
  rcases hn with hn | ⟨hfree, -⟩
  · exact ⟨by rw [ho.layout]; exact hn.onDisk, by rw [ho.layout]; exact hn.plain, hn.unreserved,
      hmarked⟩
  · obtain ⟨hon, hplain, hres⟩ := hc.free n hfree
    exact ⟨by rwa [ho.layout], by rwa [ho.layout], hres, hmarked⟩

lemma Overwrites.other_block (hi : i ∈ files) (hne : i ≠ (fs.pool h).ino)
    (hn : Refers fs (diskInode fs i) n) : diskBlock fs' n = diskBlock fs n := by
  have huse : InUse reserved fs n := by
    have hfile := hc.file i hi
    rw [viewInode_of_ne hne] at hfile
    obtain ⟨h0, p, rfl⟩ := hn
    exact hfile.inUse p h0
  refine ho.frame n huse.plain (huse.not_free hc.valid) fun k hk heq => ?_
  exact hc.own_apart hi hne ⟨hn.1, .data k, (refAt_direct hk).trans heq⟩ hn

lemma Overwrites.own_block {p : Place} (hp : p.direct = false)
    (h0 : refAt fs (fs.pool h).inode p ≠ 0) :
    diskBlock fs' (refAt fs (fs.pool h).inode p) = diskBlock fs (refAt fs (fs.pool h).inode p) := by
  have huse := hc.own.inUse p h0
  refine ho.frame _ huse.plain (huse.not_free hc.valid) fun k hk heq => ?_
  have hdirect : refAt fs (fs.pool h).inode (.data k) = _ := refAt_direct hk
  rw [← hdirect] at heq
  obtain rfl := hc.own.once (.data k) p (heq ▸ h0) heq
  simp [Place.direct, hk] at hp

lemma Overwrites.own_refAt {p : Place} (hp : p.direct = false) :
    refAt fs' inode' p = refAt fs (fs.pool h).inode p :=
  refAt_of_indirect (ho.blockSize) (ho.indirect 12 le_rfl) (ho.indirect 13 (by omega))
    (fun _ hq h0 => ho.own_block hc hq h0) hp

lemma Overwrites.own_cases (p : Place) :
    refAt fs' inode' p = refAt fs (fs.pool h).inode p ∨
      FreeBlock fs (refAt fs' inode' p) ∧ ∃ k < 12, p = .data k := by
  cases hp : p.direct with
  | false => exact Or.inl (ho.own_refAt hc hp)
  | true =>
    cases p with
    | data k =>
      have hk : k < 12 := by simpa [Place.direct] using hp
      rw [refAt_direct hk, refAt_direct hk]
      exact (ho.pointer k hk).imp_right fun hfree => ⟨hfree.2, k, hk, rfl⟩
    | _ => cases hp

lemma Overwrites.own_ok : FileOk reserved fs' inode' where
  inUse p h0 := by
    refine ho.inUse hc ?_
    rcases ho.own_cases hc p with heq | ⟨hfree, k, hk, rfl⟩
    · rw [heq] at h0 ⊢
      exact Or.inl (hc.own.inUse p h0)
    · rw [refAt_direct hk] at h0 hfree ⊢
      exact Or.inr ⟨hfree, ho.direct.used k hk h0⟩
  once p q h0 heq := by
    have hused : ∀ r, refAt fs (fs.pool h).inode r ≠ 0 →
        ¬ FreeBlock fs (refAt fs (fs.pool h).inode r) := fun r hr =>
      (hc.own.inUse r hr).not_free hc.valid
    rcases ho.own_cases hc p with hp | ⟨hp, k, hk, rfl⟩ <;>
      rcases ho.own_cases hc q with hq | ⟨hq, l, hl, rfl⟩
    · rw [hp] at h0 heq
      exact hc.own.once p q h0 (heq.trans hq)
    · -- a block that was free is no block of before
      rw [hp] at h0 heq
      exact absurd (heq ▸ hq) (hused p h0)
    · rw [heq, hq] at hp h0
      exact absurd hp (hused q h0)
    · rw [refAt_direct hk] at h0 heq
      rw [refAt_direct hl] at heq
      rw [ho.direct.inj k hk l hl h0 heq]

lemma Overwrites.own_bytes (hfit : off + data.length ≤ 12288) (x : ℕ) : fileByte fs' inode' x =
    if off ≤ x ∧ x < off + w then data.getD (x - off) 0 else fileByte fs (fs.pool h).inode x := by
  by_cases hx : x < 12288
  · exact ho.bytes x hx
  · have hlen := ho.length
    have hbs : fs.blockSize = 1024 := hc.valid.blockSize
    have hind : (Place.data (x / fs.blockSize)).direct = false := by
      simp only [Place.direct, hbs, decide_eq_false_iff_not]
      omega
    rw [if_neg (by omega)]
    exact fileByte_eq_of_refAt (ho.blockSize) (ho.own_refAt hc hind) (ho.own_block hc hind)

omit hc in
lemma Overwrites.contents_eq (hfit : off + w ≤ 12288) : contents fs' inode' off w = data.take w := by
  have hlen := ho.length
  refine List.ext_getElem? fun k => ?_
  unfold contents
  by_cases hk : k < w
  · have hbyte := ho.bytes (off + k) (by omega)
    rw [if_pos (by omega), Nat.add_sub_cancel_left, List.getD_eq_getElem?_getD,
      List.getElem?_eq_getElem (by omega), Option.getD_some] at hbyte
    rw [List.getElem?_map, List.getElem?_range hk, List.getElem?_take_of_lt hk,
      List.getElem?_eq_getElem (by omega), Option.map_some, hbyte]
  · rw [List.getElem?_eq_none (by simp; omega), List.getElem?_eq_none (by simp; omega)]

lemma Overwrites.other_file (hi : i ∈ files) (hne : i ≠ (fs.pool h).ino) :
    diskInode fs' i = diskInode fs i ∧
      (∀ p, refAt fs' (diskInode fs i) p = refAt fs (diskInode fs i) p) ∧
      ∀ x, fileByte fs' (diskInode fs i) x = fileByte fs (diskInode fs i) x := by
  have hblocks : ∀ n, Refers fs (diskInode fs i) n → diskBlock fs' n = diskBlock fs n :=
    fun n hn => ho.other_block hc hi hne hn
  have hrefs := refAt_congr (ho.blockSize) hblocks
  refine ⟨ho.inodes i hne (hc.hasInode i hi), hrefs, fun x => ?_⟩
  exact fileByte_eq_of_refAt (ho.blockSize) (hrefs _) fun h0 => hblocks _ ⟨h0, _, rfl⟩

/-- **The volume stays consistent.** -/
lemma Overwrites.consistent : Consistent reserved files fs' h := by
  have hino : (fs'.pool h).ino = (fs.pool h).ino := by rw [ho.node]
  have hinode : (fs'.pool h).inode = inode' := by rw [ho.node]
  have hother : ∀ i ∈ files, i ≠ (fs.pool h).ino → viewInode fs' h i = diskInode fs i := by
    intro i hi hne
    rw [viewInode_of_ne (by rwa [hino]), (ho.other_file hc hi hne).1]
  have hself : viewInode fs' h (fs.pool h).ino = inode' := by
    rw [← hino, viewInode_self, hinode]
  -- a block of the file itself is no block of another
  have hapart : ∀ i ∈ files, i ≠ (fs.pool h).ino → ∀ n, Refers fs' inode' n →
      ¬ Refers fs' (diskInode fs i) n := by
    rintro i hi hne n ⟨h0, p, hp⟩ ⟨-, q, hq⟩
    rw [(ho.other_file hc hi hne).2.1] at hq
    have hother : Refers fs (diskInode fs i) n := ⟨h0, q, hq⟩
    rcases ho.own_cases hc p with heq | ⟨hfree, -⟩
    · exact hc.own_apart hi hne ⟨h0, p, heq.symm.trans hp⟩ hother
    · have hfile := hc.file i hi
      rw [viewInode_of_ne hne] at hfile
      rw [hp, ← hq] at hfree
      exact (hfile.inUse q (hq ▸ h0)).not_free hc.valid hfree
  refine ⟨ho.sound.valid, ho.sound.first, fun n hn => ?_, by rw [hino]; exact hc.node, ?_,
    fun i hi => by rw [ho.layout]; exact hc.hasInode i hi, fun i hi => ?_,
    fun i hi j hj hij n => ?_⟩
  · rw [ho.layout]
    exact hc.free n (ho.free n hn)
  · rw [ho.nodeSize, hinode, ho.inodeSize, hc.size]
    split_ifs <;> omega
  · by_cases hne : i = (fs.pool h).ino
    · rw [hne, hself]
      exact ho.own_ok hc
    · obtain ⟨-, hrefs, -⟩ := ho.other_file hc hi hne
      have hfile := hc.file i hi
      rw [viewInode_of_ne hne] at hfile
      rw [hother i hi hne]
      refine ⟨fun p h0 => ?_, fun p q => ?_⟩
      · rw [hrefs] at h0 ⊢
        exact ho.inUse hc (Or.inl (hfile.inUse p h0))
      · rw [hrefs, hrefs]
        exact hfile.once p q
  · by_cases hi' : i = (fs.pool h).ino
    · have hj' : j ≠ (fs.pool h).ino := fun hj' => hij (hi'.trans hj'.symm)
      rw [hi', hself, hother j hj hj']
      exact hapart j hj hj' n
    · rw [hother i hi hi']
      by_cases hj' : j = (fs.pool h).ino
      · rw [hj', hself]
        exact fun h1 h2 => hapart i hi hi' n h2 h1
      · rw [hother j hj hj']
        rintro ⟨h0, p, hp⟩ ⟨-, q, hq⟩
        rw [(ho.other_file hc hi hi').2.1] at hp
        rw [(ho.other_file hc hj hj').2.1] at hq
        refine hc.apart i hi j hj hij n ⟨h0, p, ?_⟩ ⟨h0, q, ?_⟩
        · rw [viewInode_of_ne hi']
          exact hp
        · rw [viewInode_of_ne hj']
          exact hq

end Consistent

/-- **Write, then read**: a write to a consistent volume that ends within the direct blocks and
returns `n` makes the size of the node the larger of the old one and `off + n`; the first `n`
bytes of the data are in the file at `off`, and are read back from there; all other bytes of the
file and all other files stay as they are; and the volume stays consistent. -/
theorem write_then_read {reserved files : Set ℕ} (hc : Consistent reserved files fs h)
    (hfit : off + data.length ≤ 12 * 1024) :
    (ext2VfsWrite fs h off data).1 ≤ data.length ∧
      ((ext2VfsWrite fs h off data).2.pool h).size =
        max (fs.pool h).size (off + (ext2VfsWrite fs h off data).1) ∧
      (∀ p, off ≤ p → p < off + (ext2VfsWrite fs h off data).1 →
        data[p - off]? = some (fileByte (ext2VfsWrite fs h off data).2
          ((ext2VfsWrite fs h off data).2.pool h).inode p)) ∧
      (∀ p, ¬ (off ≤ p ∧ p < off + (ext2VfsWrite fs h off data).1) →
        fileByte (ext2VfsWrite fs h off data).2 ((ext2VfsWrite fs h off data).2.pool h).inode p =
          fileByte fs (fs.pool h).inode p) ∧
      (∀ i ∈ files, i ≠ (fs.pool h).ino →
        diskInode (ext2VfsWrite fs h off data).2 i = diskInode fs i ∧
          ∀ p, fileByte (ext2VfsWrite fs h off data).2 (diskInode (ext2VfsWrite fs h off data).2 i) p =
            fileByte fs (diskInode fs i) p) ∧
      Consistent reserved files (ext2VfsWrite fs h off data).2 h ∧
      (ext2VfsRead (ext2VfsWrite fs h off data).2 h off (ext2VfsWrite fs h off data).1).1 =
        data.take (ext2VfsWrite fs h off data).1 := by
  have hs : Sound fs := ⟨hc.valid, hc.first, fun n hn => ⟨(hc.free n hn).1, (hc.free n hn).2.1⟩⟩
  obtain ⟨inode', ho⟩ := ext2VfsWrite_overwrites hs (hc.own.directOk hc.valid)
    (hc.hasInode _ hc.node) (show off + data.length < 2 ^ 32 by omega)
  generalize (ext2VfsWrite fs h off data).1 = n at ho
  generalize (ext2VfsWrite fs h off data).2 = fs' at ho
  have hc' := ho.consistent hc
  have hinode : (fs'.pool h).inode = inode' := by rw [ho.node]
  have hlen := ho.length
  have hnew : ∀ p, off ≤ p → p < off + n → data[p - off]? = some (fileByte fs' inode' p) := by
    intro p h1 h2
    rw [ho.own_bytes hc hfit, if_pos ⟨h1, h2⟩, List.getD_eq_getElem?_getD,
      List.getElem?_eq_getElem (by omega), Option.getD_some]
  have hsize : (fs'.pool h).size = max (fs.pool h).size (off + n) := by
    rw [hc'.size, hinode, ho.inodeSize, hc.size]
  refine ⟨hlen, hsize, ?_, ?_, fun i hi hne => ?_, hc', ?_⟩
  · rw [hinode]
    exact hnew
  · intro p hp
    rw [hinode, ho.own_bytes hc hfit, if_neg hp]
  · obtain ⟨hi', -, hbytes⟩ := ho.other_file hc hi hne
    rw [hi']
    exact ⟨rfl, hbytes⟩
  · -- what is read back
    rw [ext2VfsRead_eq hc'.valid.serves hc'.valid.blockSize hc'.own.blocksOnDisk (by omega), hinode,
      ho.inodeSize]
    dsimp only
    rw [Nat.min_eq_left (by omega)]
    exact ho.contents_eq (by omega)

/-- A small volume with two empty files, of which node 0 is the first. -/
def emptyFiles : Ext2 :=
  smallVolume (putLe (putLe zeros 3072 1 0x3F) 4096 1 0x0F) (fun _ => ⟨3, zeros, [], 0, 0o644, false⟩) 1

lemma refAt_of_empty (h : ∀ i < 14, iBlock inode i = 0) (p : Place) : refAt fs inode p = 0 := by
  cases p with
  | single => exact h 12 (by omega)
  | double => exact h 13 (by omega)
  | second k => simp [refAt, h, ptr]
  | data b =>
    dsimp only [refAt, fileBlock]
    split_ifs with hb
    · exact h b (by omega)
    all_goals simp [h, ptr]

lemma emptyFiles_consistent : Consistent {0, 1, 2} {3, 4} emptyFiles 0 := by
  have hempty : ∀ i ∈ ({3, 4} : Set ℕ), ∀ k < 14, iBlock (viewInode emptyFiles 0 i) k = 0 := by
    rintro i (rfl | rfl)
    · decide +kernel
    · decide +kernel
  have hzero : ∀ i ∈ ({3, 4} : Set ℕ), ∀ p, refAt emptyFiles (viewInode emptyFiles 0 i) p = 0 :=
    fun i hi => refAt_of_empty (hempty i hi)
  refine ⟨smallVolume_valid _ _ _, Nat.zero_lt_one, fun n hn => ?_, Or.inl rfl, by decide +kernel,
    ?_, fun i hi => ⟨fun p h0 => absurd (hzero i hi p) h0, fun p q h0 => absurd (hzero i hi p) h0⟩,
    fun i hi j _ _ n hn => ?_⟩
  · obtain ⟨h1, h2⟩ := freeBlock_smallVolume (by decide +kernel) hn
    refine ⟨show n * 2 + 2 ≤ 64 by omega, plain_smallVolume (by omega), ?_⟩
    rintro (rfl | rfl | rfl) <;> omega
  · rintro i (rfl | rfl)
    · decide +kernel
    · decide +kernel
  · obtain ⟨h0, p, hp⟩ := hn
    exact absurd (hp.symm.trans (hzero i hi p)) h0

/-- A byte behind a hole. -/
theorem write_then_read_emptyFiles :
    (ext2VfsRead (ext2VfsWrite emptyFiles 0 1024 [65]).2 0 1024
      (ext2VfsWrite emptyFiles 0 1024 [65]).1).1 = [65] ∧
      fileByte (ext2VfsWrite emptyFiles 0 1024 [65]).2
        ((ext2VfsWrite emptyFiles 0 1024 [65]).2.pool 0).inode 0 = 0 := by
  have hret : (ext2VfsWrite emptyFiles 0 1024 [65]).1 = 1 := by decide +kernel
  obtain ⟨-, -, -, hrest, -, -, hread⟩ :=
    @write_then_read _ _ 1024 [65] _ _ emptyFiles_consistent (by decide)
  refine ⟨by rw [hread, hret]; rfl, ?_⟩
  rw [hrest 0 (by omega)]
  decide +kernel

end Bangos.Fs
