import Bangos.Fs.Ext2Write

/-!
# Writes that reach the disk

A write through a node changes the copy of the inode in the node when it fills a hole, but the
inode on the disk only when the file grows.  As long as no write fills a hole without making the
file grow, the inode on the disk is the one in the node, and a new lookup reads what has been
written (`writes_persist`); a write into a hole in the middle of the file is lost
(`write_into_hole_lost`).
-/

namespace Bangos.Fs

open ByteMem Bangos.Drivers Bangos.Mm Runs

variable {fs fs' fs1 fs2 : Ext2} {inode inode' inode1 inode2 : Inode} {dir n h off ino i w c : ℕ}
  {name data : List UInt8}

/-! ## The blocks of a write -/

/-- Block `i` of a file has bytes between `off` and `off + len`. -/
def Touches (off len i : ℕ) : Prop := 0 < len ∧ off < (i + 1) * 1024 ∧ i * 1024 < off + len

instance decidableTouches (off len i : ℕ) : Decidable (Touches off len i) :=
  inferInstanceAs (Decidable (0 < len ∧ off < (i + 1) * 1024 ∧ i * 1024 < off + len))

/-- What `w` bytes written at `off` do to the block map: they lie in direct blocks, which exist, the
others are as before, and the inode is another only if a hole has been filled. -/
structure Reached (inode : Inode) (off w : ℕ) (inode1 : Inode) : Prop where
  inside : 0 < w → off + w ≤ 12288
  mapped : ∀ i < 12, Touches off w i → iBlock inode1 i ≠ 0
  others : ∀ i, ¬ Touches off w i → iBlock inode1 i = iBlock inode i
  same : (∀ i < 12, Touches off w i → iBlock inode i ≠ 0) → inode1 = inode

lemma Reached.zero (inode : Inode) (off : ℕ) : Reached inode off 0 inode where
  inside := fun h => absurd h (by omega)
  mapped := fun _ _ ht => absurd ht.1 (by omega)
  others := fun _ _ => rfl
  same := fun _ => rfl

lemma Reached.turn (hr : Reached inode off w inode1) (hi : (off + w) / 1024 < 12)
    (hp : Prepared fs1 inode1 ((off + w) / 1024) fs2 inode2) (hc0 : 0 < c)
    (hc : (off + w) % 1024 + c ≤ 1024) : Reached inode off (w + c) inode2 := by
  have hnow : Touches off (w + c) ((off + w) / 1024) := ⟨by omega, by omega, by omega⟩
  have hbefore : ∀ i, i ≠ (off + w) / 1024 → (Touches off (w + c) i ↔ Touches off w i) := by
    intro i hne
    unfold Touches
    omega
  refine ⟨fun _ => by omega, fun i hi12 ht => ?_, fun i ht => ?_, fun hall => ?_⟩
  · by_cases hne : i = (off + w) / 1024
    · rw [hne]
      exact hp.block
    · rw [hp.others i hne]
      exact hr.mapped i hi12 ((hbefore i hne).mp ht)
  · have hne : i ≠ (off + w) / 1024 := by
      rintro rfl
      exact ht hnow
    rw [hp.others i hne]
    exact hr.others i fun h => ht ((hbefore i hne).mpr h)
  · have hsame : inode1 = inode := hr.same fun i hi12 ht => by
      refine hall i hi12 ?_
      obtain ⟨h1, h2, h3⟩ := ht
      exact ⟨by omega, h2, by omega⟩
    rw [← hsame]
    refine hp.same ?_
    rw [hsame]
    exact hall _ hi hnow

lemma vfsWriteLoop_reached (hfit : off + data.length < 2 ^ 42) (fuel : ℕ)
    (h : Written fs inode off data w fs1 inode1) (hr : Reached inode off w inode1)
    (hw : w ≤ data.length) :
    Reached inode off (vfsWriteLoop off data fuel fs1 inode1 w).2.2
      (vfsWriteLoop off data fuel fs1 inode1 w).2.1 := by
  induction fuel generalizing w fs1 inode1 with
  | zero => exact hr
  | succ fuel ih =>
    rw [vfsWriteLoop]
    by_cases hlt : w < data.length
    · have hbs : fs1.blockSize = 1024 := h.sound.valid.blockSize
      have hpos : u64 (off + w) = off + w := Nat.mod_eq_of_lt (by omega)
      have hblk : u32 ((off + w) / 1024) = (off + w) / 1024 := Nat.mod_eq_of_lt (by omega)
      have hin : u32 ((off + w) % 1024) = (off + w) % 1024 := Nat.mod_eq_of_lt (by omega)
      rw [if_pos hlt]
      dsimp only
      rw [hpos, hbs, hblk, hin]
      by_cases hi : (off + w) / 1024 < 12
      · rw [if_pos hi]
        rcases writePrepare_cases h.sound h.direct hi with
          ⟨-, -, hprep⟩ | ⟨fs2, inode2, r, hprep, hp⟩
        · rw [hprep]
          exact hr
        · rw [hprep]
          dsimp only
          have hturn := h.turn hi hp (c := min (1024 - (off + w) % 1024) (data.length - w))
            (by omega) rfl (by omega)
          rw [ext2WriteBlock_eq (by exact hp.sound.valid.serves)
            (by exact hp.direct.onDisk _ hi hp.block)]
          exact ih hturn (hr.turn hi hp (by omega) (by omega)) (by omega)
      · rw [if_neg hi]
        exact hr
    · rw [if_neg hlt]
      exact hr

/-- The holes among the direct blocks that a write of `len` bytes at `off` meets. -/
def touchedHoles (inode : Inode) (off len : ℕ) : Finset ℕ :=
  (holes inode).filter fun i => Touches off len i

/-- With a block for every hole that it meets a write goes on to the end of its data or of the
direct blocks. -/
lemma Reached.complete (hr : Reached inode off w inode1) (hw : w ≤ data.length)
    (hwr : Written fs inode off data w fs1 inode1)
    (hstop : w < data.length → 12 ≤ (off + w) / 1024 ∨
      iBlock inode1 ((off + w) / 1024) = 0 ∧ available fs1 .block = 0)
    (hspace : (touchedHoles inode off data.length).card ≤ available fs .block) :
    w = data.length ∨ 12288 ≤ off + w := by
  by_contra hcon
  rcases hstop (by omega) with h12 | ⟨h0, hav⟩
  · omega
  · -- the holes filled are some of those met, and not the one where the loop stopped
    have hs12 : (off + w) / 1024 < 12 := by omega
    have hold : ∀ i < 12, iBlock inode1 i = 0 → iBlock inode i = 0 := by
      intro i hi hz
      rcases hwr.pointer i hi with heq | ⟨hzero, -⟩
      · rw [← heq, hz]
      · exact hzero
    have hsub : holes inode1 ⊆ holes inode := by
      intro i hi
      obtain ⟨h12, hz⟩ := Finset.mem_filter.mp hi
      exact Finset.mem_filter.mpr ⟨h12, hold i (Finset.mem_range.mp h12) hz⟩
    have hstopMem : (off + w) / 1024 ∈ touchedHoles inode off data.length := by
      refine Finset.mem_filter.mpr ⟨Finset.mem_filter.mpr ⟨Finset.mem_range.mpr hs12,
        hold _ hs12 h0⟩, by omega, by omega, by omega⟩
    have hfilled : holes inode \ holes inode1 ⊆
        (touchedHoles inode off data.length).erase ((off + w) / 1024) := by
      intro i hi
      obtain ⟨hin, hout⟩ := Finset.mem_sdiff.mp hi
      obtain ⟨h12, hz⟩ := Finset.mem_filter.mp hin
      have hne : iBlock inode1 i ≠ 0 := fun hz' => hout (Finset.mem_filter.mpr ⟨h12, hz'⟩)
      refine Finset.mem_erase.mpr ⟨?_, Finset.mem_filter.mpr ⟨hin, ?_⟩⟩
      · rintro rfl
        exact hne h0
      · by_contra ht
        have hnot : ¬ Touches off w i := by
          rintro ⟨h1, h2, h3⟩
          exact ht ⟨by omega, h2, by omega⟩
        exact hne ((hr.others i hnot).trans hz)
    have hcard := Finset.card_le_card hfilled
    rw [Finset.card_sdiff_of_subset hsub, Finset.card_erase_of_mem hstopMem] at hcard
    have hpos := Finset.card_pos.mpr ⟨_, hstopMem⟩
    have hcount := hwr.count
    have hle := Finset.card_le_card hsub
    omega

/-! ## The inode on the disk -/

/-- The inode on the disk is the one in the node. -/
def Persisted (fs : Ext2) (h : ℕ) : Prop := diskInode fs (fs.pool h).ino = (fs.pool h).inode

/-- The condition on a write: it meets no hole, or starts at or behind the end of the file, or
ends behind it and has a block for every hole that it meets. -/
def PersistOk (h : ℕ) (fs : Ext2) (e : ℕ × List UInt8) : Prop :=
  e.1 + e.2.length < 2 ^ 32 ∧
    ((∀ i < 12, Touches e.1 e.2.length i → iBlock (fs.pool h).inode i ≠ 0) ∨
      iSize (fs.pool h).inode ≤ e.1 ∨
      iSize (fs.pool h).inode < min (e.1 + e.2.length) 12288 ∧
        (touchedHoles (fs.pool h).inode e.1 e.2.length).card ≤ available fs .block)

lemma diskInode_putInode_eq (hv : fs.layout.Valid) (hi : fs.layout.HasInode ino)
    (hz : ∀ x, inodeBytes ≤ x → inode x = 0) : diskInode (fs.putInode ino inode) ino = inode := by
  funext x
  by_cases hx : x < inodeBytes
  · exact diskInode_putInode_self hv.tables hi inode hx
  · rw [hz x (by omega)]
    exact copy_apply_of_not_mem (by omega)

lemma ext2VfsWrite_inside (hs : Sound fs) (hd : DirectOk fs (fs.pool h).inode)
    (hino : fs.layout.HasInode (fs.pool h).ino) (hfit : off + data.length < 2 ^ 32)
    (hpos : 0 < (ext2VfsWrite fs h off data).1) : off + (ext2VfsWrite fs h off data).1 ≤ 12288 := by
  obtain ⟨fs1, inode1, w, hloop, -, -, -, heq⟩ := ext2VfsWrite_cases hs hd hino hfit
  have hr := vfsWriteLoop_reached (show off + data.length < 2 ^ 42 by omega) data.length
    (.zero hs hd) (.zero _ off) (Nat.zero_le _)
  rw [hloop] at hr
  rw [heq] at hpos ⊢
  exact hr.inside hpos

/-- **A write that meets its condition** leaves the inode on the disk as it is in the node. -/
lemma ext2VfsWrite_persisted (hs : Sound fs) (hd : DirectOk fs (fs.pool h).inode)
    (hino : fs.layout.HasInode (fs.pool h).ino) (hp : Persisted fs h)
    (hok : PersistOk h fs (off, data)) : Persisted (ext2VfsWrite fs h off data).2 h := by
  obtain ⟨hfit, hok⟩ := hok
  dsimp only at hfit hok
  obtain ⟨fs1, inode1, w, hloop, hw, hwr, hstop, heq⟩ := ext2VfsWrite_cases hs hd hino hfit
  have hr := vfsWriteLoop_reached (show off + data.length < 2 ^ 42 by omega) data.length
    (.zero hs hd) (.zero _ off) (Nat.zero_le _)
  rw [hloop] at hr
  dsimp only at hr
  have hpool : ∀ node : Ext2Node, Function.update fs1.pool h node h = node := fun node =>
    Function.update_self ..
  -- nothing is stored behind the 128 bytes of an inode
  have hz : ∀ x, inodeBytes ≤ x → (fs.pool h).inode x = 0 := fun x hx => by
    rw [← hp]
    exact copy_apply_of_not_mem (by omega)
  rw [heq]
  unfold Persisted
  dsimp only
  split_ifs with hgrow
  · have hnode : (((fs1.setNode h { fs.pool h with
        inode := setSize inode1 (off + w), size := off + w }).putInode (fs.pool h).ino
          (setSize inode1 (off + w))).pool h) = { fs.pool h with
        inode := setSize inode1 (off + w), size := off + w } := hpool _
    rw [hnode]
    refine diskInode_putInode_eq (by exact hwr.sound.valid) ?_ fun x hx => ?_
    · change fs1.layout.HasInode _
      rwa [hwr.layout]
    · unfold inodeBytes at hx hz
      rw [setSize, putLe_apply_of_not_mem (by omega), hwr.rest x (by omega), hz x hx]
  · have hsame : inode1 = (fs.pool h).inode := by
      refine hr.same fun i hi ht => ?_
      obtain ⟨h1, h2, h3⟩ := ht
      rcases hok with hall | happend | ⟨hends, hspace⟩
      · exact hall i hi ⟨by omega, h2, by omega⟩
      · omega
      · have := hr.complete hw hwr hstop hspace
        omega
    have hnode : ((fs1.setNode h { fs.pool h with inode := inode1 }).pool h) =
        { fs.pool h with inode := inode1 } := hpool _
    rw [hnode]
    dsimp only
    rw [hsame, ← hp]
    exact hwr.diskInode_eq hs.valid hino

/-! ## Runs -/

/-- A write through node `h`: an offset and the data. -/
def writeStep (h : ℕ) (fs : Ext2) (e : ℕ × List UInt8) : Ext2 := (ext2VfsWrite fs h e.1 e.2).2

/-- A consistent volume whose directory at node `dir` has the name for the file of node `h`, and
the inode of the file on the disk is the one in the node. -/
structure OnDisk (reserved files : Set ℕ) (dir : ℕ) (name : List UInt8) (h : ℕ) (fs : Ext2) :
    Prop where
  consistent : Consistent reserved files fs h
  named : Named fs dir name (fs.pool h).ino
  persisted : Persisted fs h

section OnDisk

variable {reserved files : Set ℕ}

lemma Consistent.sound (hc : Consistent reserved files fs h) : Sound fs :=
  ⟨hc.valid, hc.first, fun n hn => ⟨(hc.free n hn).1, (hc.free n hn).2.1⟩⟩

lemma Overwrites.named (ho : Overwrites fs h off data w fs' inode') (hp : Persisted fs h)
    (hp' : Persisted fs' h) (hn : Named fs dir name (fs.pool h).ino) :
    Named fs' dir name (fs'.pool h).ino := by
  have hino : (fs'.pool h).ino = (fs.pool h).ino := by rw [ho.node]
  have hinode : (fs'.pool h).inode = inode' := by rw [ho.node]
  have hdir : fs'.pool dir = fs.pool dir := by
    refine ho.nodes dir ?_
    rintro rfl
    exact hn.other rfl
  unfold Persisted at hp hp'
  have hsame : ∀ n, DirUses fs (fs.pool dir).inode n → diskBlock fs' n = diskBlock fs n := by
    intro n hu
    obtain ⟨-, hplain, hused, hptr⟩ := hn.blocks n hu
    rw [hp] at hptr
    exact ho.frame n hplain hused hptr
  have hes := dirEntries_congr ho.blockSize hsame
  refine ⟨by rw [ho.poolCount]; exact hn.dir_lt, by rw [hdir, hino]; exact hn.other,
    fun n hu => ?_, ?_, ?_⟩
  · rw [hdir] at hu
    obtain ⟨hon, hplain, hused, hptr⟩ := hn.blocks n (dirUses_congr ho.blockSize hsame hu)
    rw [hp] at hptr
    rw [ho.layout, hp', hinode]
    refine ⟨hon, hplain, fun hfree => hused (ho.free n hfree), fun i hi => ?_⟩
    rcases ho.pointer i hi with heq | ⟨-, hfree⟩
    · rw [heq]
      exact hptr i hi
    · exact fun heq => hused (heq ▸ hfree)
  · rw [hdir, hes, ho.layout]
    exact hn.inodes
  · unfold dirLookup
    rw [hdir, hes, hino]
    exact hn.lookup

lemma writeStep_onDisk (fs : Ext2) (e : ℕ × List UInt8) (hs : OnDisk reserved files dir name h fs)
    (he : PersistOk h fs e) : OnDisk reserved files dir name h (writeStep h fs e) := by
  obtain ⟨hc, hn, hp⟩ := hs
  have hd := hc.own.directOk hc.valid
  have hino := hc.hasInode _ hc.node
  have hp' := ext2VfsWrite_persisted hc.sound hd hino hp he
  obtain ⟨inode', ho⟩ := ext2VfsWrite_overwrites hc.sound hd hino he.1
  exact ⟨ho.consistent hc, ho.named hp hp' hn, hp'⟩

/-- **A new lookup** makes a node with the inode of node `h`. -/
lemma OnDisk.lookup (hs : OnDisk reserved files dir name h fs) {r : ℕ}
    (hr : ext2VfsFinddir fs dir name = (some r, fs')) :
    (fs'.pool r).inode = (fs.pool h).inode ∧
      ∀ off n, off + n < 2 ^ 64 → (ext2VfsRead fs' r off n).1 =
        contents fs (fs.pool h).inode off (min n (iSize (fs.pool h).inode - off)) := by
  obtain ⟨hc, hn, hp⟩ := hs
  obtain ⟨short, heq⟩ := hn.finddir_eq hc.sound
  rw [hr, hp, ext2CreateVfsNode] at heq
  split_ifs at heq
  · cases heq
  · obtain ⟨hplace, hfs⟩ := Prod.mk.inj heq
    obtain rfl := Option.some.inj hplace
    have hinode : (fs'.pool fs.poolCount).inode = (fs.pool h).inode := by
      rw [hfs]
      dsimp only
      rw [Function.update_self]
    refine ⟨hinode, fun off n hfit => ?_⟩
    have hblocks : BlocksOnDisk fs' (fs.pool h).inode := by
      rw [hfs]
      exact hc.own.blocksOnDisk
    have hvalid : fs'.layout.Valid := by
      rw [hfs]
      exact hc.valid
    rw [ext2VfsRead_eq hvalid.serves hvalid.blockSize (by rwa [hinode]) hfit, hinode]
    dsimp only
    rw [hfs]
    rfl

end OnDisk

/-- **Writes are persistent** in a run of writes through one node of a consistent volume that all
meet their condition: afterwards the inode on the disk is the one in the node, and a new lookup
of the file gives a node with that inode, through which the bytes of the last write are read. -/
theorem writes_persist {reserved files : Set ℕ} (hs : OnDisk reserved files dir name h fs)
    (es : List (ℕ × List UInt8)) (off : ℕ) (data : List UInt8)
    (hrun : StepsMeet (writeStep h) (PersistOk h) fs (es ++ [(off, data)])) :
    Persisted (runFrom (writeStep h) fs (es ++ [(off, data)])) h ∧
      ∀ r fs', ext2VfsFinddir (runFrom (writeStep h) fs (es ++ [(off, data)])) dir name =
        (some r, fs') →
        (fs'.pool r).inode = ((runFrom (writeStep h) fs (es ++ [(off, data)])).pool h).inode ∧
          (ext2VfsRead fs' r off (ext2VfsWrite (runFrom (writeStep h) fs es) h off data).1).1 =
            data.take (ext2VfsWrite (runFrom (writeStep h) fs es) h off data).1 := by
  obtain ⟨hrun, hlast, -⟩ := stepsMeet_append.mp hrun
  have hs' := invariant_runFrom (I := OnDisk reserved files dir name h) writeStep_onDisk hs hrun
  rw [runFrom_append, runFrom_cons, runFrom_nil]
  generalize runFrom (writeStep h) fs es = t at hlast hs'
  have hd := hs'.consistent.own.directOk hs'.consistent.valid
  have hino := hs'.consistent.hasInode _ hs'.consistent.node
  have hfit : off + data.length < 2 ^ 32 := hlast.1
  have hin : 0 < (ext2VfsWrite t h off data).1 → off + (ext2VfsWrite t h off data).1 ≤ 12288 :=
    ext2VfsWrite_inside hs'.consistent.sound hd hino hfit
  obtain ⟨inode', ho⟩ := ext2VfsWrite_overwrites hs'.consistent.sound hd hino hfit
  have hend := writeStep_onDisk t (off, data) hs' hlast
  change Overwrites t h off data (ext2VfsWrite t h off data).1 (writeStep h t (off, data)) inode' at ho
  generalize writeStep h t (off, data) = t' at ho hend
  generalize (ext2VfsWrite t h off data).1 = n at ho hin
  refine ⟨hend.persisted, fun r fs' hr => ?_⟩
  have hinode : (t'.pool h).inode = inode' := by rw [ho.node]
  obtain ⟨h1, h2⟩ := hend.lookup hr
  have hlen := ho.length
  refine ⟨h1, ?_⟩
  rw [h2 off n (by omega), hinode, ho.inodeSize, Nat.min_eq_left (by omega)]
  by_cases hn : n = 0
  · rw [hn]
    rfl
  · exact ho.contents_eq (hin (by omega))

/-! ## A file with a hole -/

/-- The volume with the empty file `f`, looked up: node 1. -/
def openedFile : Ext2 :=
  { rootVolume fileRoot with
    pool := Function.update (rootVolume fileRoot).pool 1 ⟨3, zeros, [102], 0, 0, false⟩
    poolCount := 2 }

lemma openedFile_onDisk : OnDisk {0, 1, 2} {3} 0 [102] 1 openedFile := by
  have hdisk : diskInode openedFile 3 = zeros := by
    funext x
    by_cases hx : x < 128
    · revert x
      decide +kernel
    · exact copy_apply_of_not_mem (by unfold inodeBytes; omega)
  have hzero : ∀ i ∈ ({3} : Set ℕ), ∀ p, refAt openedFile (viewInode openedFile 1 i) p = 0 := by
    rintro i rfl
    exact refAt_of_empty (by decide +kernel)
  refine ⟨⟨rootVolume_valid fileRoot, Nat.zero_lt_one, fun n hn => ?_, by rfl, by decide +kernel, ?_,
    fun i hi => ⟨fun p h0 => absurd (hzero i hi p) h0, fun p q h0 => absurd (hzero i hi p) h0⟩,
    fun i hi j _ _ n hn => ?_⟩, ?_, hdisk⟩
  · obtain ⟨h1, h2⟩ := freeBlock_fileRoot hn
    refine ⟨show n * 2 + 2 ≤ 64 by omega, plain_smallVolume (by omega), ?_⟩
    rintro (rfl | rfl | rfl) <;> omega
  · rintro i rfl
    decide +kernel
  · obtain ⟨h0, p, hp⟩ := hn
    exact absurd (hp.symm.trans (hzero i hi p)) h0
  · obtain ⟨h1, h2, h3, h4, h5⟩ := named_fileRoot
    exact ⟨show 0 < 2 by omega, h2, h3, h4, h5⟩

/-- A byte at the start and one behind it. -/
theorem writes_persist_twoBytes :
    Persisted (runFrom (writeStep 1) openedFile [(0, [65]), (1, [66])]) 1 := by
  refine (writes_persist openedFile_onDisk [(0, [65])] 1 [66] ⟨⟨?_, Or.inr (Or.inl ?_)⟩,
    ⟨?_, Or.inl ?_⟩, trivial⟩).1
  all_goals decide +kernel

/-- **A write that is lost**: a byte is written in the second block of an empty file, and then one
in the first, which was a hole.  The inode on the disk does not know the new block, and after a
new lookup (node 2) a zero is read in its place. -/
theorem write_into_hole_lost :
    OnDisk {0, 1, 2} {3} 0 [102] 1 openedFile ∧
      (ext2VfsWrite (runFrom (writeStep 1) openedFile [(1024, [65])]) 1 0 [66]).1 = 1 ∧
      ¬ Persisted (runFrom (writeStep 1) openedFile [(1024, [65]), (0, [66])]) 1 ∧
      (ext2VfsFinddir (runFrom (writeStep 1) openedFile [(1024, [65]), (0, [66])]) 0 [102]).1 =
        some 2 ∧
      (ext2VfsRead (ext2VfsFinddir (runFrom (writeStep 1) openedFile [(1024, [65]), (0, [66])]) 0
        [102]).2 2 0 1).1 = [0] := by
  refine ⟨openedFile_onDisk, by decide +kernel, fun hp => ?_, by decide +kernel, by decide +kernel⟩
  have hblock : iBlock (diskInode (runFrom (writeStep 1) openedFile [(1024, [65]), (0, [66])]) 3) 0 ≠
      iBlock ((runFrom (writeStep 1) openedFile [(1024, [65]), (0, [66])]).pool 1).inode 0 := by
    decide +kernel
  exact hblock (congrArg (fun inode => iBlock inode 0) hp)

end Bangos.Fs
