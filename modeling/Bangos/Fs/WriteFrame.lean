import Bangos.Fs.BlockMap
import Bangos.Fs.Ext2Exact
import Bangos.Fs.Ext2Write
import Bangos.Fs.WriteTurns

/-!
# What a write leaves alone

On a device that works a call of `ext2_vfs_write` changes no byte of the file but those that it
counts, provided that the offset is one of the positions that the direct blocks have.  The block
numbers and the new size are taken modulo `2 ^ 32` while an offset has 64 bits, and the new size is
set even if nothing has been written: `touchesReported_iff` says for which calls the bytes and the
size are as the count says.
-/

namespace Bangos.Fs

open ByteMem Bangos.Drivers Bangos.Mm

variable {fs fs' fs1 fs2 : Ext2} {inode inode' inode1 inode2 : Inode} {off w i n h a c d : ℕ}
  {data : List UInt8} {t : WriteTurn} {ts : List WriteTurn}

/-! ## Volumes and files -/

/-- A volume on which files can be written: its device works, and what is marked free lies on the
disk, outside the metadata. -/
structure Writable (fs : Ext2) : Prop where
  allocates : fs.layout.Allocates
  tables : fs.layout.InodeTables
  blockSize : fs.blockSize ∣ 4096
  free : ∀ n, FreeBlock fs n → fs.layout.OnDisk n ∧ fs.layout.Plain n

/-- The blocks of a file are its own: the direct ones (`DirectOk`), and the tables and blocks that
are reached through tables. -/
structure OwnBlocks (fs : Ext2) (inode : Inode) : Prop where
  direct : DirectOk fs inode
  deep : ∀ b, 12 ≤ b → ∀ k, wayBlock fs inode b k ≠ 0 →
    fs.layout.Plain (wayBlock fs inode b k) ∧ ¬ FreeBlock fs (wayBlock fs inode b k) ∧
      ∀ i < 12, iBlock inode i ≠ wayBlock fs inode b k

/-! ## What a part of a call leaves alone -/

/-- The volume and the inode after a part of a call that has written the positions from `a` to `c`
of the direct blocks. -/
structure Framed (a c : ℕ) (fs : Ext2) (inode : Inode) (fs' : Ext2) (inode' : Inode) : Prop where
  layout : fs'.layout = fs.layout
  pool : fs'.pool = fs.pool
  free : ∀ n, FreeBlock fs' n → FreeBlock fs n
  direct : DirectOk fs' inode'
  rest : ∀ x, x < 28 ∨ 88 ≤ x → inode' x = inode x
  fresh : ∀ i < 12, iBlock inode' i = iBlock inode i ∨ FreeBlock fs (iBlock inode' i)
  bytes : ∀ i < 12, ∀ y < fs.blockSize, i * fs.blockSize + y < a ∨ c ≤ i * fs.blockSize + y →
    holeByte fs' (iBlock inode' i) y = holeByte fs (iBlock inode i) y
  others : ∀ n, fs.layout.Plain n → ¬ FreeBlock fs n → (∀ i < 12, iBlock inode i ≠ n) →
    diskBlock fs' n = diskBlock fs n

lemma Framed.trans (h1 : Framed a c fs inode fs1 inode1) (h2 : Framed c d fs1 inode1 fs2 inode2)
    (hac : a ≤ c) (hcd : c ≤ d) : Framed a d fs inode fs2 inode2 where
  layout := h2.layout.trans h1.layout
  pool := h2.pool.trans h1.pool
  free := fun n hn => h1.free n (h2.free n hn)
  direct := h2.direct
  rest := fun x hx => (h2.rest x hx).trans (h1.rest x hx)
  fresh := by
    intro i hi
    rcases h2.fresh i hi with heq | hfree
    · rw [heq]
      exact h1.fresh i hi
    · exact Or.inr (h1.free _ hfree)
  bytes := by
    intro i hi y hy hout
    have hbs : fs1.blockSize = fs.blockSize := congrArg Layout.blockSize h1.layout
    have hb2 := h2.bytes i hi y
    rw [hbs] at hb2
    rw [hb2 hy (by omega), h1.bytes i hi y hy (by omega)]
  others := by
    intro n hplain hused hne
    rw [h2.others n (by rwa [h1.layout]) (fun hf => hused (h1.free n hf)), h1.others n hplain hused hne]
    intro i hi heq
    rcases h1.fresh i hi with h | h
    · exact hne i hi (h.symm.trans heq)
    · exact hused (heq ▸ h)

lemma Allocated.framed (h : Allocated fs 0 fs') (hl : fs'.layout = fs.layout)
    (hd : DirectOk fs inode) (a : ℕ) : Framed a a fs inode fs' inode := by
  have hfree : ∀ n, FreeBlock fs' n → FreeBlock fs n := fun n =>
    freeBlock_of_bits h.shape fun g _ b => h.bits g b
  refine ⟨hl, h.pool, hfree, hd.of_layout hl hfree, fun _ _ => rfl, fun _ _ => Or.inl rfl,
    fun i hi y _ _ => ?_, fun n hplain _ _ => h.others n (bitmap_ne_of_plain hplain)⟩
  unfold holeByte
  split_ifs with h0
  · rfl
  · rw [h.others _ (bitmap_ne_of_plain (hd.plain i hi h0))]

lemma TurnOk.free (ht : TurnOk off data fs inode w t fs1 inode1) (n : ℕ) (hn : FreeBlock fs1 n) :
    FreeBlock fs n :=
  freeBlock_of_bits ht.shape ht.bits hn

section Turn

variable (hv : Writable fs) (hd : DirectOk fs inode) (ht : TurnOk off data fs inode w t fs1 inode1)
include hd ht

include hv in
lemma TurnOk.onDisk : fs.layout.OnDisk t.phys := by
  rcases ht.kind with ⟨-, -, hfree⟩ | ⟨-, heq⟩
  · exact (hv.free _ hfree).1
  · have hptr := ht.pointer
    rw [heq] at hptr
    have h0 := ht.ne_zero
    rw [← hptr] at h0 ⊢
    exact hd.onDisk _ ht.blk_lt h0

lemma TurnOk.phys_ne (hi : i < 12) (hne : i ≠ t.blk) (h0 : iBlock inode i ≠ 0) :
    iBlock inode i ≠ t.phys := by
  intro heq
  rcases ht.kind with ⟨-, -, hfree⟩ | ⟨-, hsame⟩
  · exact hd.used i hi h0 (heq ▸ hfree)
  · have hptr := ht.pointer
    rw [hsame] at hptr
    exact hne (hd.inj i hi _ ht.blk_lt h0 (heq.trans hptr.symm))

include hv

lemma TurnOk.directOk : DirectOk fs1 inode1 := by
  have hl := ht.steady hv.allocates
  have hother : ∀ {i}, i < 12 → i ≠ t.blk → iBlock inode1 i ≠ 0 → iBlock inode1 i ≠ t.phys := by
    intro i hi hne h0
    rw [ht.pointers i hne] at h0 ⊢
    exact ht.phys_ne hd hi hne h0
  refine ⟨fun i hi h0 => ?_, fun i hi h0 => ?_, fun i hi h0 hf => ?_, fun i hi j hj h0 heq => ?_⟩
  · rw [hl]
    by_cases hblk : i = t.blk
    · rw [hblk, ht.pointer]
      exact ht.onDisk hv hd
    · rw [ht.pointers i hblk] at h0 ⊢
      exact hd.onDisk i hi h0
  · rw [hl]
    by_cases hblk : i = t.blk
    · rw [hblk, ht.pointer]
      exact ht.plain
    · rw [ht.pointers i hblk] at h0 ⊢
      exact hd.plain i hi h0
  · rcases ht.kind with ⟨hnew, -, -⟩ | ⟨-, rfl⟩
    · by_cases hblk : i = t.blk
      · rw [hblk, ht.pointer] at hf
        exact ht.taken hv.allocates hnew hf
      · rw [ht.pointers i hblk] at h0 hf
        exact hd.used i hi h0 (ht.free _ hf)
    · exact hd.used i hi h0 (ht.free _ hf)
  · by_cases hi' : i = t.blk
    · by_cases hj' : j = t.blk
      · rw [hi', hj']
      · rw [hi', ht.pointer] at heq
        exact absurd heq.symm (hother hj hj' (heq ▸ ht.ne_zero))
    · by_cases hj' : j = t.blk
      · rw [hj', ht.pointer] at heq
        exact absurd heq (hother hi hi' h0)
      · rw [ht.pointers i hi'] at h0 heq
        rw [ht.pointers j hj'] at heq
        exact hd.inj i hi j hj h0 heq

lemma TurnOk.block_bytes {y : ℕ} (hy : y < fs.blockSize) (hout : ¬ t.Counts y) :
    diskBlock fs1 t.phys y = holeByte fs (iBlock inode t.blk) y := by
  obtain ⟨hmoved, hans⟩ := ht.complete hv.allocates (ht.onDisk hv hd)
  have hstored : applyStores [t.store] (diskBlock fs) t.phys y = t.buf y := by
    refine (congrFun (applyStores_one_self t.store _) y).trans (copy_zero_apply ?_)
    exact hy.trans_eq hmoved.symm
  rw [ht.others _ (bitmap_ne_of_plain ht.plain), hstored]
  unfold holeByte
  rcases ht.kind with ⟨hnew, h0, -⟩ | ⟨hold, rfl⟩
  · rw [if_pos h0]
    exact ht.cleared hnew y hy hout
  · rw [ht.pointer, if_neg ht.ne_zero]
    exact ht.kept hold hans y hy hout

/-- **What a turn leaves alone.** -/
lemma TurnOk.framed : Framed (wrapped fs.blockSize off + w) (wrapped fs.blockSize off + (w + t.len))
    fs inode fs1 inode1 where
  layout := ht.steady hv.allocates
  pool := ht.pool
  free := ht.free
  direct := ht.directOk hv hd
  rest := fun x hx => ht.rest x (by omega)
  fresh := by
    intro i hi
    by_cases hblk : i = t.blk
    · rcases ht.kind with ⟨-, -, hfree⟩ | ⟨-, rfl⟩
      · rw [hblk, ht.pointer]
        exact Or.inr hfree
      · exact Or.inl rfl
    · exact Or.inl (ht.pointers i hblk)
  bytes := by
    intro i hi y hy hout
    by_cases hblk : i = t.blk
    · subst hblk
      have hsplit : t.blk * fs.blockSize + t.off = wrapped fs.blockSize off + w := by
        rw [ht.blk, ht.offset, Nat.mul_comm, Nat.div_add_mod]
      have hcount : ¬ t.Counts y := fun ⟨h1, h2⟩ => by omega
      rw [ht.pointer, holeByte, if_neg ht.ne_zero]
      exact ht.block_bytes hv hd hy hcount
    · rw [ht.pointers i hblk]
      unfold holeByte
      split_ifs with h0
      · rfl
      · rw [ht.others _ (bitmap_ne_of_plain (hd.plain i hi h0)),
          applyStores_one_of_ne (ht.phys_ne hd hi hblk h0)]
  others := by
    intro n hplain hused hne
    have hphys : n ≠ t.phys := by
      rintro rfl
      rcases ht.kind with ⟨-, -, hfree⟩ | ⟨-, rfl⟩
      · exact hused hfree
      · exact hne _ ht.blk_lt ht.pointer
    rw [ht.others n (bitmap_ne_of_plain hplain), applyStores_one_of_ne hphys]

end Turn

lemma Framed.writable (hf : Framed a c fs inode fs' inode') (hv : Writable fs) : Writable fs' where
  allocates := by
    rw [hf.layout]
    exact hv.allocates
  tables := by
    rw [hf.layout]
    exact hv.tables
  blockSize := by
    have hbs : fs'.blockSize = fs.blockSize := congrArg Layout.blockSize hf.layout
    rw [hbs]
    exact hv.blockSize
  free := by
    intro n hn
    rw [hf.layout]
    exact hv.free n (hf.free n hn)

/-- **What the loop leaves alone.** -/
lemma WriteRun.framed (hrun : WriteRun off data fs inode w ts fs' inode') (hv : Writable fs)
    (hd : DirectOk fs inode) :
    Framed (wrapped fs.blockSize off + w) (wrapped fs.blockSize off + (w + counted ts)) fs inode
      fs' inode' := by
  induction hrun with
  | stop ha hl => exact ha.framed (hl hv.allocates) hd _
  | @turn fs fs1 fs' inode inode1 inode' w t ts ht hrun ih =>
    have hbs : fs1.blockSize = fs.blockSize := congrArg Layout.blockSize ht.shape
    have hone := ht.framed hv hd
    have hrest := ih (hone.writable hv) hone.direct
    rw [hbs, Nat.add_assoc w] at hrest
    rw [counted_cons]
    exact hone.trans hrest (by omega) (by omega)

lemma Writable.ready (hv : Writable fs) (hd : DirectOk fs inode) : Ready fs inode where
  serves := ⟨rfl, hv.allocates.serves.blockSize_pos, hv.allocates.serves.sectors⟩
  blockSize := hv.blockSize
  free := fun n hn => (hv.free n hn).2
  direct := hd.plain

/-! ## What is written at all -/

/-- The loop writes something: there is something to write, the first block is a direct one, and the
file has it or a group has a block to give. -/
def Stores (fs : Ext2) (inode : Inode) (off len : ℕ) : Prop :=
  0 < len ∧ u32 (off / fs.blockSize) < 12 ∧
    (iBlock inode (u32 (off / fs.blockSize)) ≠ 0 ∨ ∃ g < fs.groupCount, ¬ Full fs .block g)

lemma writePrepare_isSome (hv : fs.layout.Allocates) (hz : ZeroUsed fs) :
    (writePrepare fs inode i).1.isSome = true ↔
      (iBlock inode i ≠ 0 ∨ ∃ g < fs.groupCount, ¬ Full fs .block g) := by
  have hzero : (ext2AllocBlock fs).1 = 0 ↔ ∀ g < fs.groupCount, Full fs .block g :=
    (allocExact_call hv hz .block).zero_iff
  unfold writePrepare
  by_cases h0 : iBlock inode i = 0
  · rw [if_pos h0]
    by_cases hfull : ∀ g < fs.groupCount, Full fs .block g
    · rw [if_pos (hzero.mpr hfull)]
      refine iff_of_false (by simp) ?_
      rintro (h | ⟨g, hg, hleft⟩)
      · exact h h0
      · exact hleft (hfull g hg)
    · rw [if_neg fun h => hfull (hzero.mp h)]
      refine iff_of_true rfl (Or.inr ?_)
      push Not at hfull
      exact hfull
  · rw [if_neg h0]
    exact iff_of_true rfl (Or.inl h0)

/-- **A call writes something** in these cases, and only in these. -/
lemma counted_pos_iff (inode : Inode) (data : List UInt8) (hv : Writable fs) (hz : ZeroUsed fs)
    (hoff : off < 2 ^ 64) :
    0 < counted (writeTurns off data data.length fs inode 0) ↔ Stores fs inode off data.length := by
  have hpos : 0 < fs.blockSize := hv.allocates.serves.blockSize_pos
  unfold Stores
  cases data with
  | nil => simp [writeTurns, counted]
  | cons b rest =>
    have hu : u64 (off + 0) = off := Nat.mod_eq_of_lt (by omega)
    have hlen : 0 < rest.length + 1 := Nat.succ_pos _
    rw [← writePrepare_isSome hv.allocates hz, List.length_cons, writeTurns, List.length_cons,
      if_pos hlen]
    dsimp only
    rw [hu, and_iff_right hlen]
    split_ifs with h12
    · rw [and_iff_right h12]
      generalize writePrepare fs inode (u32 (off / fs.blockSize)) = r
      obtain ⟨r, fs'⟩ := r
      cases r with
      | none => simp [counted]
      | some x =>
        have hin : u32 (off % fs.blockSize) < fs.blockSize :=
          Nat.lt_of_le_of_lt (Nat.mod_le _ _) (Nat.mod_lt _ hpos)
        refine iff_of_true ?_ rfl
        rw [counted_cons]
        dsimp only
        omega
    · exact iff_of_false (by simp [counted]) fun h => h12 h.1

/-! ## The whole call -/

lemma WriteRun.end_le (hrun : WriteRun off data fs inode w ts fs' inode') (hr : Ready fs inode) :
    ts = [] ∨ wrapped fs.blockSize off + (w + counted ts) ≤ 12 * fs.blockSize := by
  induction hrun with
  | stop => exact Or.inl rfl
  | @turn fs fs1 fs' inode inode1 inode' w t ts ht hrun ih =>
    have hbs : fs1.blockSize = fs.blockSize := congrArg Layout.blockSize ht.shape
    have hend := ht.end_le hr
    have hblk : t.blk * fs.blockSize ≤ 11 * fs.blockSize :=
      Nat.mul_le_mul_right _ (Nat.le_of_lt_succ ht.blk_lt)
    right
    rcases ih (ht.ready hr) with rfl | hle
    · rw [counted_cons]
      change _ + (w + (t.len + 0)) ≤ _
      omega
    · rw [hbs] at hle
      rw [counted_cons]
      omega

/-- What a call leaves behind: the volume and the inode after the loop, with the new size where the
file has grown. -/
structure Leaves (fs : Ext2) (h off n : ℕ) (fs' : Ext2) : Prop where
  framed : ∃ fs1 inode1, Framed (wrapped fs.blockSize off) (wrapped fs.blockSize off + n) fs
      (fs.pool h).inode fs1 inode1 ∧
    (∀ i, iBlock (fs'.pool h).inode i = iBlock inode1 i) ∧
    (∀ k, fs.layout.Plain k → diskBlock fs' k = diskBlock fs1 k)
  blockSize : fs'.blockSize = fs.blockSize
  size : iSize (fs'.pool h).inode = if iSize (fs.pool h).inode < u64 (off + n) then u32 (off + n)
    else iSize (fs.pool h).inode
  nodeSize : (fs'.pool h).size = if iSize (fs.pool h).inode < u64 (off + n) then u32 (off + n)
    else (fs.pool h).size
  bound : n = 0 ∨ wrapped fs.blockSize off + n ≤ 12 * fs.blockSize

lemma setNode_pool_self (fs : Ext2) (h : ℕ) (node : Ext2Node) : (fs.setNode h node).pool h = node :=
  Function.update_self ..

lemma iSize_setSize_mod (inode : Inode) (v : ℕ) : iSize (setSize inode (u64 v)) = u32 v := by
  have hdvd : (2 : ℕ) ^ 32 ∣ 2 ^ 64 := ⟨2 ^ 32, by norm_num⟩
  rw [iSize, setSize, le_putLe_self]
  exact Nat.mod_mod_of_dvd v hdvd

/-- **The whole call** on a device that works. -/
lemma ext2VfsWrite_leaves (data : List UInt8) (hv : Writable fs) (hd : DirectOk fs (fs.pool h).inode)
    (hino : fs.layout.HasInode (fs.pool h).ino) (hoff : off < 2 ^ 64) :
    (ext2VfsWrite fs h off data).1 =
        counted (writeTurns off data data.length fs (fs.pool h).inode 0) ∧
      Leaves fs h off (ext2VfsWrite fs h off data).1 (ext2VfsWrite fs h off data).2 := by
  have hr := hv.ready hd
  have hpos : 0 < fs.blockSize := hr.serves.blockSize_pos
  have hstart : wrapped fs.blockSize off + 0 < 2 ^ 32 * fs.blockSize :=
    Nat.mod_lt _ (Nat.mul_pos (by norm_num) hpos)
  obtain ⟨fs1, inode1, hloop, hrun⟩ := vfsWriteLoop_run data hoff data.length hr hstart
  have hf := hrun.framed hv hd
  have hbound : counted (writeTurns off data data.length fs (fs.pool h).inode 0) = 0 ∨ _ :=
    (hrun.end_le hr).imp_left fun h0 => by rw [h0]; rfl
  rw [Nat.zero_add] at hloop hf hbound
  generalize counted (writeTurns off data data.length fs (fs.pool h).inode 0) = n at *
  have hsize : iSize inode1 = iSize (fs.pool h).inode :=
    le_congr fun x h1 h2 => hf.rest x (Or.inl (by omega))
  have hbs : fs1.blockSize = fs.blockSize := congrArg Layout.blockSize hf.layout
  unfold ext2VfsWrite
  dsimp only
  rw [hloop]
  dsimp only
  rw [hsize]
  split_ifs with hgrow
  · refine ⟨rfl, ?_⟩
    have ht : ∀ node, (fs1.setNode h node).layout.InodeTables := by
      intro node
      change fs1.layout.InodeTables
      rw [hf.layout]
      exact hv.tables
    have hi : ∀ node, (fs1.setNode h node).layout.HasInode (fs.pool h).ino := by
      intro node
      change fs1.layout.HasInode _
      rwa [hf.layout]
    rw [ext2WriteInode_eq (ht _) (hi _)]
    refine ⟨⟨fs1, inode1, hf, fun i => ?_, fun k hk => ?_⟩, hbs, ?_, ?_, hbound⟩
    · rw [putInode_pool, setNode_pool_self, iBlock_setSize]
    · refine diskBlock_putInode_of_plain (ht _) (hi _) ?_ _
      change fs1.layout.Plain k
      rwa [hf.layout]
    · rw [putInode_pool, setNode_pool_self, iSize_setSize_mod, if_pos hgrow]
    · rw [putInode_pool, setNode_pool_self, iSize_setSize_mod, if_pos hgrow]
  · refine ⟨rfl, ⟨fs1, inode1, hf, fun i => ?_, fun k _ => rfl⟩, hbs, ?_, ?_, hbound⟩
    · rw [setNode_pool_self]
    · rw [setNode_pool_self, hsize, if_neg hgrow]
    · rw [setNode_pool_self, if_neg hgrow]

/-- **What a call is to leave alone** when it returns `n`: no byte of the file outside the positions
from `off` to `off + n` changes, and the size, of which the node has a copy, grows to cover them. -/
structure TouchesReported (fs : Ext2) (h off n : ℕ) (fs' : Ext2) : Prop where
  bytes : ∀ x, x < off ∨ off + n ≤ x →
    mapByte fs' (fs'.pool h).inode x = mapByte fs (fs.pool h).inode x
  size : iSize (fs'.pool h).inode =
    if n = 0 then iSize (fs.pool h).inode else max (iSize (fs.pool h).inode) (off + n)
  nodeSize : (fs'.pool h).size = iSize (fs'.pool h).inode
  grows : iSize (fs.pool h).inode ≤ iSize (fs'.pool h).inode

section Leaves

variable {fs' : Ext2} (hf : OwnBlocks fs (fs.pool h).inode) (hle : Leaves fs h off n fs')
include hf hle

lemma Leaves.bytes {x : ℕ} (hpos : 0 < fs.blockSize)
    (hx : x < wrapped fs.blockSize off ∨ wrapped fs.blockSize off + n ≤ x) :
    mapByte fs' (fs'.pool h).inode x = mapByte fs (fs.pool h).inode x := by
  obtain ⟨fs1, inode1, hframe, hptr, hplain⟩ := hle.framed
  by_cases hlt : x / fs.blockSize < 12
  · -- a direct block
    have hlast : x / fs.blockSize * fs.blockSize + x % fs.blockSize = x := by
      rw [Nat.mul_comm, Nat.div_add_mod]
    have hbyte := hframe.bytes _ hlt (x % fs.blockSize) (Nat.mod_lt _ hpos) (by omega)
    unfold mapByte
    rw [hle.blockSize, mapBlock_direct hlt, mapBlock_direct hlt, hptr, ← hbyte]
    unfold holeByte
    split_ifs with h0
    · rfl
    · have hp := hframe.direct.plain _ hlt h0
      rw [hframe.layout] at hp
      rw [hplain _ hp]
  · refine mapByte_congr hle.blockSize (fun j h1 h2 => ?_) (not_lt.mp hlt) fun k h0 => ?_
    · rw [hptr]
      exact le_congr fun y h3 h4 => hframe.rest y (Or.inr (by omega))
    · obtain ⟨hp, hused, hne⟩ := hf.deep _ (not_lt.mp hlt) k h0
      rw [hplain _ hp, hframe.others _ hp hused hne]

end Leaves

lemma le_of_wrapped_block {bs : ℕ} (hpos : 0 < bs) (hblk : u32 (off / bs) < 12)
    (hge : 12 * bs ≤ off) : 2 ^ 32 ≤ off := by
  by_contra hlt
  have hsmall : off / bs < 2 ^ 32 := Nat.lt_of_le_of_lt (Nat.div_le_self _ _) (not_le.mp hlt)
  rw [u32, Nat.mod_eq_of_lt (by exact hsmall), Nat.div_lt_iff_lt_mul hpos] at hblk
  omega

/-- **Writes that touch what they report**: those at an offset inside the file, those of at least a
byte at a position of the direct blocks, and those of no byte at an offset that is the size of the
file in its low 32 bits. -/
theorem touchesReported_iff (hv : Writable fs) (hz : ZeroUsed fs)
    (hf : OwnBlocks fs (fs.pool h).inode) (hino : fs.layout.HasInode (fs.pool h).ino)
    (hnode : (fs.pool h).size = iSize (fs.pool h).inode) (hoff : off < 2 ^ 64) :
    TouchesReported fs h off (ext2VfsWrite fs h off data).1 (ext2VfsWrite fs h off data).2 ↔
      off ≤ iSize (fs.pool h).inode ∨
      Stores fs (fs.pool h).inode off data.length ∧ off < 12 * fs.blockSize ∨
      ¬ Stores fs (fs.pool h).inode off data.length ∧ u32 off = iSize (fs.pool h).inode := by
  obtain ⟨hn, hle⟩ := ext2VfsWrite_leaves data hv hf.direct hino hoff
  have hstores := counted_pos_iff (fs.pool h).inode data hv hz hoff
  rw [← hn] at hstores
  have hpos : 0 < fs.blockSize := hv.allocates.serves.blockSize_pos
  have hbs : fs.blockSize ≤ 4096 := hv.allocates.blockSize_le
  have hS := iSize_lt (fs.pool h).inode
  generalize (ext2VfsWrite fs h off data).1 = n at *
  generalize (ext2VfsWrite fs h off data).2 = fs' at *
  by_cases hst : Stores fs (fs.pool h).inode off data.length
  · -- something is written
    have hn0 : 0 < n := hstores.mpr hst
    have hsmall : off < 2 ^ 32 → off < 12 * fs.blockSize := fun hlt => by
      by_contra hge
      exact absurd (le_of_wrapped_block hpos hst.2.1 (not_lt.mp hge)) (not_le.mpr hlt)
    constructor
    · intro ht
      have hsize := ht.size
      rw [if_neg (by omega)] at hsize
      have hlt := iSize_lt (fs'.pool h).inode
      exact Or.inr (Or.inl ⟨hst, hsmall (by omega)⟩)
    · intro hc
      have hlt : off < 12 * fs.blockSize := by
        rcases hc with hin | ⟨-, hlt⟩ | ⟨hno, -⟩
        · exact hsmall (by omega)
        · exact hlt
        · exact absurd hst hno
      have hwr : wrapped fs.blockSize off = off := Nat.mod_eq_of_lt (by omega)
      have hend : off + n ≤ 12 * fs.blockSize := by
        have := hle.bound
        rw [hwr] at this
        omega
      have hu64 : u64 (off + n) = off + n := Nat.mod_eq_of_lt (by omega)
      have hu32 : u32 (off + n) = off + n := Nat.mod_eq_of_lt (by omega)
      have hsize : iSize (fs'.pool h).inode = max (iSize (fs.pool h).inode) (off + n) := by
        rw [hle.size, hu64, hu32]
        split_ifs <;> omega
      refine ⟨fun x hx => hle.bytes hf hpos (by rwa [hwr]), ?_, ?_, by omega⟩
      · rw [if_neg (by omega), hsize]
      · rw [hsize, hle.nodeSize, hu64, hu32]
        split_ifs <;> omega
  · -- nothing is written, but the size may be set
    obtain rfl : n = 0 := by
      by_contra hne
      exact hst (hstores.mp (Nat.pos_of_ne_zero hne))
    have hu64 : u64 (off + 0) = off := Nat.mod_eq_of_lt (by omega)
    have hsize := hle.size
    have hnsize := hle.nodeSize
    rw [hu64, Nat.add_zero] at hsize hnsize
    constructor
    · intro ht
      have hsame := ht.size
      rw [if_pos rfl, hsize] at hsame
      split_ifs at hsame with hgrow
      · exact Or.inr (Or.inr ⟨hst, hsame⟩)
      · exact Or.inl (by omega)
    · intro hc
      have hsame : iSize (fs'.pool h).inode = iSize (fs.pool h).inode := by
        rw [hsize]
        split_ifs with hgrow
        · rcases hc with hin | ⟨hs, -⟩ | ⟨-, heq⟩
          · omega
          · exact absurd hs hst
          · exact heq
        · rfl
      refine ⟨fun x _ => hle.bytes hf hpos (by omega), by rw [if_pos rfl, hsame], ?_, hsame.ge⟩
      rw [hnsize, hsize, hnode]

/-! ## An empty file -/

lemma emptyFiles_writable : Writable emptyFiles where
  allocates := emptyFiles_consistent.valid.allocates
  tables := emptyFiles_consistent.valid.tables
  blockSize := show 1024 ∣ 4096 by omega
  free := fun n hn => ⟨(emptyFiles_consistent.free n hn).1, (emptyFiles_consistent.free n hn).2.1⟩

lemma emptyFiles_ownBlocks : OwnBlocks emptyFiles (emptyFiles.pool 0).inode := by
  have hzero : ∀ i < 15, iBlock (emptyFiles.pool 0).inode i = 0 := by decide +kernel
  refine ⟨⟨fun i hi h0 => absurd (hzero i (by omega)) h0, fun i hi h0 => absurd (hzero i (by omega)) h0,
    fun i hi h0 => absurd (hzero i (by omega)) h0, fun i hi j hj h0 => absurd (hzero i (by omega)) h0⟩,
    fun b hb k h0 => ?_⟩
  refine absurd ?_ h0
  rw [wayBlock, hzero _ (mapPath_fst hb).2, follow_zero]

/-- A byte behind a hole. -/
theorem touchesReported_emptyFiles :
    TouchesReported emptyFiles 0 1024 (ext2VfsWrite emptyFiles 0 1024 [65]).1
      (ext2VfsWrite emptyFiles 0 1024 [65]).2 := by
  refine (touchesReported_iff emptyFiles_writable (fun h => absurd h (by decide))
    emptyFiles_ownBlocks (by decide +kernel) (by decide +kernel) (by norm_num)).mpr
    (Or.inr (Or.inl ⟨⟨by decide, by decide, Or.inr ⟨0, by decide, ?_⟩⟩, by decide⟩))
  rintro (h | h)
  · exact absurd h (by decide)
  · exact absurd (h 6 (by decide)) (by decide +kernel)

/-- **A write of nothing that makes a file longer**: position 20000 lies behind the direct blocks, so
that no byte is written, but the empty file has a size of 20000 bytes afterwards. -/
theorem size_set_without_write :
    Writable emptyFiles ∧ OwnBlocks emptyFiles (emptyFiles.pool 0).inode ∧
      (ext2VfsWrite emptyFiles 0 20000 [65]).1 = 0 ∧
      iSize ((ext2VfsWrite emptyFiles 0 20000 [65]).2.pool 0).inode = 20000 ∧
      ¬ TouchesReported emptyFiles 0 20000 (ext2VfsWrite emptyFiles 0 20000 [65]).1
        (ext2VfsWrite emptyFiles 0 20000 [65]).2 := by
  have hret : (ext2VfsWrite emptyFiles 0 20000 [65]).1 = 0 := by decide +kernel
  have hold : iSize (emptyFiles.pool 0).inode = 0 := by decide +kernel
  have hsize : iSize ((ext2VfsWrite emptyFiles 0 20000 [65]).2.pool 0).inode = 20000 := by
    decide +kernel
  refine ⟨emptyFiles_writable, emptyFiles_ownBlocks, hret, hsize, fun ht => ?_⟩
  have hkept := ht.size
  rw [if_pos hret, hsize, hold] at hkept
  cases hkept

end Bangos.Fs
