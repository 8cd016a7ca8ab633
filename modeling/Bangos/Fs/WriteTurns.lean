import Bangos.Fs.Ext2Faults
import Bangos.Lib.Stores

/-!
# The course of a write

The loop of `ext2_vfs_write` goes through the direct blocks of a file one at a time.  A turn finds
or allocates the block, fills the buffer and hands it to the device, which accepts all of it, a
part or nothing; the loop goes on in any case.  `writeTurns` lists the turns, `TurnOk` says all
that one of them can do on any device, and `WriteRun` what a whole call does: the contents of the
files are changed by the stores of the turns and by nothing else.
-/

namespace Bangos.Fs

open ByteMem Bangos.Drivers Bangos.Mm

variable {fs fs' fs1 : Ext2} {inode inode' inode1 : Inode} {off w w' i n : ℕ} {data : List UInt8}

/-! ## Positions -/

/-- The position for which the code takes an offset: the numbers of the blocks of a file are
reduced to 32 bits. -/
def wrapped (blockSize off : ℕ) : ℕ := off % (2 ^ 32 * blockSize)

lemma place_eq {bs : ℕ} (hbs : bs ∣ 4096) (hoff : off < 2 ^ 64)
    (hw : wrapped bs off + w < 2 ^ 32 * bs) :
    u32 (u64 (off + w) / bs) = (wrapped bs off + w) / bs ∧
      u32 (u64 (off + w) % bs) = (wrapped bs off + w) % bs := by
  have hpos : 0 < bs := Nat.pos_of_dvd_of_pos hbs (by norm_num)
  have hle : bs ≤ 4096 := Nat.le_of_dvd (by norm_num) hbs
  obtain ⟨m, hm⟩ : 2 ^ 32 * bs ∣ 2 ^ 64 := by
    refine Dvd.dvd.trans (Nat.mul_dvd_mul_left _ hbs) ?_
    norm_num
  have hsplit : 2 ^ 32 * bs * (off / (2 ^ 32 * bs)) + wrapped bs off = off := Nat.div_add_mod _ _
  generalize off / (2 ^ 32 * bs) = q at hsplit
  generalize wrapped bs off = r at hsplit hw ⊢
  have hqm : q < m := by
    by_contra hge
    have := Nat.mul_le_mul_left (2 ^ 32 * bs) (not_lt.mp hge)
    omega
  have hlt : off + w < 2 ^ 64 := by
    have := Nat.mul_le_mul_left (2 ^ 32 * bs) (Nat.succ_le_of_lt hqm)
    rw [Nat.mul_succ] at this
    omega
  have hu : u64 (off + w) = 2 ^ 32 * bs * q + (r + w) := by
    rw [← hsplit] at hlt ⊢
    rw [u64, Nat.mod_eq_of_lt (by exact hlt)]
    omega
  have hmul : 2 ^ 32 * bs * q + (r + w) = (r + w) + bs * (2 ^ 32 * q) := by ring
  have hdiv : (r + w) / bs < 2 ^ 32 := by
    rw [Nat.div_lt_iff_lt_mul hpos]
    exact hw
  constructor
  · rw [hu, hmul, Nat.add_mul_div_left _ _ hpos]
    change ((r + w) / bs + 2 ^ 32 * q) % 2 ^ 32 = _
    rw [Nat.add_mul_mod_self_left, Nat.mod_eq_of_lt hdiv]
  · have hmod : (r + w) % bs < bs := Nat.mod_lt _ hpos
    rw [hu, hmul, Nat.add_mul_mod_self_left, u32, Nat.mod_eq_of_lt (by omega)]

/-! ## Turns -/

/-- A turn of the loop of `ext2_vfs_write`. -/
structure WriteTurn where
  /-- The block of the file. -/
  blk : ℕ
  /-- The block of the disk. -/
  phys : ℕ
  /-- The block has been allocated in this turn. -/
  fresh : Bool
  /-- The number of bytes written before. -/
  start : ℕ
  /-- Where in the block the bytes go. -/
  off : ℕ
  /-- The number of bytes that the turn counts. -/
  len : ℕ
  /-- The number of bytes of the block that the device accepts. -/
  moved : ℕ
  /-- `blk_buf` when it is written. -/
  buf : ℕ → UInt8

/-- What the turn stores. -/
def WriteTurn.store (t : WriteTurn) : Store := ⟨t.phys, t.moved, t.buf⟩

/-- Byte `y` of the block is one of those that the turn counts. -/
def WriteTurn.Counts (t : WriteTurn) (y : ℕ) : Prop := t.off ≤ y ∧ y < t.off + t.len

/-- The turns of the loop of `ext2_vfs_write`. -/
def writeTurns (offset : ℕ) (data : List UInt8) : ℕ → Ext2 → Inode → ℕ → List WriteTurn
  | 0, _, _, _ => []
  | fuel + 1, fs, inode, written =>
    if written < data.length then
      let curPos := u64 (offset + written)
      let fileBlk := u32 (curPos / fs.blockSize)
      let blkOffset := u32 (curPos % fs.blockSize)
      let chunk := min (fs.blockSize - blkOffset) (data.length - written)
      if fileBlk < 12 then
        match writePrepare fs inode fileBlk with
        | (none, _) => []
        | (some (inode', fs'), _) =>
          let buf := copy fs'.writeBuf blkOffset (fun x => data.getD x 0) written chunk
          let phys := iBlock inode' fileBlk
          ⟨fileBlk, phys, decide (iBlock inode fileBlk = 0), written, blkOffset, chunk,
              { fs' with writeBuf := buf }.moved phys, buf⟩ ::
            writeTurns offset data fuel (ext2WriteBlock { fs' with writeBuf := buf } phys buf).2
              inode' (written + chunk)
      else []
    else []

/-- What the loop relies on: free blocks and the direct blocks of the file hold no metadata. -/
structure Ready (fs : Ext2) (inode : Inode) : Prop where
  serves : fs.shape.Serves
  blockSize : fs.blockSize ∣ 4096
  free : ∀ n, FreeBlock fs n → fs.shape.Plain n
  direct : ∀ i < 12, iBlock inode i ≠ 0 → fs.shape.Plain (iBlock inode i)

lemma bitmap_ne_of_plain (hn : fs.shape.Plain n) : ∀ g < fs.groupCount, fs.shape.blockBitmap g ≠ n :=
  fun g hg => hn g 0 ⟨hg, Nat.lt_of_lt_of_le Nat.zero_lt_two (Nat.le_add_right _ _)⟩

/-! ## The first part of a turn -/

/-- The block of a turn has been found or allocated, and the buffer has been filled: with zeros, or
with the block if it could be read. -/
structure Found (fs : Ext2) (inode : Inode) (i : ℕ) (fs1 : Ext2) (inode1 : Inode) : Prop where
  shape : fs1.shape = fs.shape
  pool : fs1.pool = fs.pool
  poolCount : fs1.poolCount = fs.poolCount
  others : ∀ n, (∀ g < fs.groupCount, fs.shape.blockBitmap g ≠ n) →
    diskBlock fs1 n = diskBlock fs n
  bits : ∀ g b, entryBit fs .block g b = true → entryBit fs1 .block g b = true
  ne_zero : iBlock inode1 i ≠ 0
  pointers : ∀ j, j ≠ i → iBlock inode1 j = iBlock inode j
  rest : ∀ x, x < 28 ∨ 32 ≤ x ∧ x < 40 ∨ 88 ≤ x → inode1 x = inode x
  fresh : iBlock inode i = 0 → FreeBlock fs (iBlock inode1 i) ∧ ∀ y < fs.blockSize, fs1.writeBuf y = 0
  old : iBlock inode i ≠ 0 → inode1 = inode ∧ (fs.answers (iBlock inode i) = true →
    ∀ y < fs.blockSize, fs1.writeBuf y = diskBlock fs (iBlock inode i) y)
  steady : fs.layout.Allocates → fs1.layout = fs.layout
  taken : fs.layout.Allocates → iBlock inode i = 0 → ¬ FreeBlock fs1 (iBlock inode1 i)

/-- A block that has been allocated on a working device is not free any more. -/
lemma ext2AllocBlock_taken (hv : fs.layout.Allocates) : (ext2AllocBlock fs).2.layout = fs.layout ∧
    ((ext2AllocBlock fs).1 ≠ 0 → ¬ FreeBlock (ext2AllocBlock fs).2 (ext2AllocBlock fs).1) := by
  rcases allocLoop_result hv .block fs.groupCount 0 (by omega) with
    ⟨h, -⟩ | ⟨g, b, -, hg, hb, -, -, h⟩
  · rw [ext2AllocBlock, h]
    exact ⟨rfl, fun h0 => absurd rfl h0⟩
  · rw [ext2AllocBlock, h]
    exact ⟨take_layout .., fun _ hf => (freeBlock_take hv (by omega) hb hf).2 rfl⟩

lemma next_layout (hv : fs.layout.Serves) : fs.next.layout = fs.layout := by
  have h : fs.dev.answered = fs.dev := answered_eq hv
  rw [Ext2.next, h]

lemma answers_of_serves (hv : fs.layout.Serves) (hn : fs.layout.OnDisk n) : fs.answers n = true :=
  congrArg Prod.fst (transfer_eq hv hn)

/-- **The first part of a turn** on any device. -/
lemma writePrepare_any (hs : fs.shape.Serves) (hi : i < 12) :
    (∃ fs1, writePrepare fs inode i = (none, fs1) ∧ Allocated fs 0 fs1 ∧
        (fs.layout.Allocates → fs1.layout = fs.layout)) ∨
      ∃ fs1 inode1 r, writePrepare fs inode i = (some (inode1, fs1), r) ∧
        Found fs inode i fs1 inode1 := by
  unfold writePrepare
  by_cases h0 : iBlock inode i = 0
  · rw [if_pos h0]
    have ha : Allocated fs (ext2AllocBlock fs).1 (ext2AllocBlock fs).2 :=
      allocLoop_any hs fs.groupCount 0 (by omega)
    have htaken := fun hv => @ext2AllocBlock_taken fs hv
    generalize ext2AllocBlock fs = a at ha htaken
    obtain ⟨r, fs1⟩ := a
    dsimp only at ha htaken ⊢
    by_cases hr : r = 0
    · rw [if_pos hr]
      exact Or.inl ⟨fs1, rfl, hr ▸ ha, fun hv => (htaken hv).1⟩
    · rw [if_neg hr]
      have hlt : r < 2 ^ 32 := by
        obtain ⟨g, b, -, -, -, rfl⟩ := ha.free hr
        exact Nat.mod_lt _ (by norm_num)
      have hself : ∀ c, iBlock (setBlocks (setBlock inode i r) c) i = r := fun c =>
        iBlock_withBlock_self hlt
      refine Or.inr ⟨_, _, _, rfl, ⟨ha.shape, ha.pool, ha.poolCount, ha.others, ha.bits, ?_,
        fun j hj => iBlock_withBlock_of_ne hj, fun x hx => ?_, fun _ => ⟨?_, fun y hy => ?_⟩,
        fun h => absurd h0 h, fun hv => (htaken hv).1, fun hv _ => ?_⟩⟩
      · rwa [hself]
      · unfold setBlocks setBlock
        rw [putLe_apply_of_not_mem (by omega), putLe_apply_of_not_mem (by omega)]
      · rw [hself]
        exact ha.free hr
      · exact fill_apply_of_mem (by omega) (by omega)
      · rw [hself]
        exact (htaken hv).2 hr
  · rw [if_neg h0, ext2ReadBlock_any hs]
    refine Or.inr ⟨_, _, _, rfl, ⟨rfl, rfl, rfl, fun _ _ => rfl, fun _ _ h => h, h0, fun _ _ => rfl,
      fun _ _ => rfl, fun h => absurd h h0, fun _ => ⟨rfl, fun hans y hy => ?_⟩,
      fun hv => next_layout hv.serves, fun _ h => absurd h h0⟩⟩
    exact copy_zero_apply (by rwa [moved_of_answers hs hans])

/-! ## A turn -/

/-- **All that a turn can do**: it counts bytes of one direct block of the file, which is its own
or has been free, and the device accepts a part of the buffer. -/
structure TurnOk (off : ℕ) (data : List UInt8) (fs : Ext2) (inode : Inode) (w : ℕ) (t : WriteTurn)
    (fs1 : Ext2) (inode1 : Inode) : Prop where
  start : t.start = w
  more : w < data.length
  blk : t.blk = (wrapped fs.blockSize off + w) / fs.blockSize
  blk_lt : t.blk < 12
  offset : t.off = (wrapped fs.blockSize off + w) % fs.blockSize
  len : t.len = min (fs.blockSize - t.off) (data.length - w)
  ne_zero : t.phys ≠ 0
  plain : fs.shape.Plain t.phys
  pointer : iBlock inode1 t.blk = t.phys
  pointers : ∀ j, j ≠ t.blk → iBlock inode1 j = iBlock inode j
  rest : ∀ x, x < 28 ∨ 32 ≤ x ∧ x < 40 ∨ 88 ≤ x → inode1 x = inode x
  kind : t.fresh = true ∧ iBlock inode t.blk = 0 ∧ FreeBlock fs t.phys ∨
    t.fresh = false ∧ inode1 = inode
  counted : ∀ y, t.Counts y → t.buf y = data.getD (w + (y - t.off)) 0
  cleared : t.fresh = true → ∀ y < fs.blockSize, ¬ t.Counts y → t.buf y = 0
  kept : t.fresh = false → fs.answers t.phys = true → ∀ y < fs.blockSize, ¬ t.Counts y →
    t.buf y = diskBlock fs t.phys y
  moved_le : t.moved ≤ fs.blockSize
  shape : fs1.shape = fs.shape
  pool : fs1.pool = fs.pool
  poolCount : fs1.poolCount = fs.poolCount
  bits : ∀ g < fs.groupCount, ∀ b, entryBit fs .block g b = true → entryBit fs1 .block g b = true
  others : ∀ n, (∀ g < fs.groupCount, fs.shape.blockBitmap g ≠ n) →
    diskBlock fs1 n = applyStores [t.store] (diskBlock fs) n
  steady : fs.layout.Allocates → fs1.layout = fs.layout
  taken : fs.layout.Allocates → t.fresh = true → ¬ FreeBlock fs1 t.phys
  complete : fs.layout.Allocates → fs.layout.OnDisk t.phys →
    t.moved = fs.blockSize ∧ fs.answers t.phys = true

/-- The buffer goes to the block of the turn, as far as the device gets. -/
def Ext2.written (fs1 : Ext2) (n : ℕ) (buf : ℕ → UInt8) : Ext2 :=
  ({ fs1 with writeBuf := buf }.putPart n buf ({ fs1 with writeBuf := buf }.moved n)).next

section Turn

variable {o c : ℕ} {buf : ℕ → UInt8} (hr : Ready fs inode)
  (hf : Found fs inode i fs1 inode1)
include hr hf

lemma Found.plain (hi : i < 12) : fs.shape.Plain (iBlock inode1 i) := by
  by_cases h0 : iBlock inode i = 0
  · exact hr.free _ (hf.fresh h0).1
  · rw [(hf.old h0).1]
    exact hr.direct i hi h0

lemma Found.serves : ({ fs1 with writeBuf := buf } : Ext2).shape.Serves := by
  change fs1.shape.Serves
  rw [hf.shape]
  exact hr.serves

lemma Found.moved_le_blockSize (buf : ℕ → UInt8) :
    ({ fs1 with writeBuf := buf } : Ext2).moved (iBlock inode1 i) ≤ fs1.blockSize :=
  moved_le (hf.serves hr) _

omit hr in
/-- On a working device the store leaves the geometry alone. -/
lemma Found.written_layout (hv : fs.layout.Allocates) :
    (fs1.written (iBlock inode1 i) buf).layout = fs1.layout := by
  refine next_layout ?_
  change fs1.layout.Serves
  rw [hf.steady hv]
  exact hv.serves

/-- The block of the turn is no bitmap, so the store takes no block. -/
lemma Found.written_bits (hi12 : i < 12) {g : ℕ} (hg : g < fs.groupCount) (b : ℕ) :
    entryBit (fs1.written (iBlock inode1 i) buf) .block g b = entryBit fs1 .block g b := by
  refine congrArg (bitAt · b) (diskBlock_putPart_of_ne (hf.moved_le_blockSize hr buf) ?_)
  have hb := bitmapBlock_of_shape hf.shape g
  exact fun h => bitmap_ne_of_plain (hf.plain hr hi12) g hg (hb.symm.trans h)

/-- A block on a working device is stored whole. -/
lemma Found.written_whole (hv : fs.layout.Allocates) (hdisk : fs.layout.OnDisk (iBlock inode1 i)) :
    ({ fs1 with writeBuf := buf } : Ext2).moved (iBlock inode1 i) = fs.blockSize ∧
      fs.answers (iBlock inode1 i) = true := by
  have hbs : fs1.blockSize = fs.blockSize := congrArg Layout.blockSize hf.shape
  have hserves : ({ fs1 with writeBuf := buf } : Ext2).layout.Serves := by
    change fs1.layout.Serves
    rw [hf.steady hv]
    exact hv.serves
  have hdisk1 : ({ fs1 with writeBuf := buf } : Ext2).layout.OnDisk (iBlock inode1 i) := by
    change fs1.layout.OnDisk _
    rw [hf.steady hv]
    exact hdisk
  refine ⟨?_, answers_of_serves hv.serves hdisk⟩
  exact (moved_of_answers (hf.serves hr) (answers_of_serves hserves hdisk1)).trans hbs

lemma Found.turn (hmore : w < data.length) (hi : i = (wrapped fs.blockSize off + w) / fs.blockSize)
    (hi12 : i < 12) (ho : o = (wrapped fs.blockSize off + w) % fs.blockSize)
    (hc : c = min (fs.blockSize - o) (data.length - w))
    (hbuf : buf = copy fs1.writeBuf o (fun x => data.getD x 0) w c) :
    TurnOk off data fs inode w ⟨i, iBlock inode1 i, decide (iBlock inode i = 0), w, o, c,
        { fs1 with writeBuf := buf }.moved (iBlock inode1 i), buf⟩
      (ext2WriteBlock { fs1 with writeBuf := buf } (iBlock inode1 i) buf).2 inode1 := by
  have hplain := hf.plain hr hi12
  have hmap := bitmap_ne_of_plain hplain
  have hbs : fs1.blockSize = fs.blockSize := congrArg Layout.blockSize hf.shape
  have hle := hf.moved_le_blockSize hr buf
  have hcount : ∀ y, ¬ (o ≤ y ∧ y < o + c) → buf y = fs1.writeBuf y := by
    intro y hy
    rw [hbuf, copy_apply_of_not_mem (by omega)]
  rw [ext2WriteBlock_any (hf.serves hr)]
  change TurnOk _ _ _ _ _ _ (fs1.written (iBlock inode1 i) buf) _
  exact
    { start := rfl
      more := hmore
      blk := hi
      blk_lt := hi12
      offset := ho
      len := hc
      ne_zero := hf.ne_zero
      plain := hplain
      pointer := rfl
      pointers := hf.pointers
      rest := hf.rest
      kind := by
        by_cases h0 : iBlock inode i = 0
        · exact Or.inl ⟨decide_eq_true h0, h0, (hf.fresh h0).1⟩
        · exact Or.inr ⟨decide_eq_false h0, (hf.old h0).1⟩
      counted := by
        intro y hy
        have hy' : o ≤ y ∧ y < o + c := hy
        obtain ⟨z, rfl⟩ := Nat.exists_eq_add_of_le hy'.1
        change buf (o + z) = _
        rw [hbuf, copy_apply_of_mem (by omega), Nat.add_sub_cancel_left]
      cleared := by
        intro h0 y hy hout
        exact (hcount y hout).trans ((hf.fresh (of_decide_eq_true h0)).2 y hy)
      kept := by
        intro h0 hans y hy hout
        obtain ⟨rfl, hread⟩ := hf.old (of_decide_eq_false h0)
        exact (hcount y hout).trans (hread hans y hy)
      moved_le := hbs ▸ hle
      shape := hf.shape
      pool := hf.pool
      poolCount := hf.poolCount
      bits := by
        intro g hg b hb
        rw [hf.written_bits hr hi12 hg b]
        exact hf.bits g b hb
      others := by
        intro n hn
        by_cases hphys : n = iBlock inode1 i
        · subst hphys
          refine .trans (diskBlock_putPart_self hle) (.trans ?_ (applyStores_one_self _ _).symm)
          exact congrArg (copy · 0 buf 0 _) (hf.others _ hmap)
        · refine .trans (diskBlock_putPart_of_ne hle hphys) (.trans ?_ (applyStores_one_of_ne ?_).symm)
          · exact hf.others n hn
          · exact hphys
      steady := fun hv => (hf.written_layout hv).trans (hf.steady hv)
      taken := by
        intro hv h0 hfree
        have hgc : fs1.groupCount = fs.groupCount := congrArg Layout.groupCount hf.shape
        have hfree1 : FreeBlock fs1 (iBlock inode1 i) := by
          refine freeBlock_of_bits ?_ (fun g hg b hb => ?_) hfree
          · rfl
          · exact (hf.written_bits hr hi12 (by rwa [← hgc]) b).trans hb
        exact hf.taken hv (of_decide_eq_true h0) hfree1
      complete := fun hv hdisk => hf.written_whole hr hv hdisk }

end Turn

lemma TurnOk.ready {t : WriteTurn} (h : TurnOk off data fs inode w t fs1 inode1)
    (hr : Ready fs inode) : Ready fs1 inode1 where
  serves := by
    rw [h.shape]
    exact hr.serves
  blockSize := by
    have hbs : fs1.blockSize = fs.blockSize := congrArg Layout.blockSize h.shape
    rw [hbs]
    exact hr.blockSize
  free := by
    intro n hn
    rw [h.shape]
    exact hr.free n (freeBlock_of_bits h.shape h.bits hn)
  direct := by
    intro i hi h0
    rw [h.shape]
    by_cases hblk : i = t.blk
    · rw [hblk, h.pointer]
      exact h.plain
    · rw [h.pointers i hblk] at h0 ⊢
      exact hr.direct i hi h0

lemma TurnOk.end_le {t : WriteTurn} (h : TurnOk off data fs inode w t fs1 inode1)
    (hr : Ready fs inode) :
    wrapped fs.blockSize off + (w + t.len) ≤ t.blk * fs.blockSize + fs.blockSize := by
  have hlen := h.len
  have hmod : t.off < fs.blockSize := by
    rw [h.offset]
    exact Nat.mod_lt _ hr.serves.blockSize_pos
  have hsplit : t.blk * fs.blockSize + t.off = wrapped fs.blockSize off + w := by
    rw [h.blk, h.offset, Nat.mul_comm, Nat.div_add_mod]
  omega

lemma TurnOk.next_lt {t : WriteTurn} (h : TurnOk off data fs inode w t fs1 inode1)
    (hr : Ready fs inode) :
    wrapped fs1.blockSize off + (w + t.len) < 2 ^ 32 * fs1.blockSize := by
  have hbs : fs1.blockSize = fs.blockSize := congrArg Layout.blockSize h.shape
  rw [hbs]
  have hpos : 0 < fs.blockSize := hr.serves.blockSize_pos
  have hend := h.end_le hr
  have hblk : t.blk * fs.blockSize ≤ 11 * fs.blockSize :=
    Nat.mul_le_mul_right _ (Nat.le_of_lt_succ h.blk_lt)
  omega

/-! ## A whole call -/

/-- **The run of the loop**: a list of turns, and at the end perhaps an allocation that has failed.
-/
inductive WriteRun (off : ℕ) (data : List UInt8) :
    Ext2 → Inode → ℕ → List WriteTurn → Ext2 → Inode → Prop
  | stop {fs fs' : Ext2} {inode : Inode} {w : ℕ} (ha : Allocated fs 0 fs')
      (hl : fs.layout.Allocates → fs'.layout = fs.layout) :
      WriteRun off data fs inode w [] fs' inode
  | turn {fs fs1 fs' : Ext2} {inode inode1 inode' : Inode} {w : ℕ} {t : WriteTurn}
      {ts : List WriteTurn} (ht : TurnOk off data fs inode w t fs1 inode1)
      (hrun : WriteRun off data fs1 inode1 (w + t.len) ts fs' inode') :
      WriteRun off data fs inode w (t :: ts) fs' inode'

/-- The number of bytes that turns count. -/
def counted (ts : List WriteTurn) : ℕ := (ts.map WriteTurn.len).sum

lemma counted_cons (t : WriteTurn) (ts : List WriteTurn) : counted (t :: ts) = t.len + counted ts := by
  rw [counted, counted, List.map_cons, List.sum_cons]

/-- **The loop of `ext2_vfs_write`** on any device. -/
theorem vfsWriteLoop_run (data : List UInt8) (hoff : off < 2 ^ 64) (fuel : ℕ) (hr : Ready fs inode)
    (hw : wrapped fs.blockSize off + w < 2 ^ 32 * fs.blockSize) :
    ∃ fs' inode', vfsWriteLoop off data fuel fs inode w =
        (fs', inode', w + counted (writeTurns off data fuel fs inode w)) ∧
      WriteRun off data fs inode w (writeTurns off data fuel fs inode w) fs' inode' := by
  have hstop : WriteRun off data fs inode w [] fs inode := .stop (.none fs) fun _ => rfl
  induction fuel generalizing fs inode w with
  | zero => exact ⟨fs, inode, rfl, hstop⟩
  | succ fuel ih =>
    obtain ⟨hblk, hin⟩ := place_eq hr.blockSize hoff hw
    rw [vfsWriteLoop, writeTurns]
    dsimp only
    rw [hblk, hin]
    split_ifs with hmore h12
    · rcases writePrepare_any hr.serves h12 with
        ⟨fs1, hp, ha, hl⟩ | ⟨fs1, inode1, r, hp, hf⟩
      · rw [hp]
        exact ⟨fs1, inode, rfl, .stop ha hl⟩
      · rw [hp]
        have ht := hf.turn hr hmore rfl h12 rfl rfl rfl
        obtain ⟨fs', inode', hloop, hrun⟩ :=
          ih (ht.ready hr) (ht.next_lt hr) (.stop (.none _) fun _ => rfl)
        refine ⟨fs', inode', hloop.trans ?_, .turn ht hrun⟩
        rw [Nat.add_assoc, ← counted_cons]
    · exact ⟨fs, inode, rfl, hstop⟩
    · exact ⟨fs, inode, rfl, hstop⟩

end Bangos.Fs
