import Bangos.Lib.Bitmap
import Bangos.Lib.Runs
import Bangos.Mm.Frames

/-!
# The packed frame bitmap

`page_bitmap` is an array of bytes that `alloc_pages` reads through two views: the byte and bit of
one frame, and 64-bit words for its fast path.  This file models the allocator on the bytes
themselves, shows that it computes what the allocator of `Mm.Memory` computes on single bits, and
follows whole runs of allocations and frees with a ledger of the frames handed out.
-/

namespace Bangos.Mm

open ByteMem Runs

/-- The bytes the frame allocator works on. -/
structure Pool where
  /-- The bytes from `page_bitmap` on. -/
  bytes : ℕ → UInt8
  /-- Physical memory. -/
  phys : ℕ → UInt8

namespace Pool

variable {p p' : Pool} {b : ℕ → UInt8} {count i j k n a : ℕ}

/-- `bm64[w]`, the view of the bitmap as `uint64_t` words. -/
def wordAt (b : ℕ → UInt8) (w : ℕ) : ℕ := le b (8 * w) 8

/-- The fast path of `alloc_pages`, which skips words equal to `~0ULL`, with the frames whose bits it
has looked at: a word has those of 64 frames. -/
def skipFullLog (b : ℕ → UInt8) : ℕ → ℕ → ℕ × List ℕ
  | 0, i => (i, [])
  | f + 1, i =>
    if i ≤ maxPages - 64 then
      let word := (List.range 64).map fun k => i + k
      if wordAt b (i / 64) = 256 ^ 8 - 1 then
        let r := skipFullLog b f (i + 64)
        (r.1, word ++ r.2)
      else (i, word)
    else (i, [])

/-- `skipFullLog` without its record. -/
def skipFull (b : ℕ → UInt8) (f i : ℕ) : ℕ := (skipFullLog b f i).1

/-- The inner loop of `alloc_pages`, which tests `page_bitmap[k / 8] & (1 << (k % 8))`, with the frames
whose bits it has looked at. -/
def firstUsedLog (b : ℕ → UInt8) (i : ℕ) : ℕ → ℕ → Option ℕ × List ℕ
  | _, 0 => (none, [])
  | j, n + 1 =>
    if bitAt b (i + j) then (some j, [i + j])
    else
      let r := firstUsedLog b i (j + 1) n
      (r.1, (i + j) :: r.2)

/-- `firstUsedLog` without its record. -/
def firstUsed (b : ℕ → UInt8) (i j n : ℕ) : Option ℕ := (firstUsedLog b i j n).1

/-- The search loop of `alloc_pages`, with the frames whose bits it has looked at. -/
def allocSearchLog (b : ℕ → UInt8) (count : ℕ) : ℕ → ℕ → Option ℕ × List ℕ
  | 0, _ => (none, [])
  | f + 1, i =>
    if i ≤ lastStart count then
      let fast := i % 64 = 0 ∧ count ≤ 64
      let skip := if fast then skipFullLog b (maxPages / 64 + 1) i else (i, [])
      if fast ∧ skip.1 > lastStart count then (none, skip.2)
      else
        let run := firstUsedLog b skip.1 0 count
        match run.1 with
        | none => (some skip.1, skip.2 ++ run.2)
        | some j =>
          let r := allocSearchLog b count f (skip.1 + j + 1)
          (r.1, skip.2 ++ run.2 ++ r.2)
    else (none, [])

/-- `allocSearchLog` without its record. -/
def allocSearch (b : ℕ → UInt8) (count f i : ℕ) : Option ℕ := (allocSearchLog b count f i).1

/-- The loop of `alloc_pages` that marks the frames of a run. -/
def markRun (b : ℕ → UInt8) (i : ℕ) : ℕ → ℕ → UInt8
  | 0 => b
  | n + 1 => setBitAt (markRun b i n) (i + n)

/-- `alloc_pages`. -/
def allocPages (p : Pool) (count : ℕ) : Option ℕ × Pool :=
  if count = 0 then (none, p)
  else match allocSearch p.bytes count (lastStart count + 1) 0 with
    | none => (none, p)
    | some i =>
      let addr := u64 (physMemoryBase + i * pageSize)
      (some addr, { bytes := markRun p.bytes i count
                    phys := fill p.phys addr (u64 (count * pageSize)) 0 })

/-- `free_page`. -/
def freePage (p : Pool) (addr : ℕ) : Pool :=
  if addr < physMemoryBase then p
  else
    let index := (addr - physMemoryBase) / pageSize
    if index < maxPages then { p with bytes := clearBitAt p.bytes index } else p

/-- `mm_get_free_bytes`. -/
def mmGetFreeBytes (p : Pool) : ℕ :=
  ((List.range maxPages).countP fun i => !bitAt p.bytes i) * pageSize

/-- The bits of the pool, as the other models of the memory subsystem see them. -/
def view (p : Pool) (kernelPml4 : ℕ) : Mem :=
  { phys := p.phys, pageBitmap := bitAt p.bytes, kernelPml4 := kernelPml4 }

/-! ## Bytes and words agree with single bits -/

lemma wordAt_eq_ones_iff (hi : i % 64 = 0) :
    wordAt b (i / 64) = 256 ^ 8 - 1 ↔ fullWord (bitAt b) i = true := by
  rw [wordAt, le_eq_ones_iff, fullWord, List.all_eq_true]
  constructor
  · intro h k hk
    have := h k (List.mem_range.mp hk)
    rwa [show 8 * (8 * (i / 64)) + k = i + k by omega] at this
  · intro h k hk
    rw [show 8 * (8 * (i / 64)) + k = i + k by omega]
    exact h k (List.mem_range.mpr hk)

lemma skipFull_eq (b : ℕ → UInt8) (f : ℕ) (hi : i % 64 = 0) :
    skipFull b f i = Mm.skipFull (bitAt b) f i := by
  unfold skipFull
  induction f generalizing i with
  | zero => rfl
  | succ f ih =>
    have hword := wordAt_eq_ones_iff (b := b) hi
    rw [skipFullLog, Mm.skipFull, ← ih (show (i + 64) % 64 = 0 by omega)]
    by_cases hle : i ≤ maxPages - 64
    · by_cases hw : wordAt b (i / 64) = 256 ^ 8 - 1
      · rw [if_pos hle, if_pos hw, if_pos ⟨hle, hword.mp hw⟩]
      · rw [if_pos hle, if_neg hw, if_neg fun h => hw (hword.mpr h.2)]
    · rw [if_neg hle, if_neg fun h => hle h.1]

lemma firstUsed_eq (b : ℕ → UInt8) (i j n : ℕ) :
    firstUsed b i j n = Mm.firstUsed (bitAt b) i j n := by
  unfold firstUsed
  induction n generalizing j with
  | zero => rfl
  | succ n ih =>
    rw [firstUsedLog, Mm.firstUsed, ← ih]
    split_ifs <;> rfl

lemma allocSearch_eq (b : ℕ → UInt8) (count f i : ℕ) :
    allocSearch b count f i = Mm.allocSearch (bitAt b) count f i := by
  unfold allocSearch
  induction f generalizing i with
  | zero => rfl
  | succ f ih =>
    -- both searches test the run at the same place
    have hstart : (if i % 64 = 0 ∧ count ≤ 64 then skipFullLog b (maxPages / 64 + 1) i
        else (i, [])).1 =
        if i % 64 = 0 ∧ count ≤ 64 then Mm.skipFull (bitAt b) (maxPages / 64 + 1) i else i := by
      split_ifs with hfast
      · exact skipFull_eq b _ hfast.1
      · rfl
    have hrun : ∀ s, (firstUsedLog b s 0 count).1 = Mm.firstUsed (bitAt b) s 0 count :=
      fun s => firstUsed_eq b s 0 count
    rw [allocSearchLog, Mm.allocSearch]
    simp only [hstart, hrun]
    generalize (if i % 64 = 0 ∧ count ≤ 64 then Mm.skipFull (bitAt b) (maxPages / 64 + 1) i else i) = s
    by_cases hle : i ≤ lastStart count
    · rw [if_pos hle, if_pos hle]
      by_cases hpast : (i % 64 = 0 ∧ count ≤ 64) ∧ s > lastStart count
      · rw [if_pos hpast, if_pos hpast]
      · rw [if_neg hpast, if_neg hpast]
        cases Mm.firstUsed (bitAt b) s 0 count with
        | none => rfl
        | some x => exact ih _
    · rw [if_neg hle, if_neg hle]

lemma bitAt_markRun (b : ℕ → UInt8) (i n : ℕ) :
    bitAt (markRun b i n) = fun k => if i ≤ k ∧ k < i + n then true else bitAt b k := by
  induction n with
  | zero =>
    funext k
    rw [markRun, if_neg (by omega)]
  | succ n ih =>
    funext k
    rw [markRun, bitAt_setBitAt, ih]
    by_cases hk : k = i + n
    · simp [hk]
    · have hiff : (i ≤ k ∧ k < i + n) ↔ (i ≤ k ∧ k < i + (n + 1)) := by omega
      simp only [hk, decide_false, Bool.false_or, hiff]

/-- **The packed allocator refines the allocator on bits**: same address, same bits after. -/
theorem view_allocPages (p : Pool) (count t : ℕ) :
    Mm.allocPages (p.view t) count =
      ((allocPages p count).1, (allocPages p count).2.view t) := by
  unfold allocPages Mm.allocPages
  rw [allocSearch_eq]
  by_cases h0 : count = 0
  · rw [if_pos h0, if_pos h0]
  · rw [if_neg h0, if_neg h0]
    show (match Mm.allocSearch (bitAt p.bytes) count (lastStart count + 1) 0 with
      | none => _ | some i => _) = _
    split
    · rfl
    · simp only [view, bitAt_markRun]

/-- **The packed `free_page` refines `free_page` on bits.** -/
theorem view_freePage (p : Pool) (addr t : ℕ) :
    Mm.freePage (p.view t) addr = (freePage p addr).view t := by
  have hbits : ∀ k, bitAt (clearBitAt p.bytes k) = Function.update (bitAt p.bytes) k false := by
    intro k
    funext x
    rw [bitAt_clearBitAt, Function.update_apply]
    by_cases hx : x = k <;> simp [hx]
  unfold freePage Mm.freePage
  by_cases hlow : addr < physMemoryBase
  · rw [if_pos hlow, if_pos hlow]
  rw [if_neg hlow, if_neg hlow]
  dsimp only
  by_cases hin : (addr - physMemoryBase) / pageSize < maxPages
  · rw [if_pos hin, if_pos hin, view, view, hbits]
  · rw [if_neg hin, if_neg hin]

lemma view_mmGetFreeBytes (p : Pool) (t : ℕ) : Mm.mmGetFreeBytes (p.view t) = mmGetFreeBytes p := rfl

end Pool

/-! ## Whole runs of the allocator -/

/-- A call of the frame allocator. -/
inductive FrameEvent where
  /-- `alloc_pages(count)`. -/
  | alloc (count : ℕ)
  /-- `free_page(addr)`. -/
  | free (addr : ℕ)

/-- The requests that ask for some frames and for no more than the pool has. -/
def FrameEvent.Sized : FrameEvent → Prop
  | .alloc count => 1 ≤ count ∧ count ≤ maxPages
  | .free _ => True

/-- The pool, with the addresses of the frames returned and not freed since. -/
structure Ledger where
  pool : Pool
  live : Finset ℕ

/-- The addresses of the `count` frames from `a` on. -/
def framesAt (a count : ℕ) : Finset ℕ := (Finset.range count).image fun j => a + j * pageSize

namespace Ledger

variable {l : Ledger} {count k x : ℕ}

/-- Every bit of the bitmap clear, as `mm_init` leaves it; `oob` are the bytes behind it. -/
def allFree (oob phys : ℕ → UInt8) : Ledger :=
  { pool := { bytes := fun x => if x < maxPages / 8 then 0 else oob x, phys := phys }
    live := ∅ }

/-- One call: the run that is returned becomes live, a freed frame no longer is. -/
def step (l : Ledger) : FrameEvent → Ledger
  | .alloc count =>
    match l.pool.allocPages count with
    | (none, p) => { pool := p, live := l.live }
    | (some a, p) => { pool := p, live := l.live ∪ framesAt a count }
  | .free addr => { pool := l.pool.freePage addr, live := l.live.erase (frameOf addr) }

lemma step_alloc_none {p : Pool} (h : l.pool.allocPages count = (none, p)) :
    l.step (.alloc count) = { pool := p, live := l.live } := by
  simp only [step, h]

lemma step_alloc_some {p : Pool} {a : ℕ} (h : l.pool.allocPages count = (some a, p)) :
    l.step (.alloc count) = { pool := p, live := l.live ∪ framesAt a count } := by
  simp only [step, h]

/-- The live frames are the frames of the pool whose bit is set. -/
def Balanced (l : Ledger) : Prop :=
  ∀ x, x ∈ l.live ↔ ∃ k < maxPages, bitAt l.pool.bytes k = true ∧ frameAddr k = x

lemma frameAddr_injective : Function.Injective frameAddr := by
  intro i j h
  unfold frameAddr pageSize at h
  omega

lemma Balanced.mem_iff (h : Balanced l) (hk : k < maxPages) :
    frameAddr k ∈ l.live ↔ bitAt l.pool.bytes k = true := by
  rw [h]
  constructor
  · rintro ⟨i, -, hi, heq⟩
    rwa [← frameAddr_injective heq]
  · exact fun hbit => ⟨k, hk, hbit, rfl⟩

lemma mem_framesAt {i : ℕ} :
    x ∈ framesAt (frameAddr i) count ↔ ∃ k, i ≤ k ∧ k < i + count ∧ frameAddr k = x := by
  rw [framesAt, Finset.mem_image]
  constructor
  · rintro ⟨j, hj, rfl⟩
    refine ⟨i + j, by omega, by rw [Finset.mem_range] at hj; omega, ?_⟩
    unfold frameAddr
    ring
  · rintro ⟨k, hik, hk, rfl⟩
    refine ⟨k - i, Finset.mem_range.mpr (by omega), ?_⟩
    unfold frameAddr
    obtain ⟨d, rfl⟩ := Nat.exists_eq_add_of_le hik
    rw [Nat.add_sub_cancel_left]
    ring

lemma allocPages_spec {p p' : Pool} {a : ℕ} (hc : count ≤ maxPages)
    (h : p.allocPages count = (some a, p')) :
    ∃ i, i + count ≤ maxPages ∧ FreeRun (bitAt p.bytes) i count ∧ a = frameAddr i ∧
      bitAt p'.bytes = fun k => if i ≤ k ∧ k < i + count then true else bitAt p.bytes k := by
  have hview := p.view_allocPages count 0
  rw [h] at hview
  obtain ⟨i, -, hi, hrun, ha, hm⟩ := allocPages_eq_some hc hview
  exact ⟨i, hi, hrun, ha, congrArg Mem.pageBitmap hm⟩

lemma balanced_alloc (h : Balanced l) (hc : count ≤ maxPages) :
    Balanced (l.step (.alloc count)) := by
  rcases halloc : l.pool.allocPages count with ⟨_ | a, p⟩
  · rw [step_alloc_none halloc]
    have hview := l.pool.view_allocPages count 0
    rw [halloc] at hview
    have hbits : bitAt p.bytes = bitAt l.pool.bytes :=
      congrArg Mem.pageBitmap (allocPages_eq_none hview)
    intro x
    rw [h x, ← hbits]
  · rw [step_alloc_some halloc]
    obtain ⟨i, hi, -, rfl, hbits⟩ := allocPages_spec hc halloc
    intro x
    rw [Finset.mem_union, h x, mem_framesAt]
    simp only [hbits]
    constructor
    · rintro (⟨k, hk, hbit, rfl⟩ | ⟨k, hik, hki, rfl⟩)
      · exact ⟨k, hk, by split_ifs <;> simp [hbit], rfl⟩
      · exact ⟨k, by omega, if_pos ⟨hik, hki⟩, rfl⟩
    · rintro ⟨k, hk, hbit, rfl⟩
      by_cases hrun : i ≤ k ∧ k < i + count
      · exact Or.inr ⟨k, hrun.1, hrun.2, rfl⟩
      · rw [if_neg hrun] at hbit
        exact Or.inl ⟨k, hk, hbit, rfl⟩

lemma balanced_free (h : Balanced l) (addr : ℕ) : Balanced (l.step (.free addr)) := by
  intro x
  show x ∈ l.live.erase (frameOf addr) ↔ _
  rw [Finset.mem_erase, h x]
  have hview := l.pool.view_freePage addr 0
  have hbits : bitAt (l.pool.freePage addr).bytes = (freePage (l.pool.view 0) addr).pageBitmap :=
    (congrArg Mem.pageBitmap hview).symm
  show _ ↔ ∃ k < maxPages, bitAt (l.pool.freePage addr).bytes k = true ∧ frameAddr k = x
  rw [hbits]
  constructor
  · rintro ⟨hne, k, hk, hbit, rfl⟩
    exact ⟨k, hk, freePage_pageBitmap_of_ne (Ne.symm hne) hbit, rfl⟩
  · rintro ⟨k, hk, hbit, rfl⟩
    refine ⟨?_, k, hk, freePage_pageBitmap_of_true hbit, rfl⟩
    intro heq
    -- the frame that is freed has its bit cleared
    have hindex : ¬addr < physMemoryBase ∧ (addr - physMemoryBase) / pageSize = k := by
      unfold frameOf frameAddr physMemoryBase pageSize at *
      omega
    rw [freePage, if_neg hindex.1] at hbit
    simp only [hindex.2, if_pos hk, Function.update_self, Bool.false_eq_true] at hbit

lemma balanced_step (e : FrameEvent) (h : Balanced l) (he : e.Sized) : Balanced (l.step e) := by
  cases e with
  | alloc count => exact balanced_alloc h he.2
  | free addr => exact balanced_free h addr

lemma balanced_allFree (oob phys : ℕ → UInt8) : Balanced (allFree oob phys) := by
  intro x
  refine ⟨fun h => absurd h (Finset.notMem_empty x), ?_⟩
  rintro ⟨k, hk, hbit, -⟩
  have hbyte : (allFree oob phys).pool.bytes (k / 8) = 0 :=
    if_pos (by unfold maxPages at *; omega)
  rw [bitAt, hbyte] at hbit
  simp at hbit

lemma Balanced.freeBytes (h : Balanced l) :
    l.pool.mmGetFreeBytes + pageSize * l.live.card = mmGetTotalBytes := by
  have hsub : freeSet (l.pool.view 0) ⊆ Finset.range maxPages := Finset.filter_subset _ _
  have hlive : l.live = (Finset.range maxPages \ freeSet (l.pool.view 0)).image frameAddr := by
    ext x
    rw [h x, Finset.mem_image]
    refine exists_congr fun k => ?_
    rw [Finset.mem_sdiff, mem_freeSet, Finset.mem_range]
    simp only [Pool.view]
    by_cases hk : k < maxPages <;> simp [hk]
  have hcard := Finset.card_le_card hsub
  rw [Finset.card_range] at hcard
  rw [← Pool.view_mmGetFreeBytes l.pool 0, mmGetFreeBytes_eq, hlive,
    Finset.card_image_of_injective _ frameAddr_injective, Finset.card_sdiff_of_subset hsub, Finset.card_range, freeFrames, mmGetTotalBytes]
  unfold pageSize
  omega

lemma Balanced.returned (h : Balanced l) {a : ℕ} {p : Pool} (hc : count ≤ maxPages)
    (halloc : l.pool.allocPages count = (some a, p)) :
    a % pageSize = 0 ∧ physMemoryBase ≤ a ∧
      a + count * pageSize ≤ physMemoryBase + 128 * 1024 * 1024 ∧
      Disjoint (framesAt a count) l.live := by
  obtain ⟨i, hi, hrun, rfl, -⟩ := allocPages_spec hc halloc
  refine ⟨?_, ?_, ?_, ?_⟩
  · unfold frameAddr physMemoryBase pageSize
    omega
  · exact Nat.le_add_right _ _
  · unfold frameAddr physMemoryBase pageSize maxPages at *
    omega
  · rw [Finset.disjoint_left]
    intro x hx hlive
    obtain ⟨k, hik, hki, rfl⟩ := mem_framesAt.mp hx
    rw [h.mem_iff (by omega), hrun k hik hki] at hlive
    exact absurd hlive (by simp)

lemma freePage_outside {p : Pool} {a : ℕ}
    (h : a < physMemoryBase ∨ physMemoryBase + 128 * 1024 * 1024 ≤ a) : p.freePage a = p := by
  unfold Pool.freePage
  rcases h with h | h
  · exact if_pos h
  · have hout : ¬(a - physMemoryBase) / pageSize < maxPages := by
      unfold pageSize maxPages
      omega
    rw [if_neg (by omega)]
    exact if_neg hout

/-- **Frames are conserved** in every run of the allocator from the empty bitmap. -/
theorem frames_conserved (oob phys : ℕ → UInt8) (es : List FrameEvent)
    (hes : ∀ e ∈ es, e.Sized) :
    let l := runFrom step (allFree oob phys) es
    l.pool.mmGetFreeBytes + pageSize * l.live.card = mmGetTotalBytes ∧
    (∀ count a p, 1 ≤ count → count ≤ maxPages → l.pool.allocPages count = (some a, p) →
      a % pageSize = 0 ∧ physMemoryBase ≤ a ∧
      a + count * pageSize ≤ physMemoryBase + 128 * 1024 * 1024 ∧
      Disjoint (framesAt a count) l.live) ∧
    (∀ a, frameOf a ∈ l.live →
      (l.pool.freePage a).mmGetFreeBytes = l.pool.mmGetFreeBytes + pageSize) ∧
    ∀ a, a < physMemoryBase ∨ physMemoryBase + 128 * 1024 * 1024 ≤ a →
      l.pool.freePage a = l.pool := by
  intro l
  have hl : Balanced l :=
    invariant_runFrom (fun l e h he => balanced_step e h he) (balanced_allFree oob phys)
      (stepsMeet_of_forall _ hes)
  refine ⟨hl.freeBytes, fun count a p _ hc h => hl.returned hc h, fun a ha => ?_,
    fun a ha => freePage_outside ha⟩
  have hfree := (balanced_free hl a).freeBytes
  have hcard := Finset.card_erase_add_one ha
  have hbefore := hl.freeBytes
  simp only [step] at hfree
  rw [← hcard] at hbefore
  unfold pageSize at *
  omega

/-- Three frames are taken, one of them is freed twice, and 70 frames follow. -/
theorem frames_conserved_refill :
    let l := runFrom step (allFree 0 0)
      [.alloc 3, .free 0x2001000, .free 0x2001000, .free 0, .alloc 70]
    l.pool.mmGetFreeBytes + pageSize * l.live.card = mmGetTotalBytes :=
  (frames_conserved 0 0 [.alloc 3, .free 0x2001000, .free 0x2001000, .free 0, .alloc 70]
    (by simp [FrameEvent.Sized, maxPages])).1

end Ledger

end Bangos.Mm
