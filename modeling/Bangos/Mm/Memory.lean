import Bangos.Lib.ByteMem

/-!
# Physical frames and page tables (`kernel/mm/memory.c`)

Physical memory is a byte memory; the page tables are 512-entry tables of 64-bit words in
it.  The kernel reaches all of them at their physical addresses, since its identity map
makes virtual and physical addresses agree there, and a null result of the allocator is the
address 0, which the code goes on to use.

Addresses are natural numbers; sums that the code computes in `uint64_t` are reduced modulo
`2 ^ 64` (`u64`).  The translation lookaside buffer is not modelled: every change of an
entry is followed by an `invlpg` or a reload of `cr3`.
-/

namespace Bangos.Mm

open ByteMem

/-- Reduction to a `uint64_t`. -/
def u64 (x : ℕ) : ℕ := x % 0x10000000000000000

/-- `PAGE_SIZE`. -/
def pageSize : ℕ := 4096

/-- `MAX_PAGES`: the frames of the 128 MB pool. -/
def maxPages : ℕ := 32768

/-- `phys_memory_base`. -/
def physMemoryBase : ℕ := 0x2000000

/-- `PAGE_PRESENT`. -/
def pagePresent : ℕ := 1

/-- `PAGE_USER`. -/
def pageUser : ℕ := 4

/-- `PAGE_PRESENT | PAGE_WRITABLE | PAGE_USER`. -/
def pagePwu : ℕ := 7

/-- The state of the memory subsystem. -/
structure Mem where
  /-- Physical memory. -/
  phys : ℕ → UInt8
  /-- The bits from `page_bitmap` on, one for each frame of the pool.  From `maxPages` on
  they are whatever lies behind the array in memory. -/
  pageBitmap : ℕ → Bool
  /-- `kernel_pml4`. -/
  kernelPml4 : ℕ

/-! ## The frame allocator -/

/-- `MAX_PAGES - count`, computed in `size_t`. -/
def lastStart (count : ℕ) : ℕ := u64 (maxPages + (0x10000000000000000 - count))

/-- The inner loop of `alloc_pages`: the offset of the first frame in use, from `j` on. -/
def firstUsed (bm : ℕ → Bool) (i : ℕ) : ℕ → ℕ → Option ℕ
  | _, 0 => none
  | j, n + 1 => if bm (i + j) then some j else firstUsed bm i (j + 1) n

/-- The 64 bits from `i` on are all set. -/
def fullWord (bm : ℕ → Bool) (i : ℕ) : Bool := (List.range 64).all fun k => bm (i + k)

/-- The fast path of `alloc_pages`: skip words of 64 frames in use. -/
def skipFull (bm : ℕ → Bool) : ℕ → ℕ → ℕ
  | 0, i => i
  | f + 1, i => if i ≤ maxPages - 64 ∧ fullWord bm i then skipFull bm f (i + 64) else i

/-- The search loop of `alloc_pages`; every turn advances `i`, so that `lastStart count + 1`
turns are enough. -/
def allocSearch (bm : ℕ → Bool) (count : ℕ) : ℕ → ℕ → Option ℕ
  | 0, _ => none
  | f + 1, i =>
    if i ≤ lastStart count then
      let fast := i % 64 = 0 ∧ count ≤ 64
      let i := if fast then skipFull bm (maxPages / 64 + 1) i else i
      if fast ∧ i > lastStart count then none
      else match firstUsed bm i 0 count with
        | none => some i
        | some j => allocSearch bm count f (i + j + 1)
    else none

/-- `alloc_pages`: the address of the first frame, zeroed like the rest of the run. -/
def allocPages (m : Mem) (count : ℕ) : Option ℕ × Mem :=
  if count = 0 then (none, m)
  else match allocSearch m.pageBitmap count (lastStart count + 1) 0 with
    | none => (none, m)
    | some i =>
      let addr := u64 (physMemoryBase + i * pageSize)
      (some addr, { m with
        pageBitmap := fun k => if i ≤ k ∧ k < i + count then true else m.pageBitmap k
        phys := fill m.phys addr (u64 (count * pageSize)) 0 })

/-- `alloc_page`. -/
def allocPage (m : Mem) : Option ℕ × Mem := allocPages m 1

/-- `free_page`. -/
def freePage (m : Mem) (addr : ℕ) : Mem :=
  if addr < physMemoryBase then m
  else
    let index := (addr - physMemoryBase) / pageSize
    if index < maxPages then
      { m with pageBitmap := Function.update m.pageBitmap index false }
    else m

/-- `mm_get_total_bytes`. -/
def mmGetTotalBytes : ℕ := maxPages * pageSize

/-- `mm_get_free_bytes`. -/
def mmGetFreeBytes (m : Mem) : ℕ :=
  ((List.range maxPages).countP fun i => !m.pageBitmap i) * pageSize

/-! ## Page-table entries -/

/-- `e & PAGE_PRESENT`. -/
def isPresent (e : ℕ) : Bool := e.testBit 0

/-- `e & PAGE_WRITABLE`. -/
def isWritable (e : ℕ) : Bool := e.testBit 1

/-- `e & PAGE_USER`. -/
def isUser (e : ℕ) : Bool := e.testBit 2

/-- `e & (1 << 7)`: the entry maps a 2 MB page. -/
def isHuge (e : ℕ) : Bool := e.testBit 7

/-- `e & ~0xFFF`. -/
def frameOf (e : ℕ) : ℕ := e / 4096 * 4096

/-- Entry `i` of the table at physical address `t`. -/
def entry (m : Mem) (t i : ℕ) : ℕ := le m.phys (t + 8 * i) 8

/-- Write entry `i` of the table at physical address `t`. -/
def setEntry (m : Mem) (t i v : ℕ) : Mem := { m with phys := putLe m.phys (t + 8 * i) 8 v }

/-- `(virt >> 39) & 0x1FF`. -/
def pml4Idx (virt : ℕ) : ℕ := virt / 0x8000000000 % 512

/-- `(virt >> 30) & 0x1FF`. -/
def pdptIdx (virt : ℕ) : ℕ := virt / 0x40000000 % 512

/-- `(virt >> 21) & 0x1FF`. -/
def pdIdx (virt : ℕ) : ℕ := virt / 0x200000 % 512

/-- `(virt >> 12) & 0x1FF`. -/
def ptIdx (virt : ℕ) : ℕ := virt / 0x1000 % 512

/-- The physical address of the page-directory-pointer table of `virt`. -/
def pdptOf (m : Mem) (virt : ℕ) : ℕ := frameOf (entry m m.kernelPml4 (pml4Idx virt))

/-- The physical address of the page directory of `virt`. -/
def pdOf (m : Mem) (virt : ℕ) : ℕ := frameOf (entry m (pdptOf m virt) (pdptIdx virt))

/-- The physical address of the page table of `virt`. -/
def ptOf (m : Mem) (virt : ℕ) : ℕ := frameOf (entry m (pdOf m virt) (pdIdx virt))

/-! ## Mapping a page -/

/-- A fresh, empty table, entered at index `i` of the table `t`. -/
def newTable (m : Mem) (t i : ℕ) : Mem :=
  let (p, m) := allocPage m
  let new := p.getD 0
  setEntry { m with phys := fill m.phys new pageSize 0 } t i (new ||| pagePwu)

/-- The 512 entries a split 2 MB page leaves in its new table. -/
def fillSplit (m : Mem) (new huge : ℕ) : Mem :=
  (List.range 512).foldl (fun m k => setEntry m new k (u64 (huge + k * pageSize) ||| pagePwu)) m

/-- Replace the 2 MB entry `i` of the directory `t` by a table of 512 pages. -/
def splitHuge (m : Mem) (t i : ℕ) : Mem :=
  let huge := entry m t i / 0x200000 * 0x200000
  let (p, m) := allocPage m
  let new := p.getD 0
  setEntry (fillSplit m new huge) t i (new ||| pagePwu)

/-- `map_page`, first level. -/
def ensurePdpt (m : Mem) (virt : ℕ) : Mem :=
  if isPresent (entry m m.kernelPml4 (pml4Idx virt)) then m
  else newTable m m.kernelPml4 (pml4Idx virt)

/-- `map_page`, second level. -/
def ensurePd (m : Mem) (virt : ℕ) : Mem :=
  if isPresent (entry m (pdptOf m virt) (pdptIdx virt)) then m
  else newTable m (pdptOf m virt) (pdptIdx virt)

/-- `map_page`, third level: a 2 MB page is split, a missing table is added. -/
def ensurePt (m : Mem) (virt : ℕ) : Mem :=
  let e := entry m (pdOf m virt) (pdIdx virt)
  if isHuge e then splitHuge m (pdOf m virt) (pdIdx virt)
  else if isPresent e then m
  else newTable m (pdOf m virt) (pdIdx virt)

/-- The three levels of `map_page` above the page table. -/
def ensureTables (m : Mem) (virt : ℕ) : Mem := ensurePt (ensurePd (ensurePdpt m virt) virt) virt

/-- `map_page`. -/
def mapPage (m : Mem) (virt phys flags : ℕ) : Mem :=
  let m := ensureTables m virt
  setEntry m (ptOf m virt) (ptIdx virt) (phys / 4096 * 4096 ||| flags)

/-- `map_user_pages`. -/
def mapUserPages (m : Mem) (virt phys : ℕ) : ℕ → Mem
  | 0 => m
  | n + 1 => mapPage (mapUserPages m virt phys n) (u64 (virt + n * pageSize))
      (u64 (phys + n * pageSize)) pagePwu

/-! ## Looking up, unmapping and changing pages -/

/-- `get_pte_ptr`: the physical address of the page table, when the walk reaches one. -/
def getPte (m : Mem) (virt : ℕ) : Option ℕ :=
  if !isPresent (entry m m.kernelPml4 (pml4Idx virt)) then none
  else if !isPresent (entry m (pdptOf m virt) (pdptIdx virt)) then none
  else
    let e := entry m (pdOf m virt) (pdIdx virt)
    if isHuge e then none
    else if !isPresent e then none
    else some (ptOf m virt)

/-- `unmap_page`. -/
def unmapPage (m : Mem) (virt : ℕ) : Mem :=
  match getPte m virt with
  | none => m
  | some t =>
    let e := entry m t (ptIdx virt)
    if isPresent e then setEntry (freePage m (frameOf e)) t (ptIdx virt) 0 else m

/-- `unmap_user_pages`. -/
def unmapUserPages (m : Mem) (virt : ℕ) : ℕ → Mem
  | 0 => m
  | n + 1 => unmapPage (unmapUserPages m virt n) (u64 (virt + n * pageSize))

/-- `modify_page_flags`. -/
def modifyPageFlags (m : Mem) (virt flags : ℕ) : Mem :=
  match getPte m virt with
  | none => m
  | some t =>
    let e := entry m t (ptIdx virt)
    if isPresent e then setEntry m t (ptIdx virt) (frameOf e ||| flags) else m

/-- `get_phys_mapping`. -/
def getPhysMapping (m : Mem) (virt : ℕ) : ℕ :=
  match getPte m virt with
  | none => 0
  | some t =>
    let e := entry m t (ptIdx virt)
    if isPresent e then frameOf e ||| virt % 4096 else 0

/-! ## Start-up -/

/-- One gigabyte of the identity map of `mm_init`. -/
def mmInitGb (pdpt : ℕ) (m : Mem) (gb : ℕ) : Mem :=
  let (p, m) := allocPage m
  let pd := p.getD 0
  let m := setEntry m pdpt gb (pd ||| pagePwu)
  (List.range 512).foldl
    (fun m k => setEntry m pd k (gb * 0x40000000 + k * 0x200000 ||| pagePwu ||| 0x80)) m

/-- `mm_init`, from whatever physical memory holds at power-on.  `oob` are the bits behind
the bitmap. -/
def mmInit (phys : ℕ → UInt8) (oob : ℕ → Bool) : Mem :=
  let m : Mem :=
    { phys := phys
      pageBitmap := fun k => if k < maxPages then false else oob k
      kernelPml4 := 0 }
  let (p, m) := allocPage m
  let m := { m with kernelPml4 := p.getD 0 }
  let (q, m) := allocPage m
  let pdpt := q.getD 0
  let m := setEntry m m.kernelPml4 0 (pdpt ||| pagePwu)
  (List.range 4).foldl (mmInitGb pdpt) m

end Bangos.Mm
