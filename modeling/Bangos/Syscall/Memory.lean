import Bangos.Mm.Vma

/-!
# The memory system calls (`kernel/syscall/syscall.c`)

`SYS_MMAP`, `SYS_MPROTECT`, `SYS_MUNMAP` and `SYS_BRK`.  A call works on the memory
subsystem and on the virtual-memory part of the calling process; the program break is a pair
of global variables.
-/

namespace Bangos.Syscall

open Bangos.Mm

/-- `current_brk` and `mapped_brk_page`. -/
structure Brk where
  currentBrk : ℕ
  mappedBrkPage : ℕ

/-- The initial values of `current_brk` and `mapped_brk_page`. -/
def Brk.init : Brk := ⟨0x600000000000, 0x600000000000⟩

/-- How `SYS_MMAP` chooses the address: as told with `MAP_FIXED`, at a hint whose first page
is in no area, or at `mmap_curr_base`. -/
def mmapAddr (p : ProcVm) (addr alignedLen flags : ℕ) : Except ℤ (ℕ × ProcVm) :=
  if flags.testBit 4 then
    if addr = 0 ∨ addr % 4096 ≠ 0 then .error (-22) else .ok (addr, p)
  else if addr ≠ 0 ∧ addr % 4096 = 0 ∧ 0x40000000 ≤ addr ∧ vmaFind p.vmas addr = none then
    .ok (addr, p)
  else .ok (vmmFindFreeArea p alignedLen)

/-- The `VMA_PROT_*` bits of a `prot` argument. -/
def vmaProtOf (prot : ℕ) : ℕ :=
  (if prot.testBit 0 then vmaProtRead else 0) ||| (if prot.testBit 1 then vmaProtWrite else 0) |||
    (if prot.testBit 2 then vmaProtExec else 0)

/-- The `VMA_MAP_*` bits of a `flags` argument; every mapping is anonymous. -/
def vmaFlagsOf (flags : ℕ) : ℕ :=
  vmaMapAnonymous ||| (if flags.testBit 0 then vmaMapShared else 0) |||
    (if flags.testBit 1 then vmaMapPrivate else 0) |||
    (if flags.testBit 4 then vmaMapFixed else 0)

/-- The end of `SYS_MMAP`: frames for all pages, if there are that many in a row. -/
def mmapPopulate (m : Mem) (virt numPages : ℕ) : Mem :=
  match allocPages m numPages with
  | (some phys, m) => mapUserPages m virt phys numPages
  | (none, m) => m

/-- `SYS_MMAP`: the address or an error code. -/
def sysMmap (m : Mem) (p : ProcVm) (addr len prot flags : ℕ) : Except ℤ ℕ × Mem × ProcVm :=
  if len = 0 then (.error (-22), m, p)
  else
    let alignedLen := pageAlign len
    match mmapAddr p addr alignedLen flags with
    | .error e => (.error e, m, p)
    | .ok (virt, p) =>
      match vmaCreate p.vmas virt (u64 (virt + alignedLen)) (vmaProtOf prot) (vmaFlagsOf flags) with
      | (none, vs) => (.error (-12), m, { p with vmas := vs })
      | (some _, vs) => (.ok virt, mmapPopulate m virt (alignedLen / pageSize), { p with vmas := vs })

/-- `SYS_MPROTECT`. -/
def sysMprotect (m : Mem) (p : ProcVm) (addr len prot : ℕ) : ℤ × Mem × ProcVm :=
  if len = 0 ∨ addr % 4096 ≠ 0 then (-22, m, p)
  else
    let r := vmaProtect m p.vmas addr (u64 (addr + pageAlign len)) (prot % 0x100000000)
    (r.1, r.2.1, { p with vmas := r.2.2 })

/-- `SYS_MUNMAP`. -/
def sysMunmap (m : Mem) (p : ProcVm) (addr len : ℕ) : ℤ × Mem × ProcVm :=
  if len = 0 ∨ addr % 4096 ≠ 0 then (-22, m, p)
  else
    let r := vmaRemove m p.vmas addr (u64 (addr + pageAlign len))
    (r.1, r.2.1, { p with vmas := r.2.2 })

/-- `SYS_BRK`. -/
def sysBrk (m : Mem) (b : Brk) (newBrk : ℕ) : ℕ × Mem × Brk :=
  if newBrk = 0 then (b.currentBrk, m, b)
  else if b.mappedBrkPage < newBrk then
    let targetPage := pageAlign newBrk
    let numPages := u64 (targetPage + (0x10000000000000000 - b.mappedBrkPage)) / pageSize
    match allocPages m numPages with
    | (some phys, m) =>
      (newBrk, mapUserPages m b.mappedBrkPage phys numPages, ⟨newBrk, targetPage⟩)
    | (none, m) => (b.currentBrk, m, b)
  else (newBrk, m, { b with currentBrk := newBrk })

end Bangos.Syscall
