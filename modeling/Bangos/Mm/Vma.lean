import Bangos.Mm.Memory
import Mathlib.Data.Fin.Basic
import Mathlib.Data.List.FinRange

/-!
# Virtual memory areas (`kernel/mm/vmm.c`)

The part of a process that the virtual-memory code works on is its table of areas and its
`mmap_curr_base`; the functions that also touch page tables take and return the memory
subsystem's state.  Protections and flags are the source's bit sets.
-/

namespace Bangos.Mm

/-- `MAX_PROCESS_VMAS`. -/
abbrev maxProcessVmas : ℕ := 32

instance : NeZero maxProcessVmas := ⟨by decide⟩

/-- `VMA_PROT_READ`. -/
def vmaProtRead : ℕ := 1

/-- `VMA_PROT_WRITE`. -/
def vmaProtWrite : ℕ := 2

/-- `VMA_PROT_EXEC`. -/
def vmaProtExec : ℕ := 4

/-- `VMA_MAP_SHARED`. -/
def vmaMapShared : ℕ := 1

/-- `VMA_MAP_PRIVATE`. -/
def vmaMapPrivate : ℕ := 2

/-- `VMA_MAP_FIXED`. -/
def vmaMapFixed : ℕ := 0x10

/-- `VMA_MAP_ANONYMOUS`. -/
def vmaMapAnonymous : ℕ := 0x20

/-- `MMAP_BASE_START`. -/
def mmapBaseStart : ℕ := 0x700000000000

/-- `vm_area_t`. -/
structure VmArea where
  start : ℕ
  /-- The field `end`. -/
  endAddr : ℕ
  prot : ℕ
  flags : ℕ
  used : Bool
deriving DecidableEq

/-- An area as `vmm_init_process` leaves it. -/
def VmArea.empty : VmArea := ⟨0, 0, 0, 0, false⟩

/-- `proc->vmas`. -/
abbrev VmaTable := Fin maxProcessVmas → VmArea

/-- The fields of a process that `vmm.c` works on. -/
structure ProcVm where
  mmapCurrBase : ℕ
  vmas : VmaTable

/-- `(x + PAGE_SIZE - 1) & ~0xFFF`. -/
def pageAlign (x : ℕ) : ℕ := u64 (x + (pageSize - 1)) / 4096 * 4096

/-- `vmm_init_process` for the process `pid`. -/
def vmmInitProcess (pid : ℤ) : ProcVm where
  mmapCurrBase := u64 (mmapBaseStart + (pid % 0x10000000000000000).toNat * 0x100000000)
  vmas := fun _ => VmArea.empty

/-- The first loop of `vma_create` stops at this area: it has the same protection and flags
and contains the range, or ends where the range starts, or starts where it ends. -/
def VmArea.joins (v : VmArea) (start endAddr prot flags : ℕ) : Bool :=
  v.used && v.prot == prot && v.flags == flags &&
    (decide (v.start ≤ start ∧ endAddr ≤ v.endAddr) || v.endAddr == start || v.start == endAddr)

/-- What the first loop of `vma_create` does with the area it stops at. -/
def VmArea.join (v : VmArea) (start endAddr : ℕ) : VmArea :=
  if v.start ≤ start ∧ endAddr ≤ v.endAddr then v
  else if v.endAddr = start then { v with endAddr := endAddr }
  else { v with start := start }

/-- `vma_create`: the slot of the area returned, and the table. -/
def vmaCreate (vs : VmaTable) (start endAddr prot flags : ℕ) :
    Option (Fin maxProcessVmas) × VmaTable :=
  if endAddr ≤ start then (none, vs)
  else match (List.finRange maxProcessVmas).find?
      fun i => (vs i).joins start endAddr prot flags with
    | some i => (some i, Function.update vs i ((vs i).join start endAddr))
    | none =>
      match (List.finRange maxProcessVmas).find? fun i => !(vs i).used with
      | some i => (some i, Function.update vs i ⟨start, endAddr, prot, flags, true⟩)
      | none => (none, vs)

/-- `vma_find`. -/
def vmaFind (vs : VmaTable) (addr : ℕ) : Option (Fin maxProcessVmas) :=
  (List.finRange maxProcessVmas).find?
    fun i => (vs i).used && decide ((vs i).start ≤ addr ∧ addr < (vs i).endAddr)

/-- The range meets the area: the test of the loops of `vma_remove` and `vma_protect`. -/
def VmArea.meets (v : VmArea) (start endAddr : ℕ) : Bool :=
  v.used && decide (start < v.endAddr ∧ v.start < endAddr)

/-- What a turn of `vma_remove` does to the table when area `i` meets the range. -/
def vmaCut (vs : VmaTable) (start endAddr : ℕ) (i : Fin maxProcessVmas) : VmaTable :=
  let v := vs i
  if start ≤ v.start ∧ v.endAddr ≤ endAddr then
    Function.update vs i { v with used := false }
  else if start ≤ v.start ∧ endAddr < v.endAddr then
    Function.update vs i { v with start := endAddr }
  else if v.start < start ∧ v.endAddr ≤ endAddr then
    Function.update vs i { v with endAddr := start }
  else
    (vmaCreate (Function.update vs i { v with endAddr := start })
      endAddr v.endAddr v.prot v.flags).2

/-- A turn of the loop of `vma_remove`. -/
def vmaRemoveStep (start endAddr : ℕ) (s : Mem × VmaTable) (i : Fin maxProcessVmas) :
    Mem × VmaTable :=
  let v := s.2 i
  if v.meets start endAddr then
    let unmapStart := max start v.start
    let unmapEnd := min endAddr v.endAddr
    (unmapUserPages s.1 unmapStart ((unmapEnd - unmapStart) / pageSize),
      vmaCut s.2 start endAddr i)
  else s

/-- `vma_remove`. -/
def vmaRemove (m : Mem) (vs : VmaTable) (start endAddr : ℕ) : ℤ × Mem × VmaTable :=
  if endAddr ≤ start then (-22, m, vs)
  else (0, (List.finRange maxProcessVmas).foldl (vmaRemoveStep start endAddr) (m, vs))

/-- What a turn of `vma_protect` does to the table when area `i` meets the range.  In the
third case the new area reaches to the end of the range, not of the old area. -/
def vmaReprotect (vs : VmaTable) (start endAddr newProt : ℕ) (i : Fin maxProcessVmas) :
    VmaTable :=
  let v := vs i
  if start ≤ v.start ∧ v.endAddr ≤ endAddr then
    Function.update vs i { v with prot := newProt }
  else if start ≤ v.start ∧ endAddr < v.endAddr then
    (vmaCreate (Function.update vs i { v with endAddr := endAddr, prot := newProt })
      endAddr v.endAddr v.prot v.flags).2
  else if v.start < start ∧ v.endAddr ≤ endAddr then
    (vmaCreate (Function.update vs i { v with endAddr := start })
      start endAddr newProt v.flags).2
  else
    (vmaCreate (vmaCreate (Function.update vs i { v with endAddr := start })
      start endAddr newProt v.flags).2 endAddr v.endAddr v.prot v.flags).2

/-- The page-table flags for a protection. -/
def pteFlags (prot : ℕ) : ℕ := if prot.testBit 1 then pagePwu else pagePresent ||| pageUser

/-- The inner loop of `vma_protect` over the pages of `[addr, addr + 4096 * n)`. -/
def protectPages (m : Mem) (addr flags : ℕ) : ℕ → Mem
  | 0 => m
  | n + 1 => modifyPageFlags (protectPages m addr flags n) (addr + n * pageSize) flags

/-- A turn of the loop of `vma_protect`. -/
def vmaProtectStep (start endAddr newProt : ℕ) (s : Mem × VmaTable)
    (i : Fin maxProcessVmas) : Mem × VmaTable :=
  let v := s.2 i
  if v.meets start endAddr then
    let protStart := max start v.start
    let protEnd := min endAddr v.endAddr
    (protectPages s.1 protStart (pteFlags newProt)
        ((protEnd - protStart + (pageSize - 1)) / pageSize),
      vmaReprotect s.2 start endAddr newProt i)
  else s

/-- `vma_protect`. -/
def vmaProtect (m : Mem) (vs : VmaTable) (start endAddr newProt : ℕ) : ℤ × Mem × VmaTable :=
  if endAddr ≤ start then (-22, m, vs)
  else (0, (List.finRange maxProcessVmas).foldl (vmaProtectStep start endAddr newProt) (m, vs))

/-- `vmm_find_free_area`: the address, and the new `mmap_curr_base`. -/
def vmmFindFreeArea (p : ProcVm) (length : ℕ) : ℕ × ProcVm :=
  let alignedLen := pageAlign length
  let candidate := pageAlign p.mmapCurrBase
  (candidate, { p with mmapCurrBase := u64 (candidate + alignedLen) })

/-- `vmm_handle_page_fault` for the running process, whose `active` flag is `active`. -/
def vmmHandlePageFault (m : Mem) (vs : VmaTable) (active : Bool) (faultAddr errorCode : ℕ) :
    ℤ × Mem :=
  if !active then (-1, m)
  else match vmaFind vs faultAddr with
    | none => (-1, m)
    | some i =>
      let vma := vs i
      if errorCode.testBit 0 && errorCode.testBit 1 && !vma.prot.testBit 1 then (-1, m)
      else match allocPage m with
        | (none, m) => (-1, m)
        | (some frame, m) =>
          let m := if vma.flags.testBit 5 then
            { m with phys := ByteMem.fill m.phys frame pageSize 0 } else m
          (0, mapPage m (faultAddr / 4096 * 4096) frame (pteFlags vma.prot))

end Bangos.Mm
