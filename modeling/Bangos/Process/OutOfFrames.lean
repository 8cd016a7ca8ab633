import Bangos.Mm.BootTables
import Bangos.Process.System

/-!
# When the frames run out (`process_fork`, `process_clone`, `map_page`)

The three functions use what `alloc_pages` returns without looking at it: a null result is
cleared, filled, copied to or written to like any other frame.  Here they are run with a log of
what they do with frames (`FrameLog`), and the log says that a null result is always stored
through.  So running out of frames is contained exactly in the calls in which it does not happen,
and the state of the bitmap before the call says which ones these are.
-/

namespace Bangos.Proc

open Bangos.Mm Bangos.Net ByteMem

/-! ## The log -/

/-- What is done with frames: a call of the allocator with its result, and a store of `len` bytes
at `offset` from a pointer that the allocator has returned. -/
inductive FrameUse where
  | alloc (result : Option ℕ)
  | store (through : Option ℕ) (offset len : ℕ)
deriving DecidableEq

/-- Memory, and what has been done with frames so far. -/
structure FrameLog where
  mem : Mem
  uses : List FrameUse

namespace FrameLog

/-- `alloc_pages`. -/
def alloc (s : FrameLog) (count : ℕ) : Option ℕ × FrameLog :=
  let r := allocPages s.mem count
  (r.1, ⟨r.2, s.uses ++ [.alloc r.1]⟩)

/-- A store of `len` bytes at `offset` from the pointer `p`. -/
def storeThrough (s : FrameLog) (p : Option ℕ) (offset len : ℕ) (write : ℕ → Mem → Mem) :
    FrameLog :=
  ⟨write (p.getD 0 + offset) s.mem, s.uses ++ [.store p offset len]⟩

/-- The fresh table of `map_page`: `kmemset(new, 0, PAGE_SIZE)` and its entry. -/
def newTable (s : FrameLog) (t i : ℕ) : FrameLog :=
  let (new, s) := s.alloc 1
  let s := s.storeThrough new 0 pageSize fun a m => { m with phys := fill m.phys a pageSize 0 }
  { s with mem := setEntry s.mem t i (new.getD 0 ||| pagePwu) }

/-- The split of a 2 MB page: 512 entries and that of the table. -/
def splitHuge (s : FrameLog) (t i : ℕ) : FrameLog :=
  let huge := entry s.mem t i / 0x200000 * 0x200000
  let (new, s) := s.alloc 1
  let s := s.storeThrough new 0 (512 * 8) fun a m => fillSplit m a huge
  { s with mem := setEntry s.mem t i (new.getD 0 ||| pagePwu) }

/-- `map_page`, first level. -/
def ensurePdpt (s : FrameLog) (virt : ℕ) : FrameLog :=
  if isPresent (entry s.mem s.mem.kernelPml4 (pml4Idx virt)) then s
  else s.newTable s.mem.kernelPml4 (pml4Idx virt)

/-- `map_page`, second level. -/
def ensurePd (s : FrameLog) (virt : ℕ) : FrameLog :=
  if isPresent (entry s.mem (pdptOf s.mem virt) (pdptIdx virt)) then s
  else s.newTable (pdptOf s.mem virt) (pdptIdx virt)

/-- `map_page`, third level. -/
def ensurePt (s : FrameLog) (virt : ℕ) : FrameLog :=
  let e := entry s.mem (pdOf s.mem virt) (pdIdx virt)
  if isHuge e then s.splitHuge (pdOf s.mem virt) (pdIdx virt)
  else if isPresent e then s
  else s.newTable (pdOf s.mem virt) (pdIdx virt)

/-- `map_page`. -/
def mapPage (s : FrameLog) (virt phys flags : ℕ) : FrameLog :=
  let s := ((s.ensurePdpt virt).ensurePd virt).ensurePt virt
  { s with
    mem := setEntry s.mem (ptOf s.mem virt) (ptIdx virt) (phys / 4096 * 4096 ||| flags) }

/-- The stacks of `process_fork`: the user stack is copied, the frame goes to the top of the
kernel stack.  `ci` is the slot of the child. -/
def forkStacks (s : FrameLog) (k : Kernel) (ci : Fin maxProcesses) (frame : ContextFrame) :
    FrameLog :=
  let (kst, s) := s.alloc kernelStackPages
  let (ust, s) := s.alloc userStackPages
  let src := if ci = k.currentProcIdx then ust.getD 0 else (parentView k ci).stackPhysBase
  let s := s.storeThrough ust 0 (userStackPages * pageSize) fun a m =>
    { m with phys := copy m.phys a m.phys src (userStackPages * pageSize) }
  s.storeThrough kst (kernelStackPages * pageSize - contextFrameSize) contextFrameSize fun a m =>
    writeFrame m a (childFrame frame)

/-- The stack of a thread in `process_clone`, and the store through `ptid`. -/
def cloneStack (s : FrameLog) (flags childStack ptid : ℕ) (pid : ℤ) (frame : ContextFrame) :
    FrameLog :=
  let (kst, s) := s.alloc kernelStackPages
  let s := s.storeThrough kst (kernelStackPages * pageSize - contextFrameSize) contextFrameSize
    fun a m => writeFrame m a
      (childFrame { frame with rsp := if childStack ≠ 0 then childStack else frame.rsp })
  { s with mem := storePtid s.mem flags ptid pid }

/-- An allocation has returned null. -/
def Failed (s : FrameLog) : Prop := .alloc none ∈ s.uses

/-- Bytes have been stored through a null result. -/
def NullStore (s : FrameLog) : Prop := ∃ offset len, 0 < len ∧ .store none offset len ∈ s.uses

end FrameLog

/-- The calls with an allocation. -/
inductive FrameCall where
  | fork (frame : ContextFrame)
  | clone (flags childStack ptid ctid newtls : ℕ) (frame : ContextFrame)
  | mapPage (virt phys flags : ℕ)

namespace FrameCall

/-- The result of a call, if it has one, and the kernel it leaves. -/
def run (k : Kernel) : FrameCall → Option ℤ × Kernel
  | fork frame => ((processFork k frame).1, (processFork k frame).2)
  | clone flags childStack ptid ctid newtls frame =>
    let r := processClone k flags childStack ptid ctid newtls frame
    (r.1, r.2)
  | mapPage virt phys flags => (none, { k with mem := Mm.mapPage k.mem virt phys flags })

/-- What a call does with frames.  Without a free slot `process_fork` and `process_clone` return
before they allocate anything. -/
def log (k : Kernel) : FrameCall → FrameLog
  | fork frame =>
    match forkSlot k.procs with
    | none => ⟨k.mem, []⟩
    | some ci => FrameLog.forkStacks ⟨k.mem, []⟩ k ci frame
  | clone flags childStack ptid _ _ frame =>
    match forkSlot k.procs with
    | none => ⟨k.mem, []⟩
    | some ci =>
      if flags.testBit 8 then FrameLog.cloneStack ⟨k.mem, []⟩ flags childStack ptid k.nextPid frame
      else FrameLog.forkStacks ⟨k.mem, []⟩ k ci frame
  | mapPage virt phys flags => FrameLog.mapPage ⟨k.mem, []⟩ virt phys flags

/-- `process_fork` and `process_clone`. -/
def makesProcess : FrameCall → Bool
  | fork _ | clone .. => true
  | mapPage .. => false

end FrameCall

/-- **A failed allocation is contained**: nothing is stored through a null result, every
translation is as before, and no process is made. -/
def Contained (k : Kernel) (c : FrameCall) : Prop :=
  (c.log k).Failed →
    ¬ (c.log k).NullStore ∧
    (∀ virt x, translate k.mem virt = some x → translate (c.run k).2.mem virt = some x) ∧
    (c.makesProcess = true → (c.run k).1 = some (-12) ∧
      ∀ i, ((c.run k).2.procs i).active = true → (k.procs i).active = true)

/-! ## The log is kept beside the memory -/

section Log

variable {s : FrameLog} {m : Mem} {t i virt : ℕ}

namespace FrameLog

lemma ensurePdpt_mem (s : FrameLog) (virt : ℕ) :
    (s.ensurePdpt virt).mem = Mm.ensurePdpt s.mem virt :=
  apply_ite FrameLog.mem _ _ _

lemma ensurePd_mem (s : FrameLog) (virt : ℕ) : (s.ensurePd virt).mem = Mm.ensurePd s.mem virt :=
  apply_ite FrameLog.mem _ _ _

lemma ensurePt_mem (s : FrameLog) (virt : ℕ) : (s.ensurePt virt).mem = Mm.ensurePt s.mem virt := by
  refine (apply_ite FrameLog.mem _ _ _).trans ?_
  rw [apply_ite FrameLog.mem]
  rfl

lemma mapPage_mem (s : FrameLog) (virt phys flags : ℕ) :
    (s.mapPage virt phys flags).mem = Mm.mapPage s.mem virt phys flags := by
  have htables : (((s.ensurePdpt virt).ensurePd virt).ensurePt virt).mem =
      ensureTables s.mem virt := by
    rw [ensurePt_mem, ensurePd_mem, ensurePdpt_mem, ensureTables]
  rw [mapPage, Mm.mapPage, ← htables]

end FrameLog

/-- The frame lies at the top of the kernel stack. -/
lemma kstack_frame (base : ℕ) :
    base + (kernelStackPages * pageSize - contextFrameSize) =
      base + kernelStackPages * pageSize - contextFrameSize :=
  (Nat.add_sub_assoc (by decide) base).symm

lemma FrameCall.log_fork_mem (k : Kernel) (frame : ContextFrame) :
    (FrameCall.log k (.fork frame)).mem = (processFork k frame).2.mem := by
  cases hslot : forkSlot k.procs <;>
    simp only [FrameCall.log, processFork, hslot, FrameLog.forkStacks, FrameLog.alloc,
      FrameLog.storeThrough, kstack_frame, Nat.add_zero]

lemma FrameCall.log_clone_of_fork {flags : ℕ} (hvm : flags.testBit 8 = false) (k : Kernel)
    (childStack ptid ctid newtls : ℕ) (frame : ContextFrame) :
    FrameCall.log k (.clone flags childStack ptid ctid newtls frame) = FrameCall.log k (.fork frame) := by
  cases hslot : forkSlot k.procs <;>
    simp only [FrameCall.log, hslot, hvm, Bool.false_eq_true, if_false]

/-- **The log and the call**: the memory beside the log is the one the call leaves. -/
theorem FrameCall.log_mem (k : Kernel) (c : FrameCall) : (c.log k).mem = (c.run k).2.mem := by
  cases c with
  | fork frame => exact FrameCall.log_fork_mem k frame
  | clone flags childStack ptid ctid newtls frame =>
    by_cases hvm : flags.testBit 8 = true
    · cases hslot : forkSlot k.procs <;>
        simp only [FrameCall.log, FrameCall.run, processClone, cloneThread, hslot, hvm, if_true,
          FrameLog.cloneStack, FrameLog.alloc, FrameLog.storeThrough, kstack_frame]
    · rw [FrameCall.log_clone_of_fork (Bool.eq_false_of_not_eq_true hvm), FrameCall.log_fork_mem]
      simp only [FrameCall.run, processClone, if_neg hvm]
  | mapPage virt phys flags => exact FrameLog.mapPage_mem _ virt phys flags

/-! ## A null result is stored through -/

namespace FrameLog

lemma failed_used {p : Option ℕ} {len : ℕ} (hlen : 0 < len) (l : List FrameUse) (m m' : Mem) :
    ((⟨m', l ++ [.alloc p] ++ [.store p 0 len]⟩ : FrameLog).Failed ↔
      (⟨m, l⟩ : FrameLog).Failed ∨ p = none) ∧
    ((⟨m', l ++ [.alloc p] ++ [.store p 0 len]⟩ : FrameLog).NullStore ↔
      (⟨m, l⟩ : FrameLog).NullStore ∨ p = none) := by
  refine ⟨by simp [Failed, eq_comm], ?_⟩
  simp only [NullStore, List.mem_append, List.mem_singleton, FrameUse.store.injEq, reduceCtorEq,
    or_false]
  constructor
  · rintro ⟨offset, n, hn, hmem | ⟨hp, -⟩⟩
    · exact Or.inl ⟨offset, n, hn, hmem⟩
    · exact Or.inr hp.symm
  · rintro (⟨offset, n, hn, hmem⟩ | rfl)
    · exact ⟨offset, n, hn, Or.inl hmem⟩
    · exact ⟨0, len, hlen, Or.inr ⟨rfl, rfl, rfl⟩⟩

lemma newTable_failed (s : FrameLog) (t i : ℕ) :
    ((s.newTable t i).Failed ↔ s.Failed ∨ (allocPage s.mem).1 = none) ∧
      ((s.newTable t i).NullStore ↔ s.NullStore ∨ (allocPage s.mem).1 = none) :=
  failed_used (by decide) s.uses s.mem _

lemma splitHuge_failed (s : FrameLog) (t i : ℕ) :
    ((s.splitHuge t i).Failed ↔ s.Failed ∨ (allocPage s.mem).1 = none) ∧
      ((s.splitHuge t i).NullStore ↔ s.NullStore ∨ (allocPage s.mem).1 = none) :=
  failed_used (by decide) s.uses s.mem _

/-- Every null result so far has been stored through. -/
def Unchecked (s : FrameLog) : Prop := s.Failed → s.NullStore

lemma newTable_unchecked (h : s.Unchecked) (t i : ℕ) : (s.newTable t i).Unchecked := by
  intro hf
  exact (newTable_failed s t i).2.mpr (((newTable_failed s t i).1.mp hf).imp_left h)

lemma splitHuge_unchecked (h : s.Unchecked) (t i : ℕ) : (s.splitHuge t i).Unchecked := by
  intro hf
  exact (splitHuge_failed s t i).2.mpr (((splitHuge_failed s t i).1.mp hf).imp_left h)

lemma mapPage_unchecked (h : s.Unchecked) (virt phys flags : ℕ) :
    (s.mapPage virt phys flags).Unchecked := by
  have h1 : (s.ensurePdpt virt).Unchecked := by
    unfold ensurePdpt
    split_ifs
    · exact h
    · exact newTable_unchecked h _ _
  have h2 : ((s.ensurePdpt virt).ensurePd virt).Unchecked := by
    unfold ensurePd
    split_ifs
    · exact h1
    · exact newTable_unchecked h1 _ _
  have h3 : (((s.ensurePdpt virt).ensurePd virt).ensurePt virt).Unchecked := by
    unfold ensurePt
    dsimp only
    split_ifs
    · exact splitHuge_unchecked h2 _ _
    · exact h2
    · exact newTable_unchecked h2 _ _
  exact h3

lemma forkStacks_failed (m : Mem) (k : Kernel) (ci : Fin maxProcesses) (frame : ContextFrame) :
    (forkStacks ⟨m, []⟩ k ci frame).Failed ↔
      (allocPages m kernelStackPages).1 = none ∨
        (allocPages (allocPages m kernelStackPages).2 userStackPages).1 = none := by
  simp [forkStacks, alloc, storeThrough, Failed, eq_comm]

lemma forkStacks_unchecked (m : Mem) (k : Kernel) (ci : Fin maxProcesses) (frame : ContextFrame) :
    (forkStacks ⟨m, []⟩ k ci frame).Unchecked := by
  intro hf
  rcases (forkStacks_failed m k ci frame).mp hf with hnone | hnone
  · refine ⟨kernelStackPages * pageSize - contextFrameSize, contextFrameSize, by decide, ?_⟩
    simp [forkStacks, alloc, storeThrough, hnone]
  · refine ⟨0, userStackPages * pageSize, by decide, ?_⟩
    simp [forkStacks, alloc, storeThrough, hnone]

lemma cloneStack_failed (m : Mem) (flags childStack ptid : ℕ) (pid : ℤ) (frame : ContextFrame) :
    (cloneStack ⟨m, []⟩ flags childStack ptid pid frame).Failed ↔ (allocPages m kernelStackPages).1 = none := by
  simp [cloneStack, alloc, storeThrough, Failed, eq_comm]

lemma cloneStack_unchecked (m : Mem) (flags childStack ptid : ℕ) (pid : ℤ) (frame : ContextFrame) :
    (cloneStack ⟨m, []⟩ flags childStack ptid pid frame).Unchecked := by
  intro hf
  have hnone := (cloneStack_failed m flags childStack ptid pid frame).mp hf
  refine ⟨kernelStackPages * pageSize - contextFrameSize, contextFrameSize, by decide, ?_⟩
  simp [cloneStack, alloc, storeThrough, hnone]

lemma empty_unchecked (m : Mem) : (⟨m, []⟩ : FrameLog).Unchecked := by
  intro h
  cases h

end FrameLog

/-- **A null result is always stored through.** -/
theorem FrameCall.log_unchecked (k : Kernel) (c : FrameCall) : (c.log k).Unchecked := by
  cases c with
  | fork frame =>
    unfold FrameCall.log
    cases forkSlot k.procs with
    | none => exact FrameLog.empty_unchecked k.mem
    | some ci => exact FrameLog.forkStacks_unchecked k.mem k ci frame
  | clone flags childStack ptid ctid newtls frame =>
    unfold FrameCall.log
    cases forkSlot k.procs with
    | none => exact FrameLog.empty_unchecked k.mem
    | some ci =>
      dsimp only
      split_ifs
      · exact FrameLog.cloneStack_unchecked k.mem flags childStack ptid k.nextPid frame
      · exact FrameLog.forkStacks_unchecked k.mem k ci frame
  | mapPage virt phys flags =>
    exact FrameLog.mapPage_unchecked (FrameLog.empty_unchecked k.mem) virt phys flags

lemma contained_iff_not_failed (k : Kernel) (c : FrameCall) :
    Contained k c ↔ ¬ (c.log k).Failed :=
  ⟨fun h hf => (h hf).1 (c.log_unchecked k hf), fun h hf => absurd hf h⟩

/-! ## The calls of `alloc_page` in `map_page` -/

/-- The tables that `map_page` has to make for `virt`; a 2 MB page counts as a missing table. -/
def tablesNeeded (m : Mem) (virt : ℕ) : ℕ :=
  if isPresent (entry m m.kernelPml4 (pml4Idx virt)) = false then 3
  else if isPresent (entry m (pdptOf m virt) (pdptIdx virt)) = false then 2
  else if isHuge (entry m (pdOf m virt) (pdIdx virt)) = true ∨
    isPresent (entry m (pdOf m virt) (pdIdx virt)) = false then 1
  else 0

/-- No page table of the first two levels lies in a free frame. -/
structure TablesHeld (m : Mem) : Prop where
  aligned : m.kernelPml4 % 4096 = 0
  pml4 : ∀ k < maxPages, m.pageBitmap k = false → m.kernelPml4 ≠ frameAddr k
  pdpt : ∀ virt, isPresent (entry m m.kernelPml4 (pml4Idx virt)) = true →
    ∀ k < maxPages, m.pageBitmap k = false → pdptOf m virt ≠ frameAddr k

lemma allocPage_ne_none_iff : (allocPage m).1 ≠ none ↔ 0 < freeFrames m := by
  refine ⟨freeFrames_pos_of_allocPage, fun h => ?_⟩
  obtain ⟨a, m', ha⟩ := allocPage_isSome h
  rw [ha]
  exact Option.some_ne_none a

namespace FrameLog

lemma ensurePdpt_failed (s : FrameLog) (virt : ℕ) :
    (s.ensurePdpt virt).Failed ↔ s.Failed ∨
      (isPresent (entry s.mem s.mem.kernelPml4 (pml4Idx virt)) = false ∧
        (allocPage s.mem).1 = none) := by
  unfold ensurePdpt
  split_ifs with hp
  · simp [hp]
  · simp [(newTable_failed ..).1, hp]

lemma ensurePd_failed (s : FrameLog) (virt : ℕ) :
    (s.ensurePd virt).Failed ↔ s.Failed ∨
      (isPresent (entry s.mem (pdptOf s.mem virt) (pdptIdx virt)) = false ∧
        (allocPage s.mem).1 = none) := by
  unfold ensurePd
  split_ifs with hp
  · simp [hp]
  · simp [(newTable_failed ..).1, hp]

lemma ensurePt_failed (s : FrameLog) (virt : ℕ) :
    (s.ensurePt virt).Failed ↔ s.Failed ∨
      ((isHuge (entry s.mem (pdOf s.mem virt) (pdIdx virt)) = true ∨
        isPresent (entry s.mem (pdOf s.mem virt) (pdIdx virt)) = false) ∧
          (allocPage s.mem).1 = none) := by
  unfold ensurePt
  dsimp only
  split_ifs with hh hp
  · simp [(splitHuge_failed ..).1, hh]
  · simp [hh, hp]
  · simp [(newTable_failed ..).1, hh, hp]

/-- The log of `map_page` has a failure exactly if some call of `alloc_page` fails. -/
lemma mapPage_failed (m : Mem) (virt phys flags : ℕ) :
    (mapPage ⟨m, []⟩ virt phys flags).Failed ↔ ¬ AllocsSucceed m virt := by
  have hlast : (mapPage ⟨m, []⟩ virt phys flags).Failed ↔
      (((ensurePdpt ⟨m, []⟩ virt).ensurePd virt).ensurePt virt).Failed := Iff.rfl
  have hempty : ¬ (⟨m, []⟩ : FrameLog).Failed := List.not_mem_nil
  rw [hlast, ensurePt_failed, ensurePd_failed, ensurePdpt_failed, ensurePd_mem, ensurePdpt_mem]
  simp only [AllocsSucceed, not_and_or, Classical.not_imp, ne_eq, not_not, or_assoc, hempty,
    false_or]

end FrameLog

/-- A fresh table that has been linked into a table which lies in no free frame. -/
lemma newTable_fresh (ht : t % 4096 = 0) (hi : i < 512)
    (hheld : ∀ k < maxPages, m.pageBitmap k = false → t ≠ frameAddr k) (hfree : 0 < freeFrames m) :
    ∃ k < maxPages, m.pageBitmap k = false ∧
      ((newTable m t i).pageBitmap =
        fun x => if k ≤ x ∧ x < k + 1 then true else m.pageBitmap x) ∧
      (newTable m t i).kernelPml4 = m.kernelPml4 ∧
      entry (newTable m t i) t i = frameAddr k + 7 ∧
      (∀ s j, s % 4096 = 0 → j < 512 → s ≠ frameAddr k → (s = t → j ≠ i) →
        entry (newTable m t i) s j = entry m s j) ∧
      (∀ j < 512, entry (newTable m t i) (frameAddr k) j = 0) ∧
      freeFrames (newTable m t i) + 1 = freeFrames m := by
  obtain ⟨k, hk, hbit, halloc, hbitmap, hlink⟩ := linkFrame_spec ht hi hheld hfree
  obtain ⟨hself, hother, hzero⟩ := hlink _ (newTable_eq hfree halloc)
  have hmap : (newTable m t i).pageBitmap = _ :=
    (congrArg Mem.pageBitmap (newTable_eq hfree halloc)).trans hbitmap
  refine ⟨k, hk, hbit, hmap, ?_, hself, hother, hzero, ?_⟩
  · rw [newTable_eq hfree halloc]
    exact allocPages_kernelPml4 m 1
  · exact freeFrames_of_marked hk (fun x h1 h2 => (show x = k by omega) ▸ hbit) hmap

/-- What `map_page` needs below a directory-pointer table that is there. -/
lemma allocs_below_pdpt (ha : m.kernelPml4 % 4096 = 0)
    (hpml4 : ∀ k < maxPages, m.pageBitmap k = false → m.kernelPml4 ≠ frameAddr k)
    (hpdpt : ∀ k < maxPages, m.pageBitmap k = false → pdptOf m virt ≠ frameAddr k)
    (hp1 : isPresent (entry m m.kernelPml4 (pml4Idx virt)) = true) :
    ((isPresent (entry m (pdptOf m virt) (pdptIdx virt)) = false → (allocPage m).1 ≠ none) ∧
      (isHuge (entry (ensurePd m virt) (pdOf (ensurePd m virt) virt) (pdIdx virt)) = true ∨
        isPresent (entry (ensurePd m virt) (pdOf (ensurePd m virt) virt) (pdIdx virt)) = false →
          (allocPage (ensurePd m virt)).1 ≠ none)) ↔ tablesNeeded m virt ≤ freeFrames m := by
  obtain ⟨hi1, hi2, hi3, -⟩ := idx_lt virt
  rw [tablesNeeded, if_neg (by simp [hp1]), allocPage_ne_none_iff, allocPage_ne_none_iff]
  by_cases hp2 : isPresent (entry m (pdptOf m virt) (pdptIdx virt)) = false
  · rw [if_pos hp2]
    by_cases hfree : 0 < freeFrames m
    · -- the directory is new and empty, so a page table is needed as well
      have hd : pdptOf m virt % 4096 = 0 := Nat.mul_mod_left _ _
      obtain ⟨k, hk, hbit, hmap, hroot, hself, hother, hzero, hcount⟩ :=
        newTable_fresh hd hi2 hpdpt hfree
      have hm2 : ensurePd m virt = newTable m (pdptOf m virt) (pdptIdx virt) :=
        if_neg (by simp [hp2])
      rw [← hm2] at hmap hroot hself hother hzero hcount
      have hpdpt2 : pdptOf (ensurePd m virt) virt = pdptOf m virt := by
        rw [pdptOf, hroot, hother _ _ ha hi1 (hpml4 k hk hbit), pdptOf]
        rintro heq hidx
        rw [← heq, ← hidx, hp1] at hp2
        cases hp2
      have hpd2 : pdOf (ensurePd m virt) virt = frameAddr k := by
        rw [pdOf, hpdpt2, hself]
        exact (tableEntry (frameAddr_mod k)).2.2.2.2
      rw [hpd2, hzero _ hi3]
      simp only [isPresent_zero, isHuge_zero]
      constructor
      · rintro ⟨-, h⟩
        have := h (Or.inr trivial)
        omega
      · intro h
        exact ⟨fun _ => hfree, fun _ => by omega⟩
    · constructor
      · rintro ⟨h, -⟩
        exact absurd (h hp2) hfree
      · intro h
        omega
  · have hm2 : ensurePd m virt = m := if_pos (by simpa using hp2)
    rw [if_neg hp2, hm2]
    constructor
    · rintro ⟨-, h⟩
      split_ifs with h3
      · exact h h3
      · exact Nat.zero_le _
    · intro h
      refine ⟨fun h2 => absurd h2 hp2, fun h3 => ?_⟩
      rwa [if_pos h3] at h

/-- **The frames `map_page` needs** are one for each missing level. -/
lemma allocsSucceed_iff (h : TablesHeld m) (virt : ℕ) :
    AllocsSucceed m virt ↔ tablesNeeded m virt ≤ freeFrames m := by
  obtain ⟨hi1, hi2, -, -⟩ := idx_lt virt
  by_cases hp1 : isPresent (entry m m.kernelPml4 (pml4Idx virt)) = true
  · have hm1 : ensurePdpt m virt = m := if_pos hp1
    rw [← allocs_below_pdpt h.aligned h.pml4 (h.pdpt virt hp1) hp1]
    unfold AllocsSucceed
    rw [hm1]
    simp [hp1]
  · have hp1 := Bool.eq_false_of_not_eq_true hp1
    have hneed : tablesNeeded m virt = 3 := if_pos hp1
    have hm1 : ensurePdpt m virt = newTable m m.kernelPml4 (pml4Idx virt) :=
      if_neg (by simp [hp1])
    by_cases hfree : 0 < freeFrames m
    · obtain ⟨k, hk, hbit, hmap, hroot, hself, -, hzero, hcount⟩ :=
        newTable_fresh h.aligned hi1 h.pml4 hfree
      rw [← hm1] at hmap hroot hself hzero hcount
      have hk0 := frameAddr_mod k
      -- the frames that are still free are neither the root nor the new table
      have hstill : ∀ x, (ensurePdpt m virt).pageBitmap x = false →
          m.pageBitmap x = false ∧ x ≠ k := by
        intro x hx
        rw [hmap] at hx
        dsimp only at hx
        split_ifs at hx with hxk
        exact ⟨hx, fun he => hxk (by omega)⟩
      have hpdpt : pdptOf (ensurePdpt m virt) virt = frameAddr k := by
        rw [pdptOf, hroot, hself]
        exact (tableEntry hk0).2.2.2.2
      have hpresent : isPresent (entry (ensurePdpt m virt) (ensurePdpt m virt).kernelPml4
          (pml4Idx virt)) = true := by
        rw [hroot, hself]
        exact (tableEntry hk0).1
      have hbelow := allocs_below_pdpt (by rw [hroot]; exact h.aligned)
        (by rw [hroot]; exact fun x hx hb => h.pml4 x hx (hstill x hb).1)
        (by
          rw [hpdpt]
          exact fun x hx hb he => (hstill x hb).2 (frameAddr_inj he).symm) hpresent
      have hneed1 : tablesNeeded (ensurePdpt m virt) virt = 2 := by
        rw [tablesNeeded, if_neg (by rw [hpresent]; decide), hpdpt, hzero _ hi2, if_pos isPresent_zero]
      rw [hneed1] at hbelow
      rw [hneed, AllocsSucceed, hbelow, allocPage_ne_none_iff]
      constructor
      · rintro ⟨-, hrest⟩
        omega
      · intro hthree
        exact ⟨fun _ => hfree, by omega⟩
    · rw [hneed]
      constructor
      · rintro ⟨hfirst, -⟩
        exact absurd (allocPage_ne_none_iff.mp (hfirst hp1)) hfree
      · intro hthree
        omega

/-- In a tree of tables none lies in a free frame. -/
lemma TablesHeld.of_tablesOk (h : TablesOk m) : TablesHeld m := by
  refine ⟨h.aligned h.root, fun k _ hb => h.ne_frameAddr hb h.root, fun virt hp k _ hb => ?_⟩
  cases h1 : tables m (path1 virt) with
  | none =>
    rw [h.entry_root_none h1] at hp
    cases hp
  | some t =>
    rw [h.pdptOf_eq h1]
    exact h.ne_frameAddr hb h1

/-! ## What the bitmap must hold -/

/-- The frames from `r` on are the first `count` free ones in a row. -/
def FirstRun (bm : ℕ → Bool) (count r : ℕ) : Prop :=
  IsLeast {r | r + count ≤ maxPages ∧ FreeRun bm r count} r

/-- There are frames for both stacks of a child: behind or before the first run of four free
frames, sixteen in a row are free. -/
def StacksFit (bm : ℕ → Bool) : Prop :=
  ∃ r s, FirstRun bm kernelStackPages r ∧ s + userStackPages ≤ maxPages ∧
    FreeRun bm s userStackPages ∧ (s + userStackPages ≤ r ∨ r + kernelStackPages ≤ s)

lemma stacksFit_iff :
    ((allocPages m kernelStackPages).1 ≠ none ∧
      (allocPages (allocPages m kernelStackPages).2 userStackPages).1 ≠ none) ↔
      StacksFit m.pageBitmap := by
  have hk : 0 < kernelStackPages ∧ kernelStackPages ≤ maxPages := by decide
  have hu : 0 < userStackPages ∧ userStackPages ≤ maxPages := by decide
  rw [allocPages_ne_none_iff hu.1 hu.2]
  constructor
  · rintro ⟨hfirst, s, hs, hrun⟩
    obtain ⟨r, hleast, hmap⟩ := allocPages_isLeast hk.1 hk.2 hfirst
    rw [hmap] at hrun
    refine ⟨r, s, hleast, hs, ?_, ?_⟩
    · intro x h1 h2
      have hx := hrun x h1 h2
      dsimp only at hx
      split_ifs at hx
      exact hx
    · -- the run would otherwise meet a frame of the kernel stack
      by_contra hno
      have hx := hrun (max r s) (le_max_right r s) (by omega)
      dsimp only at hx
      rw [if_pos ⟨le_max_left r s, by omega⟩] at hx
      cases hx
  · rintro ⟨r, s, hleast, hs, hrun, hapart⟩
    have hfirst := (allocPages_ne_none_iff hk.1 hk.2).mpr ⟨r, hleast.1⟩
    obtain ⟨r', hleast', hmap⟩ := allocPages_isLeast hk.1 hk.2 hfirst
    obtain rfl := hleast.unique hleast'
    refine ⟨hfirst, s, hs, ?_⟩
    rw [hmap]
    intro x h1 h2
    dsimp only
    rw [if_neg (by omega)]
    exact hrun x h1 h2

/-- The bitmap has the frames that the call takes. -/
def FramesSuffice (k : Kernel) : FrameCall → Prop
  | .fork _ => forkSlot k.procs = none ∨ StacksFit k.mem.pageBitmap
  | .clone flags _ _ _ _ _ => forkSlot k.procs = none ∨
    if flags.testBit 8 then
      ∃ r, r + kernelStackPages ≤ maxPages ∧ FreeRun k.mem.pageBitmap r kernelStackPages
    else StacksFit k.mem.pageBitmap
  | .mapPage virt _ _ => tablesNeeded k.mem virt ≤ freeFrames k.mem

lemma not_failed_fork_iff (k : Kernel) (frame : ContextFrame) :
    ¬ (FrameCall.log k (.fork frame)).Failed ↔ FramesSuffice k (.fork frame) := by
  unfold FrameCall.log FramesSuffice
  cases forkSlot k.procs with
  | none => simp [FrameLog.Failed]
  | some ci =>
    dsimp only
    rw [FrameLog.forkStacks_failed, not_or, ← stacksFit_iff]
    simp

lemma not_failed_iff (k : Kernel) (c : FrameCall) (h : c.makesProcess = true ∨ TablesHeld k.mem) :
    ¬ (c.log k).Failed ↔ FramesSuffice k c := by
  cases c with
  | fork frame => exact not_failed_fork_iff k frame
  | clone flags childStack ptid ctid newtls frame =>
    by_cases hvm : flags.testBit 8 = true
    · unfold FrameCall.log FramesSuffice
      have hk : 0 < kernelStackPages ∧ kernelStackPages ≤ maxPages := by decide
      cases forkSlot k.procs with
      | none => simp [FrameLog.Failed]
      | some ci =>
        simp only [hvm, if_true, FrameLog.cloneStack_failed, reduceCtorEq, false_or]
        exact allocPages_ne_none_iff hk.1 hk.2
    · have hvm := Bool.eq_false_of_not_eq_true hvm
      rw [FrameCall.log_clone_of_fork hvm, not_failed_fork_iff]
      simp [FramesSuffice, hvm]
  | mapPage virt phys flags =>
    have hheld : TablesHeld k.mem := h.resolve_left Bool.false_ne_true
    exact (not_congr (FrameLog.mapPage_failed k.mem virt phys flags)).trans
      (not_not.trans (allocsSucceed_iff hheld virt))

/-- **Running out of frames is contained where it does not happen**: in every state, a call
contains a failed allocation exactly if it has none.  The bitmap before the call decides that:
`process_fork` and `process_clone` need a run of free frames for each stack, and `map_page` a
free frame for each missing table. -/
theorem contained_iff (k : Kernel) (c : FrameCall) :
    (Contained k c ↔ ¬ (c.log k).Failed) ∧
      (c.makesProcess = true ∨ TablesHeld k.mem → (Contained k c ↔ FramesSuffice k c)) :=
  ⟨contained_iff_not_failed k c, fun h => (contained_iff_not_failed k c).trans (not_failed_iff k c h)⟩

/-- A kernel with one process, whose memory is `m`. -/
def oneProcess (m : Mem) : Kernel :=
  { processInit m ⟨socketSubsystemInit (tcpInit 0 fun _ => true) fun _ => [], fun _ => 0⟩
      ⟨0, 0, false⟩ with
    procs := Function.update (fun _ => Process.zero) 0
      { Process.zero with pid := 1, tgid := 1, active := true, state := .running }
    nextPid := 2 }

/-- Just after `mm_init` every `map_page` has its frames. -/
theorem contained_iff_booted :
    Contained (oneProcess (mmInit (fun _ => 0) fun _ => false)) (.mapPage 0x400000 0x5000 7) := by
  obtain ⟨hok, hfree, -⟩ := mmInit_spec (fun _ => 0) fun _ => false
  generalize mmInit (fun _ => 0) (fun _ => false) = m at hok hfree ⊢
  refine ((contained_iff (oneProcess m) (.mapPage 0x400000 0x5000 7)).2
    (Or.inr (TablesHeld.of_tablesOk hok))).mpr ?_
  have hthree : tablesNeeded m 0x400000 ≤ 3 := by
    unfold tablesNeeded
    split_ifs <;> omega
  unfold maxPages at hfree
  exact hthree.trans (show 3 ≤ freeFrames m by omega)

/-- A memory without a free frame. -/
def fullMem : Mem := ⟨fun _ => 0, fun _ => true, 0x2000000⟩

lemma allocPages_fullMem {count : ℕ} (h0 : 0 < count) (hc : count ≤ maxPages) :
    allocPages fullMem count = (none, fullMem) := by
  have hnone : (allocPages fullMem count).1 = none := by
    by_contra hsome
    obtain ⟨r, -, hrun⟩ := (allocPages_ne_none_iff h0 hc).mp hsome
    cases hrun r le_rfl (by omega)
  exact Prod.ext hnone (allocPages_eq_none (Prod.ext hnone rfl))

/-- **Fork without a frame** returns a child, which is active, after it has written a stack of
65536 bytes from address 0 on.  `process_clone` and `map_page` write through the null result as
well. -/
theorem fork_without_frames :
    (FrameCall.run (oneProcess fullMem) (.fork someFrame)).1 = some 2 ∧
      ((FrameCall.run (oneProcess fullMem) (.fork someFrame)).2.procs 1).active = true ∧
      ((oneProcess fullMem).procs 1).active = false ∧
      .store none 0 65536 ∈ (FrameCall.log (oneProcess fullMem) (.fork someFrame)).uses ∧
      ¬ Contained (oneProcess fullMem) (.fork someFrame) ∧
      ¬ Contained (oneProcess fullMem) (.clone 0x100 0 0 0 0 someFrame) ∧
      ¬ Contained (oneProcess fullMem) (.mapPage 0x400000 0x5000 7) := by
  have hslot : forkSlot (oneProcess fullMem).procs = some 1 := by decide
  have hk := allocPages_fullMem (show 0 < kernelStackPages by decide) (by decide)
  have hu := allocPages_fullMem (show 0 < userStackPages by decide) (by decide)
  have hmem : (oneProcess fullMem).mem = fullMem := rfl
  refine ⟨?_, ?_, rfl, ?_, ?_, ?_, ?_⟩
  · simp only [FrameCall.run, processFork, hslot]
    rfl
  · simp only [FrameCall.run, processFork, hslot, Function.update_self]
  · simp only [FrameCall.log, hslot, FrameLog.forkStacks, FrameLog.alloc, FrameLog.storeThrough,
      hmem, hk, hu, List.nil_append, List.cons_append]
    exact .tail _ (.tail _ (.head _))
  · rw [contained_iff_not_failed, not_not]
    simp [FrameCall.log, hslot, FrameLog.forkStacks_failed, hmem, hk]
  · rw [contained_iff_not_failed, not_not]
    have hvm : Nat.testBit 0x100 8 = true := rfl
    simp only [FrameCall.log, hslot, hvm, if_true, FrameLog.cloneStack_failed, hmem, hk]
  · rw [contained_iff_not_failed, not_not]
    refine (FrameLog.mapPage_failed fullMem _ _ _).mpr fun h => ?_
    exact h.1 (by decide +kernel) (congrArg Prod.fst (allocPages_fullMem Nat.one_pos (by decide)))

end Log

end Bangos.Proc
