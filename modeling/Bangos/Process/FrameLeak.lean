import Bangos.Process.KernelTables

/-!
# The frames of a process's life

`process_fork` takes four frames for a kernel stack and sixteen for a user stack.  Neither
`process_exit` nor `process_wait4` gives a frame back.  So a life cycle (fork, exit, wait) leaves
the count of free frames as it was, page tables apart, exactly when nothing in it took a frame.
-/

namespace Bangos.Proc

open Bangos.Mm Bangos.Fs Bangos.Net Bangos.Loader Bangos.Syscall Runs

/-! ## What a step takes -/

/-- The system calls that set up memory. -/
def Call.isMemory : Call → Bool
  | .execve _ _ | .mmap _ _ _ _ | .munmap _ _ | .mprotect _ _ _ | .brk _ => true
  | _ => false

/-- The steps of a computation without memory system calls. -/
def KEvent.computes : KEvent → Bool
  | .create _ _ => false
  | .call c => !c.isMemory
  | _ => true

/-- The frames that a run of `count` takes from `m`, if there is one. -/
def runFrames (m : Mem) (count : ℕ) : ℕ := if (allocPages m count).1.isSome then count else 0

/-- The frames that `process_fork` takes for the stacks of the child. -/
def forkFrames (k : Kernel) : ℕ :=
  if (forkSlot k.procs).isSome then
    runFrames k.mem kernelStackPages +
      runFrames (allocPages k.mem kernelStackPages).2 userStackPages
  else 0

/-- The frames that `process_clone` takes. -/
def cloneFrames (k : Kernel) (flags : ℕ) : ℕ :=
  if flags.testBit 8 then
    if (forkSlot k.procs).isSome then runFrames k.mem kernelStackPages else 0
  else forkFrames k

/-- `exception_handler` resolves the page fault. -/
def faultServed (k : Kernel) (faultAddr errorCode : ℕ) : Bool :=
  (vmmHandlePageFault k.mem k.current.vm.vmas k.current.active faultAddr errorCode).1 == 0

/-- The frames that a step takes for stacks and pages. -/
def ownFrames (k : Kernel) (e : KEvent) : ℕ :=
  if k.halted ∨ k.pos k.currentProcIdx ≠ .user then 0
  else match e with
    | .call (.fork _) => forkFrames k
    | .call (.clone flags _ _ _ _ _) => cloneFrames k flags
    | .pageFault faultAddr errorCode => if faultServed k faultAddr errorCode then 1 else 0
    | _ => 0

/-- The frames that `map_page` takes: one for each table that is missing on the way to the page, and
one for the table of a 2 MB page that it splits, if there is a frame. -/
def pageTableFrames (m : Mem) (virt : ℕ) : ℕ :=
  let m1 := ensurePdpt m virt
  let m2 := ensurePd m1 virt
  let e := entry m2 (pdOf m2 virt) (pdIdx virt)
  (if isPresent (entry m m.kernelPml4 (pml4Idx virt)) then 0 else runFrames m 1) +
    (if isPresent (entry m1 (pdptOf m1 virt) (pdptIdx virt)) then 0 else runFrames m1 1) +
    if isHuge e then runFrames m2 1 else if isPresent e then 0 else runFrames m2 1

/-- The frames that `map_user_pages` takes for page tables. -/
def userTableFrames (m : Mem) (virt phys : ℕ) : ℕ → ℕ
  | 0 => 0
  | n + 1 => userTableFrames m virt phys n +
    pageTableFrames (mapUserPages m virt phys n) (u64 (virt + n * pageSize))

/-- The frames that mapping the segments of a process takes for page tables. -/
def segmentTableFrames (m : Mem) : List ElfSegment → ℕ
  | [] => 0
  | s :: ss => userTableFrames m s.virtAddr s.physAddr s.numPages +
    segmentTableFrames (mapUserPages m s.virtAddr s.physAddr s.numPages) ss

/-- The frames that a switch to a process takes for page tables. -/
def remapFrames (m : Mem) (p : Process) : ℕ :=
  segmentTableFrames m p.segments + if p.stackPhysBase ≠ 0 then
    userTableFrames (mapSegments m p.segments) stackVirtBase p.stackPhysBase userStackPages else 0

/-- The frames that a step takes for page tables: those that `map_page` takes while a tick maps
the pages of the next process, or when a page fault is resolved. -/
def tableFrames (k : Kernel) (e : KEvent) : ℕ :=
  match e with
  | .tick frame => if k.halted then 0 else ((remapped k frame).map (remapFrames k.mem)).getD 0
  | .pageFault faultAddr _ =>
    if ownFrames k e = 1 then pageTableFrames (allocPage k.mem).2 (faultAddr / 4096 * 4096) else 0
  | _ => 0

section

variable {k : Kernel} {m : Mem}

lemma freeFrames_allocPages_add (m : Mem) (count : ℕ) (hc : count ≤ maxPages) :
    freeFrames (allocPages m count).2 + runFrames m count = freeFrames m := by
  unfold runFrames
  rcases h : allocPages m count with ⟨_ | a, m'⟩
  · rw [allocPages_eq_none h]
    simp
  · simpa using freeFrames_allocPages hc h

/-! ## What `map_page` takes -/

lemma freeFrames_newTable (m : Mem) (t i : ℕ) :
    freeFrames (newTable m t i) + runFrames m 1 = freeFrames m := by
  unfold newTable
  rw [freeFrames_congr (setEntry_pageBitmap ..)]
  exact freeFrames_allocPages_add m 1 (by decide)

lemma freeFrames_splitHuge (m : Mem) (t i : ℕ) :
    freeFrames (splitHuge m t i) + runFrames m 1 = freeFrames m := by
  have hbits : (splitHuge m t i).pageBitmap = (allocPage m).2.pageBitmap := by
    unfold splitHuge
    dsimp only
    rw [setEntry_pageBitmap]
    exact (fillSplitUpTo_globals _ _ _ 512).1
  rw [freeFrames_congr hbits]
  exact freeFrames_allocPages_add m 1 (by decide)

lemma freeFrames_ensureTables (m : Mem) (virt : ℕ) :
    freeFrames (ensureTables m virt) + pageTableFrames m virt = freeFrames m := by
  have h1 : freeFrames (ensurePdpt m virt) + (if isPresent (entry m m.kernelPml4 (pml4Idx virt))
      then 0 else runFrames m 1) = freeFrames m := by
    unfold ensurePdpt
    split_ifs
    · exact Nat.add_zero _
    · exact freeFrames_newTable ..
  have h2 : ∀ m, freeFrames (ensurePd m virt) + (if isPresent (entry m (pdptOf m virt) (pdptIdx virt))
      then 0 else runFrames m 1) = freeFrames m := by
    intro m
    unfold ensurePd
    split_ifs
    · exact Nat.add_zero _
    · exact freeFrames_newTable ..
  have h3 : ∀ m, freeFrames (ensurePt m virt) + (if isHuge (entry m (pdOf m virt) (pdIdx virt))
      then runFrames m 1 else if isPresent (entry m (pdOf m virt) (pdIdx virt)) then 0
      else runFrames m 1) = freeFrames m := by
    intro m
    unfold ensurePt
    dsimp only
    split_ifs
    · exact freeFrames_splitHuge ..
    · exact Nat.add_zero _
    · exact freeFrames_newTable ..
  have h2 := h2 (ensurePdpt m virt)
  have h3 := h3 (ensurePd (ensurePdpt m virt) virt)
  unfold ensureTables pageTableFrames
  dsimp only
  omega

lemma freeFrames_mapPage (m : Mem) (virt phys flags : ℕ) :
    freeFrames (mapPage m virt phys flags) + pageTableFrames m virt = freeFrames m := by
  unfold mapPage
  dsimp only
  rw [freeFrames_congr (setEntry_pageBitmap ..)]
  exact freeFrames_ensureTables m virt

lemma freeFrames_mapUserPages (m : Mem) (virt phys n : ℕ) :
    freeFrames (mapUserPages m virt phys n) + userTableFrames m virt phys n = freeFrames m := by
  induction n with
  | zero => exact Nat.add_zero _
  | succ n ih =>
    have hpage := freeFrames_mapPage (mapUserPages m virt phys n) (u64 (virt + n * pageSize))
      (u64 (phys + n * pageSize)) pagePwu
    rw [mapUserPages, userTableFrames]
    omega

lemma freeFrames_remap (m : Mem) (p : Process) :
    freeFrames (remap m p) + remapFrames m p = freeFrames m := by
  have hseg : freeFrames (mapSegments m p.segments) + segmentTableFrames m p.segments =
      freeFrames m := by
    unfold mapSegments
    induction p.segments generalizing m with
    | nil => exact Nat.add_zero _
    | cons s ss ih =>
      have hfirst := freeFrames_mapUserPages m s.virtAddr s.physAddr s.numPages
      have hrest := ih (mapUserPages m s.virtAddr s.physAddr s.numPages)
      rw [List.foldl_cons, segmentTableFrames]
      omega
  have hstack := freeFrames_mapUserPages (mapSegments m p.segments) stackVirtBase p.stackPhysBase
    userStackPages
  unfold remap remapFrames
  dsimp only
  split_ifs <;> omega

/-! ## The account of one step -/

lemma processFork_freeFrames (k : Kernel) (frame : ContextFrame) :
    freeFrames (processFork k frame).2.mem + forkFrames k = freeFrames k.mem := by
  cases h : forkSlot k.procs with
  | none => simp [processFork, forkFrames, h]
  | some ci =>
    have h1 := freeFrames_allocPages_add k.mem kernelStackPages (by decide)
    have h2 := freeFrames_allocPages_add (allocPages k.mem kernelStackPages).2 userStackPages
      (by decide)
    have hmem : freeFrames (processFork k frame).2.mem =
        freeFrames (allocPages (allocPages k.mem kernelStackPages).2 userStackPages).2 := by
      simp only [processFork, h]
      exact freeFrames_congr rfl
    have hown : forkFrames k = runFrames k.mem kernelStackPages +
        runFrames (allocPages k.mem kernelStackPages).2 userStackPages := by
      rw [forkFrames, h]
      exact if_pos rfl
    omega

lemma processClone_freeFrames (k : Kernel) (flags childStack ptid ctid newtls : ℕ)
    (frame : ContextFrame) :
    freeFrames (processClone k flags childStack ptid ctid newtls frame).2.mem + cloneFrames k flags =
      freeFrames k.mem := by
  unfold processClone cloneFrames
  split_ifs with hbit hslot
  · obtain ⟨ti, h⟩ := Option.isSome_iff_exists.mp hslot
    have hmem : freeFrames (cloneThread k flags childStack ptid ctid newtls frame).2.mem =
        freeFrames (allocPages k.mem kernelStackPages).2 := by
      simp only [cloneThread, h, storePtid]
      split_ifs <;> exact freeFrames_congr rfl
    rw [hmem]
    exact freeFrames_allocPages_add k.mem kernelStackPages (by decide)
  · have h : forkSlot k.procs = none := by simpa using hslot
    simp [cloneThread, h]
  · exact processFork_freeFrames k frame

lemma tick_freeFrames (k : Kernel) (frame : ℕ) : freeFrames (schedulerTick k frame).2.mem +
    ((remapped k frame).map (remapFrames k.mem)).getD 0 = freeFrames k.mem := by
  rw [schedulerTick_mem]
  cases remapped k frame with
  | none => exact Nat.add_zero _
  | some p => exact freeFrames_remap k.mem p

/-- A page fault that is resolved takes a frame and some for tables; any other takes none. -/
lemma handleFault_freeFrames (k : Kernel) (faultAddr errorCode : ℕ) :
    (faultServed k faultAddr errorCode = true ∧
      freeFrames (allocPage k.mem).2 + 1 = freeFrames k.mem ∧
      freeFrames (handleFault k faultAddr errorCode).mem +
        pageTableFrames (allocPage k.mem).2 (faultAddr / 4096 * 4096) =
          freeFrames (allocPage k.mem).2) ∨
    (faultServed k faultAddr errorCode = false ∧
      freeFrames (handleFault k faultAddr errorCode).mem = freeFrames k.mem) := by
  unfold faultServed handleFault
  rcases vmmHandlePageFault_cases k.mem k.current.vm.vmas k.current.active faultAddr errorCode with
    ⟨he, -⟩ | ⟨-, frame, m1, prot, ha, he⟩
  · refine Or.inr ⟨by rw [he]; rfl, ?_⟩
    rw [he]
    dsimp only
    rw [if_neg (by decide)]
    unfold segfault
    split_ifs
    · exact freeFrames_congr (processExit_stored _ _).pageBitmap
    · rfl
  · have hone := freeFrames_allocPages (m := k.mem) (by decide)
      (show allocPages k.mem 1 = (some frame, m1) from ha)
    refine Or.inl ⟨by rw [he]; rfl, ?_, ?_⟩
    · rw [ha]
      exact hone
    · rw [he, ha]
      dsimp only
      rw [if_pos rfl]
      exact freeFrames_mapPage ..

lemma kstep_of_stopped {e : KEvent} (h : k.halted = true ∨ k.pos k.currentProcIdx ≠ .user)
    (he : ∀ frame, e ≠ .tick frame) (hc : e.computes = true) :
    freeFrames (kstep k e).mem = freeFrames k.mem := by
  unfold kstep
  by_cases hhalt : k.halted = true
  · rw [if_pos hhalt]
  · have hpos := h.resolve_left hhalt
    rw [if_neg hhalt]
    cases e with
    | tick frame => exact absurd rfl (he frame)
    | resume => exact freeFrames_congr (resume_pageBitmap k)
    | create info name => cases hc
    | pageFault faultAddr errorCode => simp [hpos]
    | call c => simp [hpos]

/-- **What a step without memory calls takes**: frames for page tables, and its own. -/
lemma kstep_freeFrames (k : Kernel) {e : KEvent} (he : e.computes = true) :
    freeFrames (kstep k e).mem + (tableFrames k e + ownFrames k e) = freeFrames k.mem := by
  by_cases htick : ∃ frame, e = .tick frame
  · obtain ⟨frame, rfl⟩ := htick
    have hown : ownFrames k (.tick frame) = 0 := by simp [ownFrames]
    rw [hown, tableFrames, Nat.add_zero]
    unfold kstep
    by_cases hhalt : k.halted = true
    · rw [if_pos hhalt, if_pos hhalt, Nat.add_zero]
    · rw [if_neg hhalt, if_neg hhalt]
      exact tick_freeFrames k frame
  by_cases hrun : k.halted = true ∨ k.pos k.currentProcIdx ≠ .user
  · have hown : ownFrames k e = 0 := if_pos hrun
    have htab : tableFrames k e = 0 := by
      cases e with
      | tick frame => exact absurd ⟨frame, rfl⟩ htick
      | pageFault _ _ => simp [tableFrames, hown]
      | _ => rfl
    rw [hown, htab, kstep_of_stopped hrun (fun frame h => htick ⟨frame, h⟩) he]
    simp
  have hgo := hrun
  rw [not_or, not_not] at hgo
  cases e with
  | tick frame => exact absurd ⟨frame, rfl⟩ htick
  | create info name => cases he
  | resume =>
    have hmem : freeFrames (kstep k .resume).mem = freeFrames k.mem := by
      simp only [kstep, if_neg hgo.1]
      exact freeFrames_congr (resume_pageBitmap k)
    have hown : ownFrames k .resume = 0 := by simp [ownFrames]
    rw [hown, hmem]
    simp [tableFrames]
  | pageFault faultAddr errorCode =>
    have hown : ownFrames k (.pageFault faultAddr errorCode) =
        if faultServed k faultAddr errorCode then 1 else 0 := if_neg hrun
    have hmem : kstep k (.pageFault faultAddr errorCode) = handleFault k faultAddr errorCode := by
      simp only [kstep, if_neg hgo.1, if_pos hgo.2]
    rw [tableFrames, hown, hmem]
    rcases handleFault_freeFrames k faultAddr errorCode with ⟨hs, h1, h2⟩ | ⟨hs, h1⟩
    · rw [hs, if_pos rfl, if_pos rfl]
      omega
    · rw [hs, h1]
      simp
  | call c =>
    have htab : tableFrames k (.call c) = 0 := rfl
    have hstep : kstep k (.call c) = doSyscall k c := by
      simp only [kstep, if_neg hgo.1, if_pos hgo.2]
    rw [htab, Nat.zero_add, hstep]
    by_cases hmem : c.usesMemory = false
    · have hown : ownFrames k (.call c) = 0 := by
        unfold ownFrames
        rw [if_neg hrun]
        cases c <;> first | rfl | cases hmem
      rw [hown, freeFrames_congr (doSyscall_pageBitmap k c hmem), Nat.add_zero]
    · cases c with
      | fork frame =>
        have hown : ownFrames k (.call (.fork frame)) = forkFrames k := if_neg hrun
        rw [hown, doSyscall]
        exact processFork_freeFrames k frame
      | clone flags childStack ptid ctid newtls frame =>
        have hown : ownFrames k (.call (.clone flags childStack ptid ctid newtls frame)) =
            cloneFrames k flags := if_neg hrun
        rw [hown, doSyscall]
        exact processClone_freeFrames ..
      | execve _ _ | mmap _ _ _ _ | munmap _ _ | mprotect _ _ _ | brk _ => cases he
      | _ => exact absurd rfl hmem

/-! ## Life cycles -/

/-- A life cycle: the running process forks, the child exits with `code`, and `wait4(pid)` reaps
it; other steps come in between. -/
def lifeCycle (frame : ContextFrame) (es₁ : List KEvent) (code : ℤ) (es₂ : List KEvent) (pid : ℤ)
    (statusPtr : ℕ) : List KEvent :=
  .call (.fork frame) :: es₁ ++ .call (.exit code) :: es₂ ++ [.call (.wait4 pid statusPtr)]

/-- The step takes no frame for a stack or a page: a fork or clone finds no slot or no frames, and
a page fault is not resolved. -/
def TakesNoFrame (k : Kernel) (e : KEvent) : Prop := ownFrames k e = 0

instance (k : Kernel) (e : KEvent) : Decidable (TakesNoFrame k e) :=
  inferInstanceAs (Decidable (_ = _))

lemma lifeCycle_computes {es₁ es₂ : List KEvent} (h₁ : ∀ e ∈ es₁, e.computes = true)
    (h₂ : ∀ e ∈ es₂, e.computes = true) (frame : ContextFrame) (code pid : ℤ) (statusPtr : ℕ) :
    ∀ e ∈ lifeCycle frame es₁ code es₂ pid statusPtr, e.computes = true := by
  intro e he
  simp only [lifeCycle, List.cons_append, List.mem_cons, List.mem_append, List.append_assoc,
    List.not_mem_nil, or_false] at he
  rcases he with rfl | he | rfl | he | rfl
  exacts [rfl, h₁ e he, rfl, h₂ e he, rfl]

/-- **The account of a run without memory calls.** -/
lemma run_freeBytes {es : List KEvent} (h : ∀ e ∈ es, e.computes = true) (k : Kernel) :
    mmGetFreeBytes (runFrom kstep k es).mem + pageSize * total kstep tableFrames k es +
      pageSize * total kstep ownFrames k es = mmGetFreeBytes k.mem := by
  have hacc := stock_add_total (C := fun _ e => KEvent.computes e = true)
    (fun k : Kernel => freeFrames k.mem) (fun k e he => kstep_freeFrames k he)
    (stepsMeet_of_forall k h)
  rw [total_add] at hacc
  rw [mmGetFreeBytes_eq, mmGetFreeBytes_eq, ← hacc]
  ring

/-- **A life cycle leaves the free memory as it was, page tables apart, exactly when none of its
steps takes a frame** for a stack or a page. -/
theorem lifeCycle_conserves_iff (k : Kernel) (frame : ContextFrame) (es₁ es₂ : List KEvent)
    (code pid : ℤ) (statusPtr : ℕ) (h₁ : ∀ e ∈ es₁, e.computes = true)
    (h₂ : ∀ e ∈ es₂, e.computes = true) :
    mmGetFreeBytes (runFrom kstep k (lifeCycle frame es₁ code es₂ pid statusPtr)).mem +
        pageSize * total kstep tableFrames k (lifeCycle frame es₁ code es₂ pid statusPtr) =
      mmGetFreeBytes k.mem ↔
    StepsMeet kstep TakesNoFrame k (lifeCycle frame es₁ code es₂ pid statusPtr) := by
  have hacc := run_freeBytes (lifeCycle_computes h₁ h₂ frame code pid statusPtr) k
  have hpage : 0 < pageSize := by decide
  have hzero : pageSize * total kstep ownFrames k (lifeCycle frame es₁ code es₂ pid statusPtr) = 0 ↔
      StepsMeet kstep TakesNoFrame k (lifeCycle frame es₁ code es₂ pid statusPtr) := by
    rw [Nat.mul_eq_zero, or_iff_right hpage.ne']
    exact total_eq_zero_iff
  rw [← hzero]
  omega

/-- A life cycle whose fork gets a stack leaks. -/
lemma lifeCycle_leaks {es₁ es₂ : List KEvent} (h₁ : ∀ e ∈ es₁, e.computes = true)
    (h₂ : ∀ e ∈ es₂, e.computes = true) (frame : ContextFrame) (code pid : ℤ)
    (statusPtr : ℕ) (hfork : 0 < ownFrames k (.call (.fork frame))) :
    mmGetFreeBytes (runFrom kstep k (lifeCycle frame es₁ code es₂ pid statusPtr)).mem +
        pageSize * total kstep tableFrames k (lifeCycle frame es₁ code es₂ pid statusPtr) <
      mmGetFreeBytes k.mem := by
  have hacc := run_freeBytes (lifeCycle_computes h₁ h₂ frame code pid statusPtr) k
  have hown : 0 < total kstep ownFrames k (lifeCycle frame es₁ code es₂ pid statusPtr) :=
    hfork.trans_le (Nat.le_add_right _ _)
  have hpage : 0 < pageSize * total kstep ownFrames k (lifeCycle frame es₁ code es₂ pid statusPtr) :=
    Nat.mul_pos (by decide) hown
  omega

/-- The first process forks, a tick switches to the child, which exits, and a tick switches back. -/
theorem lifeCycle_conserves_iff_fresh :
    mmGetFreeBytes (runFrom kstep freshKernel
          (lifeCycle someFrame [.tick 0] 0 [.tick 0] (-1) 0)).mem +
        pageSize * total kstep tableFrames freshKernel
          (lifeCycle someFrame [.tick 0] 0 [.tick 0] (-1) 0) =
      mmGetFreeBytes freshKernel.mem ↔
    StepsMeet kstep TakesNoFrame freshKernel (lifeCycle someFrame [.tick 0] 0 [.tick 0] (-1) 0) :=
  lifeCycle_conserves_iff freshKernel someFrame [.tick 0] [.tick 0] 0 (-1) 0
    (by simp [KEvent.computes]) (by simp [KEvent.computes])

/-- **A short life leaks**: the child exits and its parent reaps it, and the free memory is less
than before, page tables apart. -/
theorem shortLife_leaks :
    (runFrom kstep freshKernel [.call (.fork someFrame), .tick 0]).current.pid = 2 ∧
      (runFrom kstep freshKernel [.call (.fork someFrame), .tick 0, .call (.exit 0),
        .tick 0]).current.pid = 1 ∧
      (processWait4 (runFrom kstep freshKernel [.call (.fork someFrame), .tick 0, .call (.exit 0),
        .tick 0]) (-1) 0).1 = some 2 ∧
      mmGetFreeBytes (runFrom kstep freshKernel
            (lifeCycle someFrame [.tick 0] 0 [.tick 0] (-1) 0)).mem +
          pageSize * total kstep tableFrames freshKernel
            (lifeCycle someFrame [.tick 0] 0 [.tick 0] (-1) 0) <
        mmGetFreeBytes freshKernel.mem := by
  refine ⟨by decide +kernel, by decide +kernel, by decide +kernel, ?_⟩
  exact lifeCycle_leaks (by simp [KEvent.computes]) (by simp [KEvent.computes]) _ _ _ _
    (by decide +kernel)

end

end Bangos.Proc
