import Bangos.Process.PageSteps

/-!
# Every step of the kernel keeps the page tables sound

`Touched k e` are the pages a step maps anew or changes, `TablesSafe k e` is the condition on
the state before the step.  Together they cover the whole kernel: a step that meets its
condition keeps the tables sound and translates every page that it does not touch as before.
-/

namespace Bangos.Proc

open Bangos.Mm Bangos.Fs Bangos.Net Bangos.Loader Bangos.Syscall

variable {m : Mem} {k : Kernel} {virt n : ℕ}

/-! ## The memory calls -/

/-- There are frames for `n` pages from `virt` on and for their tables, or no `n` free frames
in a row, so that nothing is mapped. -/
def PagesFit (m : Mem) (virt n : ℕ) : Prop :=
  n ≤ maxPages ∧ ((∃ r, r + n ≤ maxPages ∧ FreeRun m.pageBitmap r n) →
    (missing (tables m) (userTables virt n)).card + n ≤ freeFrames m)

/-- Frames for `n` pages, if there are that many in a row, and their mappings. -/
lemma mmapPopulate_tables (h : TablesOk m) (hfit : PagesFit m virt n) :
    KeepsTables m (mmapPopulate m virt n) (OnRun virt n) := by
  unfold mmapPopulate
  rcases ha : allocPages m n with ⟨r, m1⟩
  cases r with
  | none =>
    dsimp only
    rw [allocPages_eq_none ha]
    exact .refl h
  | some phys =>
    have h1 := alloc_remaps h hfit.1 ha
    obtain ⟨i, -, hi, hrun, -⟩ := h.allocPages_data hfit.1 ha
    obtain ⟨T2, h2, -⟩ := mapUserPages_remaps h1.grows.shape virt phys n
      (h1.grows.fits_tables (by rw [Finset.empty_union]; exact hfit.2 ⟨i, hi, hrun⟩))
    exact .of_remaps (h1.after h2)

/-- The number of pages of a mapping. -/
def mmapPages (len : ℕ) : ℕ := pageAlign len / pageSize

lemma sysMmap_tables (h : TablesOk m) (p : ProcVm) (addr len prot flags : ℕ)
    (hfit : len ≠ 0 → PagesFit m (mmapTarget p addr flags) (mmapPages len)) :
    KeepsTables m (sysMmap m p addr len prot flags).2.1
      (OnRun (mmapTarget p addr flags) (mmapPages len)) := by
  unfold sysMmap
  split_ifs with hlen
  · exact .refl h
  dsimp only
  split
  · exact .refl h
  · rename_i virt q hok
    obtain ⟨rfl, -⟩ := mmapAddr_ok hok
    split
    · exact .refl h
    · exact mmapPopulate_tables h (hfit hlen)

lemma sysMunmap_tables (h : TablesOk m) (p : ProcVm) (addr len : ℕ)
    (hno : NoTable (tables m) (CoveredIn p.vmas addr (u64 (addr + pageAlign len))) m) :
    KeepsTables m (sysMunmap m p addr len).2.1 fun key =>
      ∃ a, CoveredIn p.vmas addr (u64 (addr + pageAlign len)) a ∧ key = pageKey a := by
  unfold sysMunmap
  split_ifs
  · exact .refl h
  have hu := vmaRemove_unmaps h (Nat.mod_lt _ (by norm_num)).le hno
  refine ⟨hu.shape.tablesOk, fun v hv => ?_⟩
  rcases hu.walk v with he | ⟨-, hin⟩
  · exact he
  · exact absurd hin hv

/-- The addresses whose rights `SYS_MPROTECT` may change. -/
def InRange (addr len a : ℕ) : Prop := addr ≤ a ∧ a < u64 (addr + pageAlign len)

lemma sysMprotect_sameFrames (h : TablesOk m) (p : ProcVm) (addr len prot : ℕ) :
    SameFrames (tables m) (InRange addr len) m (sysMprotect m p addr len prot).2.1 := by
  unfold sysMprotect
  split_ifs
  · exact Shape.sameFrames_refl h
  · exact vmaProtect_sameFrames h _ _ _ _

/-- The number of pages that `SYS_BRK` maps to move the break to `newBrk`. -/
def brkPages (b : Brk) (newBrk : ℕ) : ℕ :=
  u64 (pageAlign newBrk + (0x10000000000000000 - b.mappedBrkPage)) / pageSize

lemma sysBrk_tables (h : TablesOk m) (b : Brk) (newBrk : ℕ)
    (hfit : b.mappedBrkPage < newBrk → PagesFit m b.mappedBrkPage (brkPages b newBrk)) :
    KeepsTables m (sysBrk m b newBrk).2.1 (OnRun b.mappedBrkPage (brkPages b newBrk)) := by
  unfold sysBrk
  split_ifs with h0 hlt
  · exact .refl h
  · have hpop := mmapPopulate_tables h (hfit hlt)
    unfold mmapPopulate brkPages at hpop
    dsimp only
    rcases ha : allocPages m (u64 (pageAlign newBrk + (0x10000000000000000 - b.mappedBrkPage)) /
      pageSize) with ⟨r, m1⟩
    rw [ha] at hpop
    cases r <;> exact hpop
  · exact .refl h

/-! ## Page faults and switches -/

/-- A page fault maps the page of its address with the rights of the area found, or nothing. -/
lemma vmmHandlePageFault_walk (h : TablesOk m) (vs : VmaTable) (active : Bool)
    (faultAddr errorCode : ℕ)
    (hroom : faultAllowed vs active faultAddr errorCode = true → 0 < freeFrames m →
      (missing (tables m) (tablesOf (frameOf faultAddr))).card + 1 ≤ freeFrames m) :
    TablesOk (vmmHandlePageFault m vs active faultAddr errorCode).2 ∧
      ∀ v, walk (vmmHandlePageFault m vs active faultAddr errorCode).2 v = walk m v ∨
        pageKey v = pageKey faultAddr ∧ ∃ i frame, vmaFind vs faultAddr = some i ∧
          walk (vmmHandlePageFault m vs active faultAddr errorCode).2 v =
            some ⟨frame, (vs i).prot.testBit 1, true⟩ := by
  rcases vmmHandlePageFault_found m vs active faultAddr errorCode with
    ⟨he, -⟩ | ⟨hok, i, frame, m1, hfind, ha, he⟩
  · rw [he]
    exact ⟨h, fun v => Or.inl rfl⟩
  · rw [he]
    obtain ⟨r, rfl, hr, hrun, -⟩ := h.allocPages_data (by decide) ha
    have hpos : 0 < freeFrames m :=
      Finset.card_pos.mpr ⟨r, mem_freeSet.mpr ⟨by omega, hrun r le_rfl (by omega)⟩⟩
    have h1 := alloc_remaps h (by decide) (show allocPages m 1 = _ from ha)
    obtain ⟨T2, hg, hw⟩ := mapPage_spec h1.grows.shape (frameOf faultAddr) (frameAddr r)
      (pteFlags (vs i).prot)
      (h1.grows.fits_tables (by rw [Finset.empty_union]; exact hroom hok hpos))
      (by unfold frameAddr physMemoryBase pageSize; unfold maxPages at hr; omega) (pteFlags_lt _)
    have hkey : pageKey (frameOf faultAddr) = pageKey faultAddr := by
      unfold pageKey frameOf
      omega
    rw [hkey] at hw
    refine ⟨hg.shape.tablesOk, fun v => ?_⟩
    by_cases hv : pageKey v = pageKey faultAddr
    · refine Or.inr ⟨hv, i, frameOf (frameAddr r), hfind, ?_⟩
      exact (hw v).trans (by rw [if_pos hv, leafPte_pteFlags])
    · exact Or.inl ((hw v).trans (by rw [if_neg hv]; exact h1.walk v id))

/-- The condition on `process_exit`: clearing `*clear_child_tid` overwrites no table. -/
def ClearTidSafe (k : Kernel) : Prop :=
  k.current.clearChildTid ≠ 0 → PointerSafe k.mem (tables k.mem) k.current.clearChildTid

lemma processExit_tables (h : TablesOk k.mem) (code : ℤ) (hs : ClearTidSafe k) :
    KeepsTables k.mem (processExit k code).mem noPage :=
  (processExit_stored k code).keepsTables h hs

lemma KeepsTables.mono {m' : Mem} {P Q : ℕ → Prop} (h : KeepsTables m m' P)
    (hPQ : ∀ key, P key → Q key) : KeepsTables m m' Q :=
  ⟨h.tablesOk, fun v hv => h.walk v fun hp => hv (hPQ _ hp)⟩

lemma handleFault_tables (h : TablesOk k.mem) (faultAddr errorCode : ℕ)
    (hroom : faultAllowed k.current.vm.vmas k.current.active faultAddr errorCode = true →
      0 < freeFrames k.mem → (missing (tables k.mem) (tablesOf (frameOf faultAddr))).card + 1 ≤
        freeFrames k.mem)
    (hexit : FaultRefused k faultAddr errorCode → ClearTidSafe k) :
    KeepsTables k.mem (handleFault k faultAddr errorCode).mem fun key => key = pageKey faultAddr := by
  rcases handleFault_cases k faultAddr errorCode with he | ⟨hrefused, he⟩ | he
  · obtain ⟨hok, hw⟩ := vmmHandlePageFault_walk h k.current.vm.vmas k.current.active faultAddr
      errorCode hroom
    rw [he]
    exact ⟨hok, fun v hv => (hw v).resolve_right fun hc => hv hc.1⟩
  · rw [he]
    exact (processExit_tables h _ (hexit hrefused)).mono fun _ hf => hf.elim
  · rw [he]
    exact .refl h

/-- The process whose mappings a tick restores. -/
def remapped (k : Kernel) (frame : ℕ) : Option Process :=
  let ps := tickTable k.procs k.currentProcIdx frame
  let next := ps (nextIdx ps k.currentProcIdx)
  if k.schedulerEnabled ∧ nextIdx ps k.currentProcIdx ≠ k.currentProcIdx ∧
      (!next.isThread ∨ next.tgid ≠ (ps k.currentProcIdx).tgid) then some next
  else none

lemma schedulerTick_mem (k : Kernel) (frame : ℕ) :
    (schedulerTick k frame).2.mem = ((remapped k frame).map (remap k.mem)).getD k.mem := by
  unfold schedulerTick remapped
  dsimp only
  cases k.schedulerEnabled with
  | false => simp
  | true =>
    simp only [Bool.not_true, Bool.false_eq_true, if_false, true_and, switchMem]
    by_cases hne : nextIdx (tickTable k.procs k.currentProcIdx frame) k.currentProcIdx ≠
      k.currentProcIdx
    · rw [if_pos hne]
      split_ifs with h1 h2 h2
      · rfl
      · exact absurd ⟨hne, h1⟩ h2
      · exact absurd h2.2 h1
      · rfl
    · rw [if_neg hne, if_neg fun h => hne h.1]
      rfl

/-- The pages that a switch to `p` maps. -/
def OnProcess (p : Process) (key : ℕ) : Prop :=
  (∃ s ∈ p.segments, OnRun s.virtAddr s.numPages key) ∨ p.stackPhysBase ≠ 0 ∧ OnStack key

lemma recordMap_ne_none {segments : List ElfSegment} {v : ℕ} :
    recordMap segments v ≠ none ↔ ∃ s ∈ segments, OnRun s.virtAddr s.numPages (pageKey v) := by
  induction segments with
  | nil => simp [recordMap]
  | cons s ss ih =>
    rw [recordMap, ne_eq, Option.or_eq_none_iff, not_and_or, ← ne_eq, ← ne_eq, ih,
      userMap_ne_none]
    simp [or_comm]

lemma procMap_ne_none {p : Process} {v : ℕ} : procMap p v ≠ none ↔ OnProcess p (pageKey v) := by
  unfold procMap OnProcess
  rw [ne_eq, Option.or_eq_none_iff, not_and_or, ← ne_eq, ← ne_eq, recordMap_ne_none, or_comm]
  by_cases h0 : p.stackPhysBase ≠ 0
  · rw [if_pos h0, userMap_ne_none]
    simp [h0, OnStack]
  · rw [if_neg h0]
    simp [h0]

lemma schedulerTick_tables (h : TablesOk k.mem) (frame : ℕ)
    (hroom : ∀ p, remapped k frame = some p →
      (missing (tables k.mem) (procTables p)).card ≤ freeFrames k.mem) :
    KeepsTables k.mem (schedulerTick k frame).2.mem fun key =>
      ∃ p, remapped k frame = some p ∧ OnProcess p key := by
  rw [schedulerTick_mem]
  cases hp : remapped k frame with
  | none => exact .refl h
  | some p =>
    obtain ⟨T', hg, hw⟩ := remap_spec p h (hroom p hp)
    refine ⟨hg.shape.tablesOk, fun v hv => ?_⟩
    have hnone : procMap p v = none := by
      by_contra hne
      exact hv ⟨p, rfl, procMap_ne_none.mp hne⟩
    rw [Option.map_some, Option.getD_some, hw v, hnone, Option.none_or]

/-! ## All steps -/

/-- The pages that a step maps, unmaps or changes. -/
def Touched (k : Kernel) : KEvent → ℕ → Prop
  | .tick frame, key => ∃ p, remapped k frame = some p ∧ OnProcess p key
  | .create _ _, key => OnStack key
  | .pageFault faultAddr _, key => key = pageKey faultAddr
  | .call (.execve path _), key => OnExec k path key
  | .call (.mmap addr len _ flags), key =>
    OnRun (mmapTarget k.current.vm addr flags) (mmapPages len) key
  | .call (.munmap addr len), key =>
    ∃ a, CoveredIn k.current.vm.vmas addr (u64 (addr + pageAlign len)) a ∧ key = pageKey a
  | .call (.mprotect addr len _), key => ∃ a, InRange addr len a ∧ key = pageKey a
  | .call (.brk newBrk), key => OnRun k.brk.mappedBrkPage (brkPages k.brk newBrk) key
  | _, _ => False

/-- The condition on a step: there are frames for what it maps and for the tables it misses,
and it neither overwrites nor frees a table, nor does what it stores through a pointer of the
process: `ptid` of `process_clone`, the status pointer of `process_wait4` and, at an exit,
`clear_child_tid`. -/
def TablesSafe (k : Kernel) : KEvent → Prop
  | .tick frame => ∀ p, remapped k frame = some p →
    (missing (tables k.mem) (procTables p)).card ≤ freeFrames k.mem
  | .create _ _ => (missing (tables k.mem) stackTables).card +
    (kernelStackPages + userStackPages) ≤ freeFrames k.mem
  | .pageFault faultAddr errorCode =>
    (faultAllowed k.current.vm.vmas k.current.active faultAddr errorCode = true →
      0 < freeFrames k.mem →
        (missing (tables k.mem) (tablesOf (frameOf faultAddr))).card + 1 ≤ freeFrames k.mem) ∧
      (FaultRefused k faultAddr errorCode → ClearTidSafe k)
  | .resume => ∀ pid statusPtr, k.pos k.currentProcIdx = .wait4 pid statusPtr → statusPtr ≠ 0 →
    PointerSafe k.mem (tables k.mem) statusPtr
  | .call (.clone flags _ ptid _ _ _) => CloneSafe k.mem (tables k.mem) flags ptid
  | .call (.wait4 _ statusPtr) => statusPtr ≠ 0 → PointerSafe k.mem (tables k.mem) statusPtr
  | .call (.exit _) => ClearTidSafe k
  | .call (.execve path _) => ∀ a, execImage k path = some a → ExecSafe k a
  | .call (.mmap addr len _ flags) =>
    len ≠ 0 → PagesFit k.mem (mmapTarget k.current.vm addr flags) (mmapPages len)
  | .call (.munmap addr len) => NoTable (tables k.mem)
    (CoveredIn k.current.vm.vmas addr (u64 (addr + pageAlign len))) k.mem
  | .call (.brk newBrk) => k.brk.mappedBrkPage < newBrk →
    PagesFit k.mem k.brk.mappedBrkPage (brkPages k.brk newBrk)
  | _ => True

/-- A process that runs again after waiting for a child. -/
lemma resume_tables (h : TablesOk k.mem) (hsafe : TablesSafe k .resume) :
    KeepsTables k.mem (resume k).mem noPage := by
  rcases resume_stored k with hm | ⟨pid, statusPtr, hpos, hst⟩
  · rw [hm]
    exact .refl h
  · exact hst.keepsTables h (hsafe pid statusPtr hpos)

/-- A call that meets its condition. -/
lemma doSyscall_tables (h : TablesOk k.mem) (c : Call) (hsafe : TablesSafe k (.call c)) :
    KeepsTables k.mem (doSyscall k c).mem (Touched k (.call c)) := by
  have hstored := doSyscall_stored k c
  cases c with
  | fork frame => exact .of_remaps (processFork_remaps h frame)
  | clone flags childStack ptid ctid newtls frame =>
    exact processClone_tables h flags childStack ptid ctid newtls frame hsafe
  | execve path argv0 => exact processExecve_tables h path argv0 hsafe
  | mmap addr len prot flags => exact sysMmap_tables h k.current.vm addr len prot flags hsafe
  | munmap addr len => exact sysMunmap_tables h k.current.vm addr len hsafe
  | mprotect addr len prot =>
    have hs := sysMprotect_sameFrames h k.current.vm addr len prot
    refine ⟨hs.shape.tablesOk, fun v hv => ?_⟩
    rcases hs.walk v with he | hin
    · exact he
    · exact absurd hin hv
  | brk newBrk => exact sysBrk_tables h k.brk newBrk hsafe
  | exit code => exact processExit_tables h code hsafe
  | wait4 pid statusPtr => exact (wait4Call_stored k pid statusPtr).keepsTables h hsafe
  | futexWait _ _ _ | futexWake _ _ | nanosleep _ _ | kill _ _ | setTidAddress _ | socket _ _ _
  | close _ | shutdown _ =>
    rcases hstored rfl with hm | ⟨_, hc⟩ | ⟨_, _, hc⟩
    · rw [hm]
      exact .refl h
    · cases hc
    · cases hc

/-- **A step that meets its condition** keeps the tables sound and translates every page that
it does not touch as before. -/
theorem kstep_tables (h : TablesOk k.mem) (e : KEvent) (hsafe : TablesSafe k e) :
    KeepsTables k.mem (kstep k e).mem (Touched k e) := by
  unfold kstep
  by_cases hhalt : k.halted = true
  · rw [if_pos hhalt]
    exact .refl h
  rw [if_neg hhalt]
  cases e with
  | tick frame => exact schedulerTick_tables h frame hsafe
  | resume => exact resume_tables h hsafe
  | create info name => exact processCreateFromElf_tables h info name hsafe
  | pageFault faultAddr errorCode =>
    dsimp only
    split_ifs
    · exact handleFault_tables h faultAddr errorCode hsafe.1 hsafe.2
    · exact .refl h
  | call c =>
    dsimp only
    split_ifs
    · exact doSyscall_tables h c hsafe
    · exact .refl h

/-- A fork takes at most the frames of two stacks. -/
lemma kstep_fork_memory (hok : TablesOk k.mem) (frame : ContextFrame) :
    TablesOk (kstep k (.call (.fork frame))).mem ∧
      freeFrames k.mem ≤ freeFrames (kstep k (.call (.fork frame))).mem + 20 := by
  unfold kstep
  split_ifs
  · exact ⟨hok, Nat.le_add_right _ _⟩
  · have hr := processFork_remaps hok frame
    have hcount := hr.grows.count
    unfold missing kernelStackPages userStackPages at hcount
    rw [Finset.filter_empty, Finset.card_empty] at hcount
    exact ⟨hr.grows.shape.tablesOk, hcount⟩
  · exact ⟨hok, Nat.le_add_right _ _⟩

end Bangos.Proc
