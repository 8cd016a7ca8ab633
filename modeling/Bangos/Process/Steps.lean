import Bangos.Mm.AreaPages
import Bangos.Process.System

/-!
# What the steps of the kernel do to a slot of the process table

Most steps leave a process what it is: they change its scheduling state and may end it, but
its identity, its memory map and its descriptors stay.  `Kept` says so for one slot, and this
file proves it for the steps of which it is true.
-/

namespace Bangos.Proc

open Bangos.Mm Bangos.Fs Bangos.Net Bangos.Loader Bangos.Syscall

/-- `p'` is `p` with another scheduling state; it may have been ended, not started. -/
structure Kept (p p' : Process) : Prop where
  active : p'.active = true → p.active = true
  pid : p'.pid = p.pid
  ppid : p'.ppid = p.ppid
  tgid : p'.tgid = p.tgid
  isThread : p'.isThread = p.isThread
  vm : p'.vm = p.vm
  segments : p'.segments = p.segments
  stackPhysBase : p'.stackPhysBase = p.stackPhysBase
  fdTable : p'.fdTable = p.fdTable

lemma Kept.refl (p : Process) : Kept p p := ⟨id, rfl, rfl, rfl, rfl, rfl, rfl, rfl, rfl⟩

lemma Kept.trans {p p' p'' : Process} (h : Kept p p') (h' : Kept p' p'') : Kept p p'' where
  active := h.active ∘ h'.active
  pid := h'.pid.trans h.pid
  ppid := h'.ppid.trans h.ppid
  tgid := h'.tgid.trans h.tgid
  isThread := h'.isThread.trans h.isThread
  vm := h'.vm.trans h.vm
  segments := h'.segments.trans h.segments
  stackPhysBase := h'.stackPhysBase.trans h.stackPhysBase
  fdTable := h'.fdTable.trans h.fdTable

/-- The files and the pid counter are as before. -/
structure SameGlobals (k k' : Kernel) : Prop where
  files : k'.files = k.files
  nextPid : k'.nextPid = k.nextPid

lemma SameGlobals.refl (k : Kernel) : SameGlobals k k := ⟨rfl, rfl⟩

/-- The processor stays with the current slot, and the scheduler stays enabled. -/
structure SameCpu (k k' : Kernel) : Prop where
  current : k'.currentProcIdx = k.currentProcIdx
  enabled : k.schedulerEnabled = true → k'.schedulerEnabled = true

section

variable {k : Kernel}

lemma kept_update {f : ProcTable} {i : Fin maxProcesses} {p : Process} (h : Kept (f i) p)
    (j : Fin maxProcesses) : Kept (f j) (Function.update f i p j) := by
  by_cases hj : j = i
  · subst hj
    rwa [Function.update_self]
  · rw [Function.update_of_ne hj]
    exact Kept.refl _

/-! ## Futexes -/

/-- The loop of `futex_wake` leaves a process alone or wakes it. -/
lemma futexWakeLoop_apply (uaddr : ℕ) :
    ∀ (is : List (Fin maxProcesses)) (n : ℕ) (ps : ProcTable) (i : Fin maxProcesses),
      (futexWakeLoop uaddr is n ps).2 i = ps i ∨
        futexSleeper uaddr (ps i) = true ∧
          (futexWakeLoop uaddr is n ps).2 i = { ps i with waitChannel := 0, state := .ready } := by
  intro is
  induction is with
  | nil => intro n ps i; exact Or.inl rfl
  | cons j is ih =>
    intro n ps i
    cases n with
    | zero => exact Or.inl rfl
    | succ n =>
      unfold futexWakeLoop
      split_ifs with hs
      · dsimp only
        have h := ih n (Function.update ps j { ps j with waitChannel := 0, state := .ready }) i
        by_cases hij : i = j
        · subst hij
          rw [Function.update_self] at h
          rcases h with h | ⟨h, -⟩
          · exact Or.inr ⟨hs, h⟩
          · -- a process just woken does not sleep
            simp [futexSleeper] at h
        · rwa [Function.update_of_ne hij] at h
      · exact ih (n + 1) ps i

/-- `futex_wake` leaves a process alone or wakes a sleeper of the channel. -/
lemma futexWake_apply (ps : ProcTable) (uaddr : ℕ) (count : ℤ) (i : Fin maxProcesses) :
    (futexWake ps uaddr count).2 i = ps i ∨
      uaddr ≠ 0 ∧ futexSleeper uaddr (ps i) = true ∧
        (futexWake ps uaddr count).2 i = { ps i with waitChannel := 0, state := .ready } := by
  unfold futexWake
  split_ifs with h0
  · exact Or.inl rfl
  · rw [not_or] at h0
    exact (futexWakeLoop_apply uaddr _ _ ps i).imp_right fun h => ⟨h0.1, h⟩

lemma futexWake_kept (ps : ProcTable) (uaddr : ℕ) (count : ℤ) (i : Fin maxProcesses) :
    Kept (ps i) ((futexWake ps uaddr count).2 i) := by
  rcases futexWake_apply ps uaddr count i with h | ⟨-, -, h⟩ <;> rw [h]
  · exact Kept.refl _
  · exact ⟨id, rfl, rfl, rfl, rfl, rfl, rfl, rfl, rfl⟩

lemma futexWait_kept (k : Kernel) (uaddr val word : ℕ) (j : Fin maxProcesses) :
    Kept (k.procs j) ((futexWait k uaddr val word).2.procs j) := by
  unfold futexWait
  split_ifs
  · exact Kept.refl _
  · exact Kept.refl _
  · refine kept_update (i := k.currentProcIdx) ?_ j
    exact ⟨id, rfl, rfl, rfl, rfl, rfl, rfl, rfl, rfl⟩

lemma sysNanosleep_kept (k : Kernel) (sec nsec : ℤ) (j : Fin maxProcesses) :
    Kept (k.procs j) ((sysNanosleep k sec nsec).2.procs j) := by
  unfold sysNanosleep
  split_ifs
  · exact Kept.refl _
  · refine kept_update (i := k.currentProcIdx) ?_ j
    exact ⟨id, rfl, rfl, rfl, rfl, rfl, rfl, rfl, rfl⟩

lemma futexWait_globals (k : Kernel) (uaddr val word : ℕ) :
    SameGlobals k (futexWait k uaddr val word).2 := by
  unfold futexWait
  split_ifs <;> exact ⟨rfl, rfl⟩

lemma sysNanosleep_globals (k : Kernel) (sec nsec : ℤ) :
    SameGlobals k (sysNanosleep k sec nsec).2 := by
  unfold sysNanosleep
  split_ifs <;> exact ⟨rfl, rfl⟩

/-! ## Waiting for children -/

lemma processWait4_kept (k : Kernel) (pid : ℤ) (statusPtr : ℕ) (j : Fin maxProcesses) :
    Kept (k.procs j) ((processWait4 k pid statusPtr).2.procs j) := by
  unfold processWait4
  dsimp only
  split
  · refine kept_update ?_ j
    exact ⟨(fun h => by cases h), rfl, rfl, rfl, rfl, rfl, rfl, rfl, rfl⟩
  · split_ifs <;> exact Kept.refl _

lemma wait4Call_procs (k : Kernel) (pid : ℤ) (statusPtr : ℕ) :
    (wait4Call k pid statusPtr).procs = (processWait4 k pid statusPtr).2.procs := by
  unfold wait4Call
  split <;> simp_all [Kernel.setPos]

lemma processWait4_globals (k : Kernel) (pid : ℤ) (statusPtr : ℕ) :
    SameGlobals k (processWait4 k pid statusPtr).2 := by
  unfold processWait4
  dsimp only
  split
  · exact ⟨rfl, rfl⟩
  · split_ifs <;> exact SameGlobals.refl k

lemma wait4Call_globals (k : Kernel) (pid : ℤ) (statusPtr : ℕ) :
    SameGlobals k (wait4Call k pid statusPtr) := by
  have h := processWait4_globals k pid statusPtr
  unfold wait4Call
  split
  all_goals
    rename_i heq
    rw [heq] at h
    exact ⟨h.files, h.nextPid⟩

lemma wait4Call_sameCpu (k : Kernel) (pid : ℤ) (statusPtr : ℕ) :
    SameCpu k (wait4Call k pid statusPtr) := by
  have h : SameCpu k (processWait4 k pid statusPtr).2 := by
    unfold processWait4
    dsimp only
    split
    · exact ⟨rfl, id⟩
    · split_ifs <;> exact ⟨rfl, id⟩
  unfold wait4Call
  split
  all_goals
    rename_i heq
    rw [heq] at h
    exact ⟨h.current, h.enabled⟩

lemma resume_sameCpu (k : Kernel) : SameCpu k (resume k) := by
  unfold resume
  split
  · exact ⟨rfl, id⟩
  · split_ifs <;> exact ⟨rfl, id⟩
  · split_ifs <;> exact ⟨rfl, id⟩
  · exact wait4Call_sameCpu k _ _
  · exact ⟨rfl, id⟩

lemma resume_kept (k : Kernel) (j : Fin maxProcesses) :
    Kept (k.procs j) ((resume k).procs j) := by
  unfold resume
  split
  · exact Kept.refl _
  · split_ifs <;> exact Kept.refl _
  · split_ifs <;> exact Kept.refl _
  · rw [wait4Call_procs]
    exact processWait4_kept k _ _ j
  · exact Kept.refl _

lemma resume_globals (k : Kernel) : SameGlobals k (resume k) := by
  unfold resume
  split
  · exact SameGlobals.refl k
  · split_ifs <;> exact ⟨rfl, rfl⟩
  · split_ifs <;> exact ⟨rfl, rfl⟩
  · exact wait4Call_globals k _ _
  · exact SameGlobals.refl k

/-! ## Ending processes -/

lemma wakeParent_kept (ps : ProcTable) (ppid : ℤ) (j : Fin maxProcesses) :
    Kept (ps j) (wakeParent ps ppid j) := by
  unfold wakeParent
  split_ifs
  · exact ⟨id, rfl, rfl, rfl, rfl, rfl, rfl, rfl, rfl⟩
  · exact Kept.refl _

lemma endChildren_kept (ps : ProcTable) (pid code : ℤ) (j : Fin maxProcesses) :
    Kept (ps j) (endChildren ps pid code j) := by
  unfold endChildren
  split_ifs
  · exact ⟨(fun h => by cases h), rfl, rfl, rfl, rfl, rfl, rfl, rfl, rfl⟩
  · exact Kept.refl _

lemma exitClearTid_kept (k : Kernel) (j : Fin maxProcesses) :
    Kept (k.procs j) ((exitClearTid k).procs j) := by
  unfold exitClearTid
  split_ifs
  · exact Kept.refl _
  · exact futexWake_kept _ _ _ j

lemma exitFinish_kept (k : Kernel) (code : ℤ) (j : Fin maxProcesses) :
    Kept (k.procs j) ((exitFinish k code).procs j) := by
  unfold exitFinish
  dsimp only
  split_ifs
  · exact Kept.refl _
  · refine kept_update (i := k.currentProcIdx) ?_ j
    exact ⟨(fun h => by cases h), rfl, rfl, rfl, rfl, rfl, rfl, rfl, rfl⟩
  · refine Kept.trans ?_ ((endChildren_kept _ k.current.pid code j).trans
      (wakeParent_kept _ k.current.ppid j))
    refine kept_update (i := k.currentProcIdx) ?_ j
    exact ⟨id, rfl, rfl, rfl, rfl, rfl, rfl, rfl, rfl⟩

/-- An exit keeps all processes, but for the descriptors of the running one. -/
lemma processExit_kept (k : Kernel) (code : ℤ) (j : Fin maxProcesses) :
    Kept ((exitFds k).procs j) ((processExit k code).procs j) :=
  (exitClearTid_kept _ j).trans (exitFinish_kept _ code j)

lemma exitClearTid_globals (k : Kernel) : SameGlobals k (exitClearTid k) := by
  unfold exitClearTid
  split_ifs <;> exact ⟨rfl, rfl⟩

lemma exitFinish_globals (k : Kernel) (code : ℤ) : SameGlobals k (exitFinish k code) := by
  unfold exitFinish
  dsimp only
  split_ifs <;> exact ⟨rfl, rfl⟩

/-- Of the globals an exit changes what freeing the descriptors does. -/
lemma processExit_globals (k : Kernel) (code : ℤ) : SameGlobals (exitFds k) (processExit k code) :=
  have h₁ := exitClearTid_globals (exitFds k)
  have h₂ := exitFinish_globals (exitClearTid (exitFds k)) code
  ⟨h₂.files.trans h₁.files, h₂.nextPid.trans h₁.nextPid⟩

/-! ## Replacing the program -/

lemma processJumpToUser_kept (k : Kernel) (i j : Fin maxProcesses) :
    Kept (k.procs j) ((processJumpToUser k i).procs j) := by
  refine kept_update (i := i) ?_ j
  exact ⟨id, rfl, rfl, rfl, rfl, rfl, rfl, rfl, rfl⟩

/-- `process_execve` leaves the other processes alone. -/
lemma processExecve_procs_of_ne (path argv0 : Option (List UInt8)) {j : Fin maxProcesses}
    (hj : j ≠ k.currentProcIdx) : (processExecve k path argv0).2.procs j = k.procs j := by
  unfold processExecve
  split
  · rfl
  split
  · rfl
  split
  · rfl
  · simp [execveCommit, processJumpToUser, Kernel.setCurrent, Kernel.setProc, hj]

/-- What `process_execve` leaves of the running process: who it is, and its descriptors. -/
structure SameTask (p p' : Process) : Prop where
  active : p'.active = p.active
  pid : p'.pid = p.pid
  tgid : p'.tgid = p.tgid
  isThread : p'.isThread = p.isThread
  fdTable : p'.fdTable = p.fdTable

lemma processExecve_current (k : Kernel) (path argv0 : Option (List UInt8)) :
    SameTask k.current ((processExecve k path argv0).2.procs k.currentProcIdx) := by
  unfold processExecve
  split
  · exact ⟨rfl, rfl, rfl, rfl, rfl⟩
  split
  · exact ⟨rfl, rfl, rfl, rfl, rfl⟩
  split
  · exact ⟨rfl, rfl, rfl, rfl, rfl⟩
  · simp only [execveCommit, processJumpToUser, Kernel.setCurrent, Kernel.setProc,
      Function.update_self]
    exact ⟨rfl, rfl, rfl, rfl, rfl⟩

lemma processExecve_globals (k : Kernel) (path argv0 : Option (List UInt8)) :
    SameGlobals k (processExecve k path argv0).2 := by
  unfold processExecve
  split
  · exact SameGlobals.refl k
  split
  · exact SameGlobals.refl k
  split <;> exact ⟨rfl, rfl⟩

/-! ## The scheduler -/

lemma countdown_kept (p : Process) : Kept p (countdown p) := by
  unfold countdown
  split_ifs <;> exact ⟨id, rfl, rfl, rfl, rfl, rfl, rfl, rfl, rfl⟩

lemma saveCurrent_kept (p : Process) (frame : ℕ) : Kept p (saveCurrent p frame) := by
  unfold saveCurrent
  split_ifs <;> exact ⟨id, rfl, rfl, rfl, rfl, rfl, rfl, rfl, rfl⟩

lemma tickTable_kept (ps : ProcTable) (c : Fin maxProcesses) (frame : ℕ)
    (j : Fin maxProcesses) : Kept (ps j) (tickTable ps c frame j) :=
  (countdown_kept (ps j)).trans
    (kept_update (f := fun i => countdown (ps i)) (saveCurrent_kept _ frame) j)

lemma schedulerTick_kept (k : Kernel) (frame : ℕ) (j : Fin maxProcesses) :
    Kept (k.procs j) ((schedulerTick k frame).2.procs j) := by
  unfold schedulerTick
  by_cases hen : (!k.schedulerEnabled) = true
  · rw [if_pos hen]
    exact Kept.refl _
  · rw [if_neg hen]
    refine (tickTable_kept k.procs k.currentProcIdx frame j).trans (kept_update ?_ j)
    exact ⟨id, rfl, rfl, rfl, rfl, rfl, rfl, rfl, rfl⟩

lemma schedulerTick_globals (k : Kernel) (frame : ℕ) :
    SameGlobals k (schedulerTick k frame).2 := by
  unfold schedulerTick
  split_ifs <;> exact ⟨rfl, rfl⟩

/-! ## New processes -/

/-- Nothing happens, or a process with the next pid is put into a slot. -/
def Spawned (k k' : Kernel) (Q : Process → Prop) : Prop :=
  k' = k ∨ ∃ c p, k'.procs = Function.update k.procs c p ∧ p.pid = k.nextPid ∧
    k'.nextPid = k.nextPid + 1 ∧ Q p

lemma processFork_spawned (k : Kernel) (frame : ContextFrame) :
    Spawned k (processFork k frame).2 fun _ => True := by
  unfold processFork
  split
  · exact Or.inl rfl
  · exact Or.inr ⟨_, _, rfl, rfl, rfl, trivial⟩

lemma processClone_spawned (k : Kernel) (flags childStack ptid ctid newtls : ℕ)
    (frame : ContextFrame) :
    Spawned k (processClone k flags childStack ptid ctid newtls frame).2 fun _ => True := by
  unfold processClone
  split_ifs
  · unfold cloneThread
    split
    · exact Or.inl rfl
    · exact Or.inr ⟨_, _, rfl, rfl, rfl, trivial⟩
  · exact processFork_spawned k frame

/-- A new process takes a slot that is not active. -/
lemma forkSlot_inactive {ps : ProcTable} {c : Fin maxProcesses} (h : forkSlot ps = some c) :
    (ps c).active = false := by
  have := List.find?_some h
  simp only [Bool.and_eq_true, Bool.not_eq_true'] at this
  exact this.2

lemma processFork_procs_of_active (k : Kernel) (frame : ContextFrame) {j : Fin maxProcesses}
    (hj : (k.procs j).active = true) : (processFork k frame).2.procs j = k.procs j := by
  unfold processFork
  split
  · rfl
  · rename_i c hc
    refine Function.update_of_ne ?_ _ _
    rintro rfl
    exact absurd ((forkSlot_inactive hc).symm.trans hj) (by simp)

lemma processClone_procs_of_active (k : Kernel) (flags childStack ptid ctid newtls : ℕ)
    (frame : ContextFrame) {j : Fin maxProcesses} (hj : (k.procs j).active = true) :
    (processClone k flags childStack ptid ctid newtls frame).2.procs j = k.procs j := by
  unfold processClone
  split_ifs
  · unfold cloneThread
    split
    · rfl
    · rename_i c hc
      refine Function.update_of_ne ?_ _ _
      rintro rfl
      exact absurd ((forkSlot_inactive hc).symm.trans hj) (by simp)
  · exact processFork_procs_of_active k frame hj

/-- A process created from an image starts with the memory map of `vmm_init_process`. -/
lemma processCreateFromElf_spawned (k : Kernel) (info : ElfInfo) (name : List UInt8) :
    Spawned k (processCreateFromElf k info name).2 fun p => p.vm = programVm k.nextPid
      info.segments := by
  unfold processCreateFromElf
  split
  · exact Or.inl rfl
  · exact Or.inr ⟨_, _, rfl, rfl, rfl, rfl⟩

/-! ## All calls at once -/

/-- `p'` is the process `p`, with the same memory map; it may have been ended. -/
structure SameIdent (p p' : Process) : Prop where
  active : p'.active = true → p.active = true
  pid : p'.pid = p.pid
  tgid : p'.tgid = p.tgid
  vm : p'.vm = p.vm
  segments : p'.segments = p.segments
  stackPhysBase : p'.stackPhysBase = p.stackPhysBase

lemma SameIdent.refl (p : Process) : SameIdent p p := ⟨id, rfl, rfl, rfl, rfl, rfl⟩

lemma Kept.ident {p p' : Process} (h : Kept p p') : SameIdent p p' :=
  ⟨h.active, h.pid, h.tgid, h.vm, h.segments, h.stackPhysBase⟩

lemma SameIdent.trans {p p' p'' : Process} (h : SameIdent p p') (h' : SameIdent p' p'') :
    SameIdent p p'' where
  active := h.active ∘ h'.active
  pid := h'.pid.trans h.pid
  tgid := h'.tgid.trans h.tgid
  vm := h'.vm.trans h.vm
  segments := h'.segments.trans h.segments
  stackPhysBase := h'.stackPhysBase.trans h.stackPhysBase

lemma sameIdent_update {f : ProcTable} {i : Fin maxProcesses} {p : Process}
    (h : SameIdent (f i) p) (j : Fin maxProcesses) :
    SameIdent (f j) (Function.update f i p j) := by
  by_cases hj : j = i
  · subst hj
    rwa [Function.update_self]
  · rw [Function.update_of_ne hj]
    exact SameIdent.refl _

/-- The calls that put a process into a slot. -/
def Call.makesProcess : Call → Bool
  | .fork _ | .clone _ _ _ _ _ _ => true
  | _ => false

/-- The calls that change the memory map of the caller. -/
def Call.mapsMemory : Call → Bool
  | .execve _ _ | .mmap _ _ _ _ | .munmap _ _ | .mprotect _ _ _ => true
  | _ => false

lemma exitFds_ident (k : Kernel) (j : Fin maxProcesses) :
    SameIdent (k.procs j) ((exitFds k).procs j) := by
  refine sameIdent_update (i := k.currentProcIdx) ?_ j
  exact ⟨id, rfl, rfl, rfl, rfl, rfl⟩

lemma processKill_ident (k : Kernel) (pid sig : ℤ) (j : Fin maxProcesses) :
    SameIdent (k.procs j) ((processKill k pid sig).2.procs j) := by
  unfold processKill
  split
  · exact SameIdent.refl _
  · refine SameIdent.trans ?_ (wakeParent_kept _ _ j).ident
    refine sameIdent_update ?_ j
    exact ⟨(fun h => by cases h), rfl, rfl, rfl, rfl, rfl⟩

/-- Every other call leaves each slot its process and its memory map. -/
lemma doSyscall_ident (k : Kernel) (c : Call) (hp : c.makesProcess = false)
    (hm : c.mapsMemory = false) (j : Fin maxProcesses) :
    SameIdent (k.procs j) ((doSyscall k c).procs j) := by
  cases c with
  | futexWait uaddr val word => exact (futexWait_kept k uaddr val word j).ident
  | futexWake uaddr count => exact (futexWake_kept k.procs uaddr count j).ident
  | nanosleep sec nsec => exact (sysNanosleep_kept k sec nsec j).ident
  | fork _ | clone _ _ _ _ _ _ => cases hp
  | execve _ _ | mmap _ _ _ _ | munmap _ _ | mprotect _ _ _ => cases hm
  | exit code => exact (exitFds_ident k j).trans (processExit_kept k code j).ident
  | kill pid sig => exact processKill_ident k pid sig j
  | wait4 pid statusPtr =>
    rw [doSyscall, wait4Call_procs]
    exact (processWait4_kept k pid statusPtr j).ident
  | setTidAddress _ | socket _ _ _ | close _ =>
    refine sameIdent_update (i := k.currentProcIdx) ?_ j
    exact ⟨id, rfl, rfl, rfl, rfl, rfl⟩
  | shutdown fd | brk newBrk => exact SameIdent.refl _

/-- New processes leave the slots of active ones alone. -/
lemma doSyscall_ident_of_active (k : Kernel) (c : Call) (hm : c.mapsMemory = false)
    (j : Fin maxProcesses) (hj : c.makesProcess = true → (k.procs j).active = true) :
    SameIdent (k.procs j) ((doSyscall k c).procs j) := by
  cases c with
  | fork frame =>
    rw [doSyscall, processFork_procs_of_active k frame (hj rfl)]
    exact SameIdent.refl _
  | clone flags childStack ptid ctid newtls frame =>
    rw [doSyscall, processClone_procs_of_active k flags childStack ptid ctid newtls frame (hj rfl)]
    exact SameIdent.refl _
  | _ => exact doSyscall_ident k _ rfl hm j

/-- A call does not switch. -/
lemma doSyscall_sameCpu (k : Kernel) (c : Call) : SameCpu k (doSyscall k c) := by
  cases c with
  | futexWait uaddr val word =>
    rw [doSyscall, futexWait]
    split_ifs <;> exact ⟨rfl, id⟩
  | nanosleep sec nsec =>
    rw [doSyscall, sysNanosleep]
    split_ifs <;> exact ⟨rfl, id⟩
  | fork frame =>
    rw [doSyscall, processFork]
    split <;> exact ⟨rfl, id⟩
  | clone flags childStack ptid ctid newtls frame =>
    rw [doSyscall, processClone, cloneThread, processFork]
    split_ifs <;> split <;> exact ⟨rfl, id⟩
  | execve path argv0 =>
    rw [doSyscall]
    unfold processExecve
    split
    · exact ⟨rfl, id⟩
    split
    · exact ⟨rfl, id⟩
    split
    · exact ⟨rfl, id⟩
    · exact ⟨rfl, fun _ => rfl⟩
  | exit code =>
    have h1 : SameCpu k (exitClearTid (exitFds k)) := by
      unfold exitClearTid
      split_ifs <;> exact ⟨rfl, id⟩
    have h2 : SameCpu k (exitFinish (exitClearTid (exitFds k)) code) := by
      unfold exitFinish
      dsimp only
      split_ifs <;> exact ⟨h1.current, h1.enabled⟩
    exact ⟨h2.current, h2.enabled⟩
  | kill pid sig =>
    rw [doSyscall, processKill]
    split <;> exact ⟨rfl, id⟩
  | wait4 pid statusPtr => exact wait4Call_sameCpu k pid statusPtr
  | futexWake _ _ | setTidAddress _ | socket _ _ _ | close _ | shutdown _ | mmap _ _ _ _
  | munmap _ _ | mprotect _ _ _ | brk _ => exact ⟨rfl, id⟩

lemma processKill_nextPid (k : Kernel) (pid sig : ℤ) :
    (processKill k pid sig).2.nextPid = k.nextPid := by
  unfold processKill
  split <;> rfl

/-- Only new processes take a pid. -/
lemma doSyscall_nextPid (k : Kernel) (c : Call) (hp : c.makesProcess = false) :
    (doSyscall k c).nextPid = k.nextPid := by
  cases c with
  | futexWait uaddr val word => exact (futexWait_globals k uaddr val word).nextPid
  | nanosleep sec nsec => exact (sysNanosleep_globals k sec nsec).nextPid
  | fork _ | clone _ _ _ _ _ _ => cases hp
  | execve path argv0 => exact (processExecve_globals k path argv0).nextPid
  | exit code => exact (processExit_globals k code).nextPid
  | kill pid sig => exact processKill_nextPid k pid sig
  | wait4 pid statusPtr => exact (wait4Call_globals k pid statusPtr).nextPid
  | futexWake _ _ | setTidAddress _ | socket _ _ _ | close _ | shutdown _ | mmap _ _ _ _
  | munmap _ _ | mprotect _ _ _ | brk _ => rfl

/-! ## Memory -/

/-- The calls that change physical memory or the page tables, but for the one `int` that
`process_wait4` and `process_exit` store. -/
def Call.usesMemory : Call → Bool
  | .fork _ | .clone _ _ _ _ _ _ | .brk _ => true
  | c => c.mapsMemory

/-- The memory is as before, or an `int` has been stored at `ptr`. -/
def StoredAt (m m' : Mem) (ptr : ℕ) : Prop := m' = m ∨ ptr ≠ 0 ∧ ∃ v, m' = storeInt m ptr v

lemma StoredAt.pageBitmap {m m' : Mem} {ptr : ℕ} (h : StoredAt m m' ptr) :
    m'.pageBitmap = m.pageBitmap := by
  rcases h with rfl | ⟨-, v, rfl⟩ <;> rfl

lemma wait4Call_stored (k : Kernel) (pid : ℤ) (statusPtr : ℕ) :
    StoredAt k.mem (wait4Call k pid statusPtr).mem statusPtr := by
  have h : StoredAt k.mem (processWait4 k pid statusPtr).2.mem statusPtr := by
    unfold processWait4
    dsimp only
    split
    · dsimp only
      unfold storeStatus
      split_ifs with h0
      · exact Or.inl rfl
      · exact Or.inr ⟨h0, _, rfl⟩
    · split_ifs <;> exact Or.inl rfl
  unfold wait4Call
  split
  all_goals
    rename_i heq
    rw [heq] at h
    exact h

/-- A process that waits for a child may be told its status when it runs again. -/
lemma resume_stored (k : Kernel) :
    (resume k).mem = k.mem ∨ ∃ pid statusPtr, k.pos k.currentProcIdx = .wait4 pid statusPtr ∧
      StoredAt k.mem (resume k).mem statusPtr := by
  unfold resume
  split
  · exact Or.inl rfl
  · split_ifs <;> exact Or.inl rfl
  · split_ifs <;> exact Or.inl rfl
  · rename_i pid statusPtr hpos
    exact Or.inr ⟨pid, statusPtr, hpos, wait4Call_stored k pid statusPtr⟩
  · exact Or.inl rfl

lemma resume_pageBitmap (k : Kernel) : (resume k).mem.pageBitmap = k.mem.pageBitmap := by
  rcases resume_stored k with h | ⟨_, _, _, h⟩
  · rw [h]
  · exact h.pageBitmap

lemma processExit_stored (k : Kernel) (code : ℤ) :
    StoredAt k.mem (processExit k code).mem k.current.clearChildTid := by
  have hcur : (exitFds k).current.clearChildTid = k.current.clearChildTid := by
    unfold exitFds Kernel.current Kernel.setCurrent Kernel.setProc
    dsimp only
    rw [Function.update_self]
  have h1 : StoredAt k.mem (exitClearTid (exitFds k)).mem k.current.clearChildTid := by
    unfold exitClearTid
    rw [hcur]
    split_ifs with h0
    · exact Or.inl rfl
    · exact Or.inr ⟨h0, 0, rfl⟩
  have h2 : (exitFinish (exitClearTid (exitFds k)) code).mem = (exitClearTid (exitFds k)).mem := by
    unfold exitFinish
    dsimp only
    split_ifs <;> rfl
  rw [← h2] at h1
  exact h1

/-- What a call that sets up no memory stores. -/
lemma doSyscall_stored (k : Kernel) (c : Call) (hc : c.usesMemory = false) :
    (doSyscall k c).mem = k.mem ∨ (∃ code, c = .exit code) ∨
      ∃ pid statusPtr, c = .wait4 pid statusPtr := by
  cases c with
  | futexWait uaddr val word =>
    rw [doSyscall, futexWait]
    split_ifs <;> exact Or.inl rfl
  | nanosleep sec nsec =>
    rw [doSyscall, sysNanosleep]
    split_ifs <;> exact Or.inl rfl
  | exit code => exact Or.inr (Or.inl ⟨code, rfl⟩)
  | kill pid sig =>
    rw [doSyscall, processKill]
    split <;> exact Or.inl rfl
  | wait4 pid statusPtr => exact Or.inr (Or.inr ⟨pid, statusPtr, rfl⟩)
  | futexWake _ _ | setTidAddress _ | socket _ _ _ | close _ | shutdown _ => exact Or.inl rfl
  | fork _ | clone _ _ _ _ _ _ | execve _ _ | mmap _ _ _ _ | munmap _ _ | mprotect _ _ _
  | brk _ => cases hc

lemma doSyscall_pageBitmap (k : Kernel) (c : Call) (hc : c.usesMemory = false) :
    (doSyscall k c).mem.pageBitmap = k.mem.pageBitmap := by
  rcases doSyscall_stored k c hc with h | ⟨code, rfl⟩ | ⟨pid, statusPtr, rfl⟩
  · rw [h]
  · exact (processExit_stored k code).pageBitmap
  · exact (wait4Call_stored k pid statusPtr).pageBitmap

/-! ## Page faults -/

/-- The fault ends the running process: no area allows the access, or no frame is free. -/
def FaultRefused (k : Kernel) (faultAddr errorCode : ℕ) : Prop :=
  1 < k.current.pid ∧
    (faultAllowed k.current.vm.vmas k.current.active faultAddr errorCode = false ∨
      freeFrames k.mem = 0)

/-- All that a page fault can do: change the memory, end the process as `SYS_EXIT` does, or
stop the machine. -/
lemma handleFault_cases (k : Kernel) (faultAddr errorCode : ℕ) :
    handleFault k faultAddr errorCode =
        { k with mem := (vmmHandlePageFault k.mem k.current.vm.vmas k.current.active faultAddr
          errorCode).2 } ∨
      (FaultRefused k faultAddr errorCode ∧
        handleFault k faultAddr errorCode = doSyscall k (.exit (-11))) ∨
      handleFault k faultAddr errorCode = { k with halted := true } := by
  unfold handleFault
  rcases vmmHandlePageFault_cases k.mem k.current.vm.vmas k.current.active faultAddr
    errorCode with ⟨he, hwhy⟩ | ⟨-, frame, m1, prot, -, he⟩
  · rw [he]
    dsimp only
    rw [if_neg (by decide)]
    unfold segfault
    split_ifs with hpid
    · exact Or.inr (Or.inl ⟨⟨hpid, hwhy⟩, rfl⟩)
    · exact Or.inr (Or.inr rfl)
  · rw [he]
    exact Or.inl (if_pos rfl)

lemma handleFault_ident (k : Kernel) (faultAddr errorCode : ℕ) (j : Fin maxProcesses) :
    SameIdent (k.procs j) ((handleFault k faultAddr errorCode).procs j) := by
  rcases handleFault_cases k faultAddr errorCode with he | ⟨-, he⟩ | he
  · rw [he]
    exact SameIdent.refl _
  · rw [he]
    exact doSyscall_ident k _ rfl rfl j
  · rw [he]
    exact SameIdent.refl _

lemma handleFault_nextPid (k : Kernel) (faultAddr errorCode : ℕ) :
    (handleFault k faultAddr errorCode).nextPid = k.nextPid := by
  rcases handleFault_cases k faultAddr errorCode with he | ⟨-, he⟩ | he
  · rw [he]
  · rw [he]
    exact doSyscall_nextPid k _ rfl
  · rw [he]

lemma handleFault_sameCpu (k : Kernel) (faultAddr errorCode : ℕ) :
    SameCpu k (handleFault k faultAddr errorCode) := by
  rcases handleFault_cases k faultAddr errorCode with he | ⟨-, he⟩ | he
  · rw [he]
    exact ⟨rfl, id⟩
  · rw [he]
    exact doSyscall_sameCpu k _
  · rw [he]
    exact ⟨rfl, id⟩

end

end Bangos.Proc
