import Bangos.Process.MmapWindows
import Bangos.Process.Wakeup

/-!
# What a step does to the life of a process

A slot of the process table tells who its process is, whether it is alive, and what the scheduler
may do with it.  Most calls change at most the last of these: they put the running process to
sleep, make a sleeping one ready, or (in `process_execve`) set the running slot running again
(`Steady`).  The calls that are left make a process, end some, or take a zombie away
(`LifeStep`).
-/

namespace Bangos.Proc

open Bangos.Mm Bangos.Fs Bangos.Net Bangos.Loader Bangos.Syscall

/-- The process of slot `j` is the same and as alive as before; the running slot is `c`. -/
structure Steady (c j : Fin maxProcesses) (p p' : Process) : Prop where
  pid : p'.pid = p.pid
  ppid : p'.ppid = p.ppid
  isThread : p'.isThread = p.isThread
  active : p'.active = p.active
  exited : p'.exited = p.exited
  exitCode : p'.exitCode = p.exitCode
  state : p'.state = p.state ∨ p'.state = .ready ∨ p'.state = .sleeping ∨
    j = c ∧ p'.state = .running

section

variable {k : Kernel} {c j : Fin maxProcesses} {p p' p'' : Process}

lemma Steady.refl (p : Process) : Steady c j p p := ⟨rfl, rfl, rfl, rfl, rfl, rfl, Or.inl rfl⟩

lemma Steady.trans (h : Steady c j p p') (h' : Steady c j p' p'') : Steady c j p p'' where
  pid := h'.pid.trans h.pid
  ppid := h'.ppid.trans h.ppid
  isThread := h'.isThread.trans h.isThread
  active := h'.active.trans h.active
  exited := h'.exited.trans h.exited
  exitCode := h'.exitCode.trans h.exitCode
  state := by
    rcases h'.state with he | hs
    · rw [he]
      exact h.state
    · exact Or.inr hs

lemma Steady.setProc {f : ProcTable} {i : Fin maxProcesses} (h : Steady c i (f i) p) :
    Steady c j (f j) (Function.update f i p j) := by
  by_cases hj : j = i
  · subst hj
    rwa [Function.update_self]
  · rw [Function.update_of_ne hj]
    exact Steady.refl _

/-! ## Waking -/

lemma futexWake_steady (ps : ProcTable) (uaddr : ℕ) (count : ℤ) :
    Steady c j (ps j) ((futexWake ps uaddr count).2 j) := by
  rcases futexWake_apply ps uaddr count j with he | ⟨-, -, he⟩ <;> rw [he]
  · exact Steady.refl _
  · exact ⟨rfl, rfl, rfl, rfl, rfl, rfl, Or.inr (Or.inl rfl)⟩

lemma wakeParent_steady (ps : ProcTable) (ppid : ℤ) : Steady c j (ps j) (wakeParent ps ppid j) := by
  unfold wakeParent
  split_ifs
  · exact ⟨rfl, rfl, rfl, rfl, rfl, rfl, Or.inr (Or.inl rfl)⟩
  · exact Steady.refl _

/-- The first two parts of `process_exit` end nothing. -/
lemma exiting_steady (k : Kernel) : Steady c j (k.procs j) ((exiting k).procs j) := by
  have hfds : Steady c j (k.procs j) ((exitFds k).procs j) :=
    Steady.setProc (i := k.currentProcIdx) ⟨rfl, rfl, rfl, rfl, rfl, rfl, Or.inl rfl⟩
  unfold exiting exitClearTid
  split_ifs
  · exact hfds
  · exact hfds.trans (futexWake_steady ..)

/-! ## The calls that start and end nothing -/

/-- The calls that make, end or reap processes. -/
def Call.changesFamily : Call → Bool
  | .fork _ | .clone _ _ _ _ _ _ | .exit _ | .kill _ _ | .wait4 _ _ => true
  | _ => false

lemma processExecve_steady (k : Kernel) (path argv0 : Option (List UInt8)) :
    Steady k.currentProcIdx j (k.procs j) ((processExecve k path argv0).2.procs j) := by
  unfold processExecve
  split
  · exact Steady.refl _
  split
  · exact Steady.refl _
  split
  · exact Steady.refl _
  · by_cases hj : j = k.currentProcIdx
    · subst hj
      simp only [execveCommit, processJumpToUser, Kernel.setCurrent, Kernel.setProc,
        Function.update_self]
      exact ⟨rfl, rfl, rfl, rfl, rfl, rfl, Or.inr (Or.inr (Or.inr ⟨rfl, rfl⟩))⟩
    · simp only [execveCommit, processJumpToUser, Kernel.setCurrent, Kernel.setProc,
        Function.update_of_ne hj]
      exact Steady.refl _

lemma doSyscall_steady (k : Kernel) (call : Call) (hcall : call.changesFamily = false)
    (j : Fin maxProcesses) :
    Steady k.currentProcIdx j (k.procs j) ((doSyscall k call).procs j) := by
  -- a call that only writes fields of the running process that do not matter here
  have hset : ∀ {p : Process}, Steady k.currentProcIdx k.currentProcIdx k.current p →
      Steady k.currentProcIdx j (k.procs j) ((k.setCurrent p).procs j) :=
    fun h => Steady.setProc (i := k.currentProcIdx) h
  cases call with
  | fork _ | clone _ _ _ _ _ _ | exit _ | kill _ _ | wait4 _ _ => cases hcall
  | futexWait uaddr val word =>
    rw [doSyscall, futexWait]
    split_ifs
    · exact Steady.refl _
    · exact Steady.refl _
    · exact hset ⟨rfl, rfl, rfl, rfl, rfl, rfl, Or.inr (Or.inr (Or.inl rfl))⟩
  | futexWake uaddr count => exact futexWake_steady ..
  | nanosleep sec nsec =>
    rw [doSyscall, sysNanosleep]
    split_ifs
    · exact Steady.refl _
    · exact hset ⟨rfl, rfl, rfl, rfl, rfl, rfl, Or.inr (Or.inr (Or.inl rfl))⟩
  | execve path argv0 => exact processExecve_steady k path argv0
  | setTidAddress _ | socket _ _ _ | close _ | mmap _ _ _ _ | munmap _ _ | mprotect _ _ _ =>
    exact hset ⟨rfl, rfl, rfl, rfl, rfl, rfl, Or.inl rfl⟩
  | shutdown _ | brk _ => exact Steady.refl _

/-! ## Ending processes -/

/-- The slot still names the same process. -/
structure Named (p p' : Process) : Prop where
  pid : p'.pid = p.pid
  ppid : p'.ppid = p.ppid
  isThread : p'.isThread = p.isThread

lemma Named.trans (h : Named p p') (h' : Named p' p'') : Named p p'' :=
  ⟨h'.pid.trans h.pid, h'.ppid.trans h.ppid, h'.isThread.trans h.isThread⟩

lemma Steady.named (h : Steady c j p p') : Named p p' := ⟨h.pid, h.ppid, h.isThread⟩

/-- What a step that starts no process does to the process of slot `j`, which may become a zombie
if `Exits`, and may be taken from the table if `Killed`. -/
inductive Fate (c j : Fin maxProcesses) (Exits Killed : Prop) (p p' : Process) : Prop
  | steady (h : Steady c j p p')
  | ends (hwhy : Killed) (h : Named p p') (hact : p'.active = false)
  | exits (hwhy : Exits) (h : Named p p') (hact : p'.active = p.active)
      (hexited : p'.exited = true) (hstate : p'.state = .zombie)

lemma Fate.named {Exits Killed : Prop} (h : Fate c j Exits Killed p p') : Named p p' := by
  cases h with
  | steady h => exact h.named
  | ends _ h _ => exact h
  | exits _ h _ _ _ => exact h

lemma Fate.of_steady {Exits Killed : Prop} (hs : Steady c j p p')
    (h : Fate c j Exits Killed p' p'') : Fate c j Exits Killed p p'' := by
  cases h with
  | steady h => exact .steady (hs.trans h)
  | ends hwhy h hact => exact .ends hwhy (hs.named.trans h) hact
  | exits hwhy h hact hexited hstate =>
    exact .exits hwhy (hs.named.trans h) (hact.trans hs.active) hexited hstate

lemma Fate.mono {Exits Killed Exits' Killed' : Prop} (h : Fate c j Exits Killed p p')
    (he : Exits → Exits') (hk : Killed → Killed') : Fate c j Exits' Killed' p p' := by
  cases h with
  | steady h => exact .steady h
  | ends hwhy h hact => exact .ends (hk hwhy) h hact
  | exits hwhy h hact hexited hstate => exact .exits (he hwhy) h hact hexited hstate

lemma wakeParent_of_not_sleeping {ps : ProcTable} (h : (ps j).state ≠ .sleeping) (ppid : ℤ) :
    wakeParent ps ppid j = ps j :=
  if_neg fun hw => h hw.2.2

/-- The exit of a process: its children end, it becomes a zombie, and its parent may wake. -/
lemma endFamily_fate (ps : ProcTable) (c : Fin maxProcesses) (pid ppid code : ℤ) :
    Fate c j (j = c) ((ps j).ppid = pid) (ps j)
      (wakeParent (endChildren (Function.update ps c
        { ps c with exited := true, exitCode := code, state := .zombie }) pid code) ppid j) := by
  by_cases hj : j = c
  · subst hj
    by_cases hchild : (ps j).active = true ∧ (ps j).ppid = pid
    · have he : endChildren (Function.update ps j
          { ps j with exited := true, exitCode := code, state := .zombie }) pid code j =
          { ps j with exited := true, exitCode := code, state := .zombie, active := false } := by
        rw [endChildren, Function.update_self]
        exact if_pos hchild
      rw [wakeParent_of_not_sleeping (by simp [he]), he]
      exact .ends hchild.2 ⟨rfl, rfl, rfl⟩ rfl
    · have he : endChildren (Function.update ps j
          { ps j with exited := true, exitCode := code, state := .zombie }) pid code j =
          { ps j with exited := true, exitCode := code, state := .zombie } := by
        rw [endChildren, Function.update_self]
        exact if_neg hchild
      rw [wakeParent_of_not_sleeping (by simp [he]), he]
      exact .exits rfl ⟨rfl, rfl, rfl⟩ rfl rfl rfl
  · by_cases hchild : (ps j).active = true ∧ (ps j).ppid = pid
    · have he : endChildren (Function.update ps c
          { ps c with exited := true, exitCode := code, state := .zombie }) pid code j =
          { ps j with exited := true, exitCode := code, state := .zombie, active := false } := by
        rw [endChildren, Function.update_of_ne hj]
        exact if_pos hchild
      rw [wakeParent_of_not_sleeping (by simp [he]), he]
      exact .ends hchild.2 ⟨rfl, rfl, rfl⟩ rfl
    · have he : endChildren (Function.update ps c
          { ps c with exited := true, exitCode := code, state := .zombie }) pid code j = ps j := by
        rw [endChildren, Function.update_of_ne hj]
        exact if_neg hchild
      exact .steady (he ▸ wakeParent_steady _ ppid)

/-- The slots that an exit of the running process empties: its own if it is a thread, else those
of its children. -/
def ExitEnds (k : Kernel) (j : Fin maxProcesses) : Prop :=
  (k.procs j).isThread = true ∨
    k.current.pid ≠ 1 ∧ k.current.isThread = false ∧ (k.procs j).ppid = k.current.pid

lemma processExit_fate (k : Kernel) (code : ℤ) (j : Fin maxProcesses) :
    Fate k.currentProcIdx j (j = k.currentProcIdx) (ExitEnds k j) (k.procs j)
      ((processExit k code).procs j) := by
  have hs : ∀ {j}, Steady k.currentProcIdx j (k.procs j) ((exiting k).procs j) := exiting_steady k
  have hcur : (exiting k).current = (exiting k).procs k.currentProcIdx :=
    congrArg _ (exiting_currentProcIdx k)
  refine Fate.of_steady hs ?_
  change Fate _ j _ _ _ ((exitFinish (exiting k) code).procs j)
  unfold exitFinish
  dsimp only
  rw [hcur, exiting_currentProcIdx]
  split_ifs with hone hthread
  · exact .steady (Steady.refl _)
  · simp only [Kernel.setCurrent, Kernel.setProc, exiting_currentProcIdx]
    by_cases hj : j = k.currentProcIdx
    · subst hj
      rw [Function.update_self]
      exact .ends (Or.inl (hs.isThread.symm.trans hthread)) ⟨rfl, rfl, rfl⟩ rfl
    · rw [Function.update_of_ne hj]
      exact .steady (Steady.refl _)
  · refine (endFamily_fate (exiting k).procs k.currentProcIdx _ _ code).mono id fun hppid => ?_
    rw [hs.pid] at hone
    rw [hs.isThread] at hthread
    rw [hs.ppid, hs.pid] at hppid
    exact Or.inr ⟨hone, Bool.eq_false_of_not_eq_true hthread, hppid⟩

lemma processKill_fate (k : Kernel) (pid sig : ℤ) (j : Fin maxProcesses) :
    Fate k.currentProcIdx j False (killSlot k.procs pid = some j) (k.procs j)
      ((processKill k pid sig).2.procs j) := by
  unfold processKill
  split
  · exact .steady (Steady.refl _)
  · rename_i i hslot
    dsimp only
    by_cases hj : j = i
    · subst hj
      rw [wakeParent_of_not_sleeping (by simp), Function.update_self]
      exact .ends hslot ⟨rfl, rfl, rfl⟩ rfl
    · refine .steady ?_
      have h := wakeParent_steady (c := k.currentProcIdx) (j := j) (Function.update k.procs i
        { k.procs i with exited := true, exitCode := sig, state := .zombie, active := false,
                         fdTable := (fdFreeAll k.files (k.procs i).fdTable).2 }) (k.procs i).ppid
      rwa [Function.update_of_ne hj] at h

/-! ## Reaping and spawning -/

/-- The slot whose zombie `process_wait4` takes away. -/
def wait4Slot (k : Kernel) (pid : ℤ) : Option (Fin maxProcesses) :=
  (List.finRange maxProcesses).find? fun i =>
    wait4Matches k.current.pid pid (k.procs i) &&
      ((k.procs i).state == .zombie || (k.procs i).exited)

/-- A process that has been waited for. -/
def Process.reaped (p : Process) : Process :=
  { p with active := false, exited := false, state := .free }

/-- The kernel after the zombie of slot `i` has been waited for; `m` is the memory with its
status. -/
def Kernel.reap (k : Kernel) (i : Fin maxProcesses) (m : Mem) : Kernel :=
  ({ k with mem := m }.setProc i (k.procs i).reaped).setPos .user

lemma reap_procs_self (k : Kernel) (i : Fin maxProcesses) (m : Mem) :
    (k.reap i m).procs i = (k.procs i).reaped := Function.update_self ..

lemma reap_procs_of_ne {i j : Fin maxProcesses} (m : Mem) (h : j ≠ i) :
    (k.reap i m).procs j = k.procs j := Function.update_of_ne h ..

/-- The slot that is reaped is not active any more. -/
lemma ne_of_reap_active {i j : Fin maxProcesses} {m : Mem}
    (h : ((k.reap i m).procs j).active = true) : j ≠ i := by
  rintro rfl
  rw [reap_procs_self] at h
  cases h

lemma processWait4_of_slot {pid : ℤ} {i : Fin maxProcesses} (h : wait4Slot k pid = some i)
    (statusPtr : ℕ) :
    processWait4 k pid statusPtr = (some (k.procs i).pid,
      { k.setProc i (k.procs i).reaped with
        mem := storeStatus k.mem statusPtr (k.procs i).exitCode }) := by
  unfold wait4Slot at h
  simp only [processWait4, h]
  rfl

lemma processWait4_of_none {pid : ℤ} (h : wait4Slot k pid = none) (statusPtr : ℕ) :
    processWait4 k pid statusPtr = (none, k) ∨
      processWait4 k pid statusPtr = (some (-10), k) ∧
        ∀ i, wait4Matches k.current.pid pid (k.procs i) = false := by
  unfold wait4Slot at h
  simp only [processWait4, h]
  split_ifs with hany
  · exact Or.inl rfl
  · exact Or.inr ⟨rfl, by simpa using hany⟩

lemma wait4Call_cases (k : Kernel) (pid : ℤ) (statusPtr : ℕ) :
    (∃ i m, wait4Slot k pid = some i ∧ wait4Call k pid statusPtr = k.reap i m) ∨
    (wait4Slot k pid = none ∧ ∃ q, q ≠ .exited ∧ wait4Call k pid statusPtr = k.setPos q) := by
  cases hslot : wait4Slot k pid with
  | some i =>
    refine Or.inl ⟨i, storeStatus k.mem statusPtr (k.procs i).exitCode, rfl, ?_⟩
    rw [wait4Call, processWait4_of_slot hslot]
    rfl
  | none =>
    rcases processWait4_of_none hslot statusPtr with hw | ⟨hw, -⟩ <;> rw [wait4Call, hw]
    · exact Or.inr ⟨rfl, .wait4 pid statusPtr, by simp, rfl⟩
    · exact Or.inr ⟨rfl, .user, by simp, rfl⟩

/-- The argument of the pass of `process_wait4` that a step makes. -/
def wait4Pass (k : Kernel) (e : KEvent) : Option ℤ :=
  if k.halted then none
  else match e with
    | .call (.wait4 pid _) => if k.pos k.currentProcIdx = .user then some pid else none
    | .resume =>
      match k.pos k.currentProcIdx with
      | .wait4 pid _ => some pid
      | _ => none
    | _ => none

/-- The slot that a step reaps. -/
def reapedSlot (k : Kernel) (e : KEvent) : Option (Fin maxProcesses) :=
  (wait4Pass k e).bind (wait4Slot k)

lemma reapedSlot_of_pass {e : KEvent} (h : wait4Pass k e = none) : reapedSlot k e = none := by
  rw [reapedSlot, h]
  rfl

/-- What a child is at first, in slot `i`. -/
structure Newborn (k : Kernel) (i : Fin maxProcesses) (p : Process) : Prop where
  pid : p.pid = k.nextPid
  ppid : p.ppid = (parentView k i).pid
  active : p.active = true
  exited : p.exited = false
  state : p.state = .ready

/-- A new process is put into an inactive slot. -/
structure Spawns (k k' : Kernel) (i : Fin maxProcesses) : Prop where
  inactive : (k.procs i).active = false
  newborn : Newborn k i (k'.procs i)
  others : ∀ j, j ≠ i → k'.procs j = k.procs j
  pos : k'.pos = Function.update k.pos i .user
  nextPid : k'.nextPid = k.nextPid + 1
  currentProcIdx : k'.currentProcIdx = k.currentProcIdx

lemma processFork_spawns (k : Kernel) (frame : ContextFrame) :
    (processFork k frame).2 = k ∨ ∃ i, Spawns k (processFork k frame).2 i := by
  unfold processFork
  split
  · exact Or.inl rfl
  · rename_i i hslot
    refine Or.inr ⟨i, forkSlot_inactive hslot, ?_, fun j hj => Function.update_of_ne hj .., rfl, rfl,
      rfl⟩
    dsimp only
    rw [Function.update_self]
    exact ⟨rfl, rfl, rfl, rfl, rfl⟩

lemma processClone_spawns (k : Kernel) (flags childStack ptid ctid newtls : ℕ) (frame : ContextFrame) :
    (processClone k flags childStack ptid ctid newtls frame).2 = k ∨
      ∃ i, Spawns k (processClone k flags childStack ptid ctid newtls frame).2 i := by
  unfold processClone
  split_ifs
  · unfold cloneThread
    split
    · exact Or.inl rfl
    · rename_i i hslot
      refine Or.inr ⟨i, forkSlot_inactive hslot, ?_, fun j hj => Function.update_of_ne hj .., rfl,
        rfl, rfl⟩
      dsimp only
      rw [Function.update_self]
      exact ⟨rfl, rfl, rfl, rfl, rfl⟩
  · exact processFork_spawns k frame

/-! ## All steps at once -/

/-- A step either starts nothing and reaps nothing, or starts one process, or reaps one. -/
inductive LifeStep (k : Kernel) (e : KEvent) (k' : Kernel) : Prop
  | fates (hreap : reapedSlot k e = none) (hn : k'.nextPid = k.nextPid)
      (hpos : ∀ j, k.pos j = .exited → k'.pos j = .exited)
      (hkilled : ∀ j, Fate k'.currentProcIdx j
        (k.pos j = .user ∧ k'.pos j = .exited)
        ((k.procs j).isThread = true ∨
          (∃ pid sig, e = .call (.kill pid sig) ∧ killSlot k.procs pid = some j) ∨
          (k.procs j).ppid = k.current.pid ∧
            ((k'.procs k.currentProcIdx).active = true →
              (k'.procs k.currentProcIdx).exited = true))
        (k.procs j) (k'.procs j))
  | spawns (hreap : reapedSlot k e = none) (i : Fin maxProcesses) (h : Spawns k k' i)
  | reaps (i : Fin maxProcesses) (m : Mem) (hreap : reapedSlot k e = some i) (h : k' = k.reap i m)
      (hpos : k.pos k.currentProcIdx ≠ .exited)

/-- A process that has exited is marked so, or its slot is free. -/
lemma processExit_exited (k : Kernel) (code : ℤ) (hone : k.current.pid ≠ 1)
    (hthread : k.current.isThread = false) :
    ((processExit k code).procs k.currentProcIdx).exited = true := by
  have hs : Steady k.currentProcIdx k.currentProcIdx k.current (exiting k).current := by
    unfold Kernel.current
    rw [exiting_currentProcIdx]
    exact exiting_steady k
  change ((exitFinish (exiting k) code).procs k.currentProcIdx).exited = true
  unfold exitFinish
  dsimp only
  rw [hs.pid, hs.isThread, if_neg hone, if_neg (by simp [hthread])]
  refine (wakeParent_steady (c := k.currentProcIdx) _ _).exited.trans ?_
  unfold endChildren
  split_ifs
  · rfl
  · rw [exiting_currentProcIdx, Function.update_self]

/-- A call moves only the running process. -/
lemma doSyscall_pos_of_ne (k : Kernel) (call : Call) (hcall : call.makesProcess = false)
    (hj : j ≠ k.currentProcIdx) : (doSyscall k call).pos j = k.pos j := by
  have hset : ∀ {k' : Kernel} (q : Pos), k'.currentProcIdx = k.currentProcIdx → k'.pos = k.pos →
      (k'.setPos q).pos j = k.pos j := by
    intro k' q hc hp
    rw [Kernel.setPos, hc, hp]
    exact Function.update_of_ne hj ..
  cases call with
  | fork _ | clone _ _ _ _ _ _ => cases hcall
  | futexWait uaddr val word =>
    rw [doSyscall, futexWait]
    split_ifs
    · rfl
    · rfl
    · exact hset _ rfl rfl
  | nanosleep sec nsec =>
    rw [doSyscall, sysNanosleep]
    split_ifs
    · rfl
    · exact hset _ rfl rfl
  | execve path argv0 =>
    rw [doSyscall]
    unfold processExecve
    split
    · rfl
    split
    · rfl
    split <;> rfl
  | exit code =>
    change ((exitFinish (exiting k) code).setPos .exited).pos j = k.pos j
    have hc := exiting_currentProcIdx k
    have hp := exiting_pos k
    refine hset _ ?_ ?_
    all_goals
      unfold exitFinish
      dsimp only
      split_ifs <;> assumption
  | kill pid sig =>
    rw [doSyscall, processKill]
    split <;> rfl
  | wait4 pid statusPtr =>
    rcases wait4Call_cases k pid statusPtr with ⟨i, m, -, he⟩ | ⟨-, q, -, he⟩ <;> rw [doSyscall, he]
    · exact hset _ rfl rfl
    · exact hset _ rfl rfl
  | futexWake _ _ | setTidAddress _ | socket _ _ _ | close _ | shutdown _ | mmap _ _ _ _
  | munmap _ _ | mprotect _ _ _ | brk _ => rfl

lemma processExit_pos (k : Kernel) (code : ℤ) :
    (processExit k code).pos k.currentProcIdx = .exited := by
  have hc : (exitFinish (exiting k) code).currentProcIdx = k.currentProcIdx := by
    have h := exiting_currentProcIdx k
    unfold exitFinish
    dsimp only
    split_ifs <;> exact h
  change ((exitFinish (exiting k) code).setPos .exited).pos k.currentProcIdx = _
  rw [Kernel.setPos, hc]
  exact Function.update_self ..

lemma setPos_exited (hpos : k.pos k.currentProcIdx ≠ .exited) (q : Pos) (j : Fin maxProcesses)
    (hj : k.pos j = .exited) : (k.setPos q).pos j = .exited := by
  have hne : j ≠ k.currentProcIdx := by
    rintro rfl
    exact hpos hj
  exact (Function.update_of_ne hne ..).trans hj

lemma reap_pos_exited (hpos : k.pos k.currentProcIdx ≠ .exited) (i : Fin maxProcesses) (m : Mem)
    (j : Fin maxProcesses) (hj : k.pos j = .exited) : (k.reap i m).pos j = .exited := by
  unfold Kernel.reap
  exact setPos_exited hpos .user j hj

lemma lifeStep_of_steady {k' : Kernel} {e : KEvent} (hreap : reapedSlot k e = none)
    (hn : k'.nextPid = k.nextPid) (hpos : ∀ j, k.pos j = .exited → k'.pos j = .exited)
    (h : ∀ j, Steady k'.currentProcIdx j (k.procs j) (k'.procs j)) : LifeStep k e k' :=
  .fates hreap hn hpos fun j => .steady (h j)

lemma lifeStep_self {e : KEvent} (hreap : reapedSlot k e = none) : LifeStep k e k :=
  lifeStep_of_steady hreap rfl (fun _ h => h) fun _ => Steady.refl _

lemma exit_lifeStep {e : KEvent} (hreap : reapedSlot k e = none)
    (hpos : k.pos k.currentProcIdx = .user) (code : ℤ) :
    LifeStep k e (doSyscall k (.exit code)) := by
  refine .fates hreap (doSyscall_nextPid k _ rfl) (fun j hj => ?_) fun j => ?_
  · have hne : j ≠ k.currentProcIdx := by
      rintro rfl
      rw [hpos] at hj
      cases hj
    rw [doSyscall_pos_of_ne k _ rfl hne]
    exact hj
  · rw [(doSyscall_sameCpu _ _).current]
    refine (processExit_fate k code j).mono ?_ ?_
    · rintro rfl
      exact ⟨hpos, processExit_pos k code⟩
    · rintro (ht | ⟨hone, hthread, hppid⟩)
      · exact Or.inl ht
      · exact Or.inr (Or.inr ⟨hppid, fun _ => processExit_exited k code hone hthread⟩)

/-- A pass of `process_wait4`. -/
lemma wait4_lifeStep {e : KEvent} {pid : ℤ} (hpass : wait4Pass k e = some pid)
    (statusPtr : ℕ) (hpos : k.pos k.currentProcIdx ≠ .exited) :
    LifeStep k e (wait4Call k pid statusPtr) := by
  have hreap : reapedSlot k e = wait4Slot k pid := by rw [reapedSlot, hpass]; rfl
  rcases wait4Call_cases k pid statusPtr with ⟨i, m, hslot, he⟩ | ⟨hslot, q, hq, he⟩
  · exact .reaps i m (hreap.trans hslot) he hpos
  · rw [he]
    exact lifeStep_of_steady (hreap.trans hslot) rfl (setPos_exited hpos q) fun _ => Steady.refl _

lemma doSyscall_lifeStep (hrun : k.halted = false) (hpos : k.pos k.currentProcIdx = .user)
    (call : Call) : LifeStep k (.call call) (doSyscall k call) := by
  have hpass : wait4Pass k (.call call) =
      match call with
      | .wait4 pid _ => some pid
      | _ => none := by
    unfold wait4Pass
    cases call <;> simp [hrun, hpos]
  have hexited : ∀ {j}, k.pos j = .exited → j ≠ k.currentProcIdx := by
    rintro j hj rfl
    rw [hpos] at hj
    cases hj
  by_cases hfam : call.changesFamily = false
  · have hreap : reapedSlot k (.call call) = none := by
      rw [reapedSlot, hpass]
      cases call <;> first | rfl | cases hfam
    have hnew : call.makesProcess = false := by
      cases call <;> first | rfl | cases hfam
    refine lifeStep_of_steady hreap (doSyscall_nextPid k call hnew) (fun j hj => ?_) fun j => ?_
    · exact (doSyscall_pos_of_ne k call hnew (hexited hj)).trans hj
    · rw [(doSyscall_sameCpu _ _).current]
      exact doSyscall_steady k call hfam j
  cases call with
  | fork frame =>
    have hreap : reapedSlot k (.call (.fork frame)) = none := reapedSlot_of_pass hpass
    rw [doSyscall]
    rcases processFork_spawns k frame with he | ⟨i, h⟩
    · rw [he]
      exact lifeStep_self hreap
    · exact .spawns hreap i h
  | clone flags childStack ptid ctid newtls frame =>
    have hreap : reapedSlot k (.call (.clone flags childStack ptid ctid newtls frame)) = none :=
      reapedSlot_of_pass hpass
    rw [doSyscall]
    rcases processClone_spawns k flags childStack ptid ctid newtls frame with he | ⟨i, h⟩
    · rw [he]
      exact lifeStep_self hreap
    · exact .spawns hreap i h
  | exit code =>
    exact exit_lifeStep (reapedSlot_of_pass hpass) hpos code
  | kill pid sig =>
    refine .fates (reapedSlot_of_pass hpass) (doSyscall_nextPid k _ rfl)
      (fun j hj => (doSyscall_pos_of_ne k _ rfl (hexited hj)).trans hj) fun j => ?_
    rw [(doSyscall_sameCpu _ _).current]
    exact (processKill_fate k pid sig j).mono False.elim fun hslot =>
      Or.inr (Or.inl ⟨pid, sig, rfl, hslot⟩)
  | wait4 pid statusPtr => exact wait4_lifeStep hpass statusPtr (by simp [hpos])
  | _ => exact absurd rfl hfam

/-! ### Ticks and resumed calls -/

lemma countdown_steady (p : Process) : Steady c j p (countdown p) := by
  unfold countdown
  split_ifs with h h1
  · exact ⟨rfl, rfl, rfl, rfl, rfl, rfl, Or.inr (Or.inl rfl)⟩
  · exact ⟨rfl, rfl, rfl, rfl, rfl, rfl, Or.inr (Or.inr (Or.inl rfl))⟩
  · exact Steady.refl _

lemma saveCurrent_steady (p : Process) (frame : ℕ) : Steady c j p (saveCurrent p frame) := by
  unfold saveCurrent
  split_ifs with h h1
  · exact ⟨rfl, rfl, rfl, rfl, rfl, rfl, Or.inr (Or.inl rfl)⟩
  · exact ⟨rfl, rfl, rfl, rfl, rfl, rfl, Or.inl rfl⟩
  · exact Steady.refl _

lemma tickTable_steady (ps : ProcTable) (i : Fin maxProcesses) (frame : ℕ) :
    Steady c j (ps j) (tickTable ps i frame j) :=
  (countdown_steady (ps j)).trans
    (Steady.setProc (f := fun i => countdown (ps i)) (saveCurrent_steady _ frame))

lemma schedulerTick_steady (k : Kernel) (frame : ℕ) :
    Steady (schedulerTick k frame).2.currentProcIdx j (k.procs j)
      ((schedulerTick k frame).2.procs j) := by
  unfold schedulerTick
  split_ifs
  · exact Steady.refl _
  · refine (tickTable_steady k.procs k.currentProcIdx frame).trans ?_
    exact Steady.setProc ⟨rfl, rfl, rfl, rfl, rfl, rfl, Or.inr (Or.inr (Or.inr ⟨rfl, rfl⟩))⟩

lemma resume_lifeStep (hrun : k.halted = false) : LifeStep k .resume (resume k) := by
  have hpass : wait4Pass k .resume =
      match k.pos k.currentProcIdx with
      | .wait4 pid _ => some pid
      | _ => none := by
    simp [wait4Pass, hrun]
  unfold resume
  split
  all_goals
    rename_i hq
    rw [hq] at hpass
    dsimp only at hpass
  · exact lifeStep_self (reapedSlot_of_pass hpass)
  · split_ifs
    · exact lifeStep_self (reapedSlot_of_pass hpass)
    · exact lifeStep_of_steady (reapedSlot_of_pass hpass) rfl (setPos_exited (by simp [hq]) _)
        fun _ => Steady.refl _
  · split_ifs
    · exact lifeStep_self (reapedSlot_of_pass hpass)
    · exact lifeStep_of_steady (reapedSlot_of_pass hpass) rfl (setPos_exited (by simp [hq]) _)
        fun _ => Steady.refl _
  · exact wait4_lifeStep hpass _ (by simp [hq])
  · exact lifeStep_self (reapedSlot_of_pass hpass)

/-- **What a step does to the life of processes.** -/
theorem kstep_lifeStep (k : Kernel) {e : KEvent} (he : e.isCreate = false) :
    LifeStep k e (kstep k e) := by
  unfold kstep
  by_cases hhalt : k.halted = true
  · rw [if_pos hhalt]
    exact lifeStep_self (by simp [reapedSlot, wait4Pass, hhalt])
  rw [if_neg hhalt]
  have hrun := Bool.eq_false_of_not_eq_true hhalt
  cases e with
  | tick frame =>
    refine lifeStep_of_steady (by simp [reapedSlot, wait4Pass]) ?_ (fun j hj => ?_)
      fun j => schedulerTick_steady k frame
    all_goals
      dsimp only [schedulerTick]
      split_ifs
      all_goals first | rfl | exact hj
  | resume => exact resume_lifeStep hrun
  | create info name => cases he
  | pageFault faultAddr errorCode =>
    have hreap : reapedSlot k (.pageFault faultAddr errorCode) = none := by
      simp [reapedSlot, wait4Pass]
    dsimp only
    split_ifs with hpos
    · rcases handleFault_cases k faultAddr errorCode with h | ⟨-, h⟩ | h <;> rw [h]
      · exact lifeStep_of_steady hreap rfl (fun _ hj => hj) fun _ => Steady.refl _
      · exact exit_lifeStep hreap hpos (-11)
      · exact lifeStep_of_steady hreap rfl (fun _ hj => hj) fun _ => Steady.refl _
    · exact lifeStep_self hreap
  | call c =>
    dsimp only
    split_ifs with hpos
    · exact doSyscall_lifeStep hrun hpos c
    · refine lifeStep_self ?_
      cases c <;> simp [reapedSlot, wait4Pass, hpos]

lemma boot_procs_of_ne (mem : Mem) (files : Files) (ramdisk : RamdiskAt) (info : ElfInfo)
    (name : List UInt8) {i : Fin maxProcesses} (hi : i ≠ 0) :
    (boot mem files ramdisk info name).procs i = Process.zero := by
  change Function.update (Function.update (fun _ => Process.zero) 0 _) 0 _ i = _
  rw [Function.update_of_ne hi, Function.update_of_ne hi]

end

end Bangos.Proc
