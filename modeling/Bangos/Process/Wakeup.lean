import Bangos.Lib.Runs
import Bangos.Process.Steps

/-!
# Blocked processes sleep

`futex_wake` and the timer only look at processes that sleep, so a process that waits for
one of them in any other state waits for ever.  A process is `Blocked` while the condition of
its waiting loop holds; the invariant says, slot by slot, that an active blocked process
sleeps.

Two places of the kernel make a sleeping process run without its condition having come true:
the end of a child makes its parent ready whatever it sleeps for, and the scheduler falls
back to slot 0 when nothing is ready.
-/

namespace Bangos.Proc

open Bangos.Mm Bangos.Fs Bangos.Net Bangos.Loader Bangos.Syscall

/-! ## The invariant of a slot -/

/-- The loop a process stands in goes on: `futex_wait` while the channel is set,
`SYS_NANOSLEEP` while ticks remain. -/
def blockedAt (p : Process) : Pos → Prop
  | .futexWait _ => p.waitChannel ≠ 0
  | .nanosleep => 0 < p.sleepTicksRemaining
  | _ => False

instance (p : Process) : ∀ q, Decidable (blockedAt p q)
  | .futexWait _ => inferInstanceAs (Decidable (_ ≠ _))
  | .nanosleep => inferInstanceAs (Decidable (_ < _))
  | .user => inferInstanceAs (Decidable False)
  | .wait4 _ _ => inferInstanceAs (Decidable False)
  | .exited => inferInstanceAs (Decidable False)

/-- Process `i` is blocked in `futex_wait` or in `SYS_NANOSLEEP`. -/
def Blocked (k : Kernel) (i : Fin maxProcesses) : Prop := blockedAt (k.procs i) (k.pos i)

instance (k : Kernel) (i : Fin maxProcesses) : Decidable (Blocked k i) :=
  inferInstanceAs (Decidable (blockedAt _ _))

/-- What holds of every slot: an active blocked process sleeps, and the channel is only set
inside `futex_wait`, to the address waited on. -/
structure SlotInv (p : Process) (q : Pos) : Prop where
  asleep : p.active = true → blockedAt p q → p.state = .sleeping
  channel : p.waitChannel = 0 ∨ q = .futexWait p.waitChannel

/-- The invariant of the process table. -/
def WakeInv (k : Kernel) : Prop := ∀ i, SlotInv (k.procs i) (k.pos i)

section Slots

variable {p p' : Process} {q : Pos} {k : Kernel}

lemma SlotInv.of_inactive (h : SlotInv p q) (hp : p'.active = false)
    (hc : p'.waitChannel = p.waitChannel) : SlotInv p' q where
  asleep ha := absurd ha (by simp [hp])
  channel := hc ▸ h.channel

lemma slotInv_of_channel_zero (hw : p.waitChannel = 0) (hq : q ≠ .nanosleep) : SlotInv p q where
  asleep _ hb := by
    cases q with
    | futexWait u => exact absurd hw hb
    | nanosleep => exact absurd rfl hq
    | user | wait4 _ _ | exited => exact hb.elim
  channel := Or.inl hw

/-- A process in user code waits for nothing. -/
lemma SlotInv.channel_zero_of_user (h : SlotInv p .user) : p.waitChannel = 0 :=
  h.channel.resolve_right (by simp)

lemma SlotInv.ready (h : SlotInv p q) (hb : ¬ blockedAt p q) :
    SlotInv { p with state := .ready } q where
  asleep _ hb' := by
    cases q with
    | futexWait u => exact absurd hb' hb
    | nanosleep => exact absurd hb' hb
    | user | wait4 _ _ | exited => exact hb'.elim
  channel := h.channel

/-- Waking a sleeper of a futex: it stands in `futex_wait`, and its channel is cleared. -/
lemma SlotInv.futexWoken (h : SlotInv p q) (hw : p.waitChannel ≠ 0) :
    SlotInv { p with waitChannel := 0, state := .ready } q := by
  rcases h.channel with h0 | hq
  · exact absurd h0 hw
  · exact slotInv_of_channel_zero rfl (by simp [hq])

lemma slotInv_setProc {i : Fin maxProcesses} (h : WakeInv k) (hp : SlotInv p (k.pos i)) :
    WakeInv (k.setProc i p) :=
  Function.forall_update_iff k.procs (p := fun i p => SlotInv p (k.pos i)) |>.mpr
    ⟨hp, fun i _ => h i⟩

lemma wakeInv_newProc {ps : ProcTable} {pos : Fin maxProcesses → Pos} {i : Fin maxProcesses}
    (h : ∀ i, SlotInv (ps i) (pos i)) (hp : p.waitChannel = 0) :
    ∀ j, SlotInv (Function.update ps i p j) (Function.update pos i .user j) := by
  intro j
  by_cases hj : j = i
  · subst hj
    simp only [Function.update_self]
    exact slotInv_of_channel_zero hp (by simp)
  · simp only [Function.update_of_ne hj]
    exact h j

lemma wakeInv_setPos (h : WakeInv k) (hw : k.current.waitChannel = 0) (hq : q ≠ .nanosleep) :
    WakeInv (k.setPos q) := by
  intro j
  by_cases hj : j = k.currentProcIdx
  · subst hj
    simp only [Kernel.setPos, Function.update_self]
    exact slotInv_of_channel_zero hw hq
  · simp only [Kernel.setPos, Function.update_of_ne hj]
    exact h j

/-! ## The operations -/

lemma futexWake_inv {pos : Fin maxProcesses → Pos} {ps : ProcTable}
    (h : ∀ i, SlotInv (ps i) (pos i)) (uaddr : ℕ) (count : ℤ) :
    ∀ i, SlotInv ((futexWake ps uaddr count).2 i) (pos i) := by
  intro i
  rcases futexWake_apply ps uaddr count i with he | ⟨hu, hs, he⟩ <;> rw [he]
  · exact h i
  · simp only [futexSleeper, Bool.and_eq_true, beq_iff_eq] at hs
    exact (h i).futexWoken (by rw [hs.2]; exact hu)

lemma futexWait_inv (h : WakeInv k) (uaddr val word : ℕ) :
    WakeInv (futexWait k uaddr val word).2 := by
  unfold futexWait
  split_ifs
  · exact h
  · exact h
  · intro j
    by_cases hj : j = k.currentProcIdx
    · subst hj
      simp only [Kernel.setPos, Kernel.setCurrent, Kernel.setProc, Function.update_self]
      exact ⟨fun _ _ => rfl, Or.inr rfl⟩
    · simp only [Kernel.setPos, Kernel.setCurrent, Kernel.setProc, Function.update_of_ne hj]
      exact h j

lemma sysNanosleep_inv (h : WakeInv k) (hpos : k.pos k.currentProcIdx = .user) (sec nsec : ℤ) :
    WakeInv (sysNanosleep k sec nsec).2 := by
  unfold sysNanosleep
  split_ifs
  · exact h
  · intro j
    by_cases hj : j = k.currentProcIdx
    · subst hj
      have hw := (hpos ▸ h k.currentProcIdx).channel_zero_of_user
      simp only [Kernel.setPos, Kernel.setCurrent, Kernel.setProc, Function.update_self]
      exact ⟨fun _ _ => rfl, Or.inl hw⟩
    · simp only [Kernel.setPos, Kernel.setCurrent, Kernel.setProc, Function.update_of_ne hj]
      exact h j

lemma processFork_inv (h : WakeInv k) (frame : ContextFrame) :
    WakeInv (processFork k frame).2 := by
  unfold processFork
  split
  · exact h
  · exact wakeInv_newProc h rfl

lemma processClone_inv (h : WakeInv k) (flags childStack ptid ctid newtls : ℕ)
    (frame : ContextFrame) : WakeInv (processClone k flags childStack ptid ctid newtls frame).2 := by
  unfold processClone
  split_ifs
  · unfold cloneThread
    split
    · exact h
    · exact wakeInv_newProc h rfl
  · exact processFork_inv h frame

lemma processCreateFromElf_inv (h : WakeInv k) (info : ElfInfo) (name : List UInt8) :
    WakeInv (processCreateFromElf k info name).2 := by
  unfold processCreateFromElf
  split
  · exact h
  · exact wakeInv_newProc h rfl

lemma processExecve_inv (h : WakeInv k) (hpos : k.pos k.currentProcIdx = .user)
    (path argv0 : Option (List UInt8)) : WakeInv (processExecve k path argv0).2 := by
  unfold processExecve
  split
  · exact h
  split
  · exact h
  split
  · exact h
  · have hw := (hpos ▸ h k.currentProcIdx).channel_zero_of_user
    -- the program starts in user code, where a process is not blocked
    refine slotInv_setProc (slotInv_setProc h (slotInv_of_channel_zero hw ?_))
      (slotInv_of_channel_zero ?_ ?_)
    · simp [hpos]
    · simpa [Kernel.setCurrent, Kernel.setProc, Kernel.current] using hw
    · simp [Kernel.setCurrent, Kernel.setProc, hpos]

lemma processWait4_inv (h : WakeInv k) (pid : ℤ) (statusPtr : ℕ) :
    WakeInv (processWait4 k pid statusPtr).2 := by
  unfold processWait4
  dsimp only
  split
  · rename_i i _
    exact slotInv_setProc h ((h i).of_inactive rfl rfl)
  · split_ifs <;> exact h

lemma processWait4_current (k : Kernel) (pid : ℤ) (statusPtr : ℕ) :
    (processWait4 k pid statusPtr).2.current.waitChannel = k.current.waitChannel := by
  unfold processWait4
  dsimp only
  split
  · rename_i i _
    by_cases hi : k.currentProcIdx = i
    · simp [Kernel.current, Kernel.setProc, hi]
    · simp [Kernel.current, Kernel.setProc, hi]
  · split_ifs <;> rfl

lemma wait4Call_inv (h : WakeInv k) (hw : k.current.waitChannel = 0) (pid : ℤ)
    (statusPtr : ℕ) : WakeInv (wait4Call k pid statusPtr) := by
  have h' := processWait4_inv h pid statusPtr
  have hw' := (processWait4_current k pid statusPtr).trans hw
  unfold wait4Call
  split
  all_goals
    rename_i heq
    rw [heq] at h' hw'
    exact wakeInv_setPos h' hw' (by simp)

/-- No active process with this pid is blocked. -/
def NoBlockedParent (k : Kernel) (ppid : ℤ) : Prop :=
  ∀ i, (k.procs i).active = true → (k.procs i).pid = ppid → ¬ Blocked k i

lemma wakeParent_inv {ps : ProcTable} {pos : Fin maxProcesses → Pos} {ppid : ℤ}
    {i : Fin maxProcesses} (h : SlotInv (ps i) (pos i))
    (hb : (ps i).active = true → (ps i).pid = ppid → ¬ blockedAt (ps i) (pos i)) :
    SlotInv (wakeParent ps ppid i) (pos i) := by
  unfold wakeParent
  split_ifs with hp
  · exact h.ready (hb hp.1 hp.2.1)
  · exact h

lemma processKill_inv (h : WakeInv k) {pid : ℤ} (sig : ℤ)
    (hsafe : ∀ i, killSlot k.procs pid = some i → NoBlockedParent k (k.procs i).ppid) :
    WakeInv (processKill k pid sig).2 := by
  unfold processKill
  split
  · exact h
  · rename_i i hslot
    intro j
    refine wakeParent_inv ?_ fun hact hpid => ?_
    · by_cases hj : j = i
      · subst hj
        rw [Function.update_self]
        exact (h j).of_inactive rfl rfl
      · rw [Function.update_of_ne hj]
        exact h j
    · by_cases hj : j = i
      · subst hj
        rw [Function.update_self] at hact
        exact absurd hact (by simp)
      · rw [Function.update_of_ne hj] at hact hpid ⊢
        exact hsafe i hslot j hact hpid

/-- What waking on a futex leaves of a process. -/
structure Woken (p p' : Process) : Prop where
  active : p'.active = p.active
  pid : p'.pid = p.pid
  ppid : p'.ppid = p.ppid
  isThread : p'.isThread = p.isThread
  sleep : p'.sleepTicksRemaining = p.sleepTicksRemaining
  channel : p'.waitChannel = p.waitChannel ∨ p'.waitChannel = 0

lemma Woken.refl (p : Process) : Woken p p := ⟨rfl, rfl, rfl, rfl, rfl, Or.inl rfl⟩

lemma Woken.trans {p'' : Process} (h : Woken p p') (h' : Woken p' p'') : Woken p p'' where
  active := h'.active.trans h.active
  pid := h'.pid.trans h.pid
  ppid := h'.ppid.trans h.ppid
  isThread := h'.isThread.trans h.isThread
  sleep := h'.sleep.trans h.sleep
  channel := by
    rcases h'.channel with hc | hc
    · rw [hc]
      exact h.channel
    · exact Or.inr hc

lemma Woken.blockedAt_of (h : Woken p p') (hb : blockedAt p' q) : blockedAt p q := by
  cases q with
  | futexWait u =>
    simp only [blockedAt] at hb ⊢
    rcases h.channel with hc | hc
    · rwa [hc] at hb
    · exact absurd hc hb
  | nanosleep =>
    simp only [blockedAt] at hb ⊢
    rwa [h.sleep] at hb
  | user | wait4 _ _ | exited => exact hb.elim

lemma futexWake_woken (ps : ProcTable) (uaddr : ℕ) (count : ℤ) (i : Fin maxProcesses) :
    Woken (ps i) ((futexWake ps uaddr count).2 i) := by
  rcases futexWake_apply ps uaddr count i with he | ⟨-, -, he⟩ <;> rw [he]
  · exact Woken.refl _
  · exact ⟨rfl, rfl, rfl, rfl, rfl, Or.inr rfl⟩

lemma exitFds_woken (k : Kernel) (i : Fin maxProcesses) :
    Woken (k.procs i) ((exitFds k).procs i) := by
  unfold exitFds
  by_cases hi : i = k.currentProcIdx
  · subst hi
    simp only [Kernel.setCurrent, Kernel.setProc, Function.update_self]
    exact ⟨rfl, rfl, rfl, rfl, rfl, Or.inl rfl⟩
  · simp only [Kernel.setCurrent, Kernel.setProc, Function.update_of_ne hi]
    exact Woken.refl _

/-- The state in which `process_exit` starts to end the process. -/
def exiting (k : Kernel) : Kernel := exitClearTid (exitFds k)

lemma exiting_pos (k : Kernel) : (exiting k).pos = k.pos := by
  unfold exiting exitClearTid
  split_ifs <;> rfl

lemma exiting_currentProcIdx (k : Kernel) :
    (exiting k).currentProcIdx = k.currentProcIdx := by
  unfold exiting exitClearTid
  split_ifs <;> rfl

lemma exiting_woken (k : Kernel) (i : Fin maxProcesses) :
    Woken (k.procs i) ((exiting k).procs i) := by
  unfold exiting exitClearTid
  split_ifs
  · exact exitFds_woken k i
  · exact (exitFds_woken k i).trans (futexWake_woken _ _ _ i)

lemma exiting_inv (h : WakeInv k) : WakeInv (exiting k) := by
  have hfds : WakeInv (exitFds k) :=
    slotInv_setProc h ⟨(h k.currentProcIdx).asleep, (h k.currentProcIdx).channel⟩
  unfold exiting exitClearTid
  split_ifs
  · exact hfds
  · exact futexWake_inv hfds _ _

lemma endChildren_inv {ps : ProcTable} {i : Fin maxProcesses} (pid code : ℤ)
    (h : SlotInv (ps i) q) : SlotInv (endChildren ps pid code i) q := by
  unfold endChildren
  split_ifs
  · exact h.of_inactive rfl rfl
  · exact h

/-- Ending the running process, once its place is marked as exited. -/
lemma exitFinish_inv (h : WakeInv k) (hw : k.current.waitChannel = 0) (code : ℤ)
    (hsafe : k.current.pid ≠ 1 → k.current.isThread = false →
      NoBlockedParent k k.current.ppid) :
    WakeInv ((exitFinish k code).setPos .exited) := by
  unfold exitFinish
  dsimp only
  split_ifs with hpid hthread
  · exact wakeInv_setPos h hw (by simp)
  · refine wakeInv_setPos (slotInv_setProc h ((h k.currentProcIdx).of_inactive rfl rfl)) ?_
      (by simp)
    simpa [Kernel.setCurrent, Kernel.setProc, Kernel.current] using hw
  · intro j
    by_cases hj : j = k.currentProcIdx
    · subst hj
      simp only [Kernel.setPos, Function.update_self]
      refine slotInv_of_channel_zero ?_ (by simp)
      unfold wakeParent endChildren
      split_ifs <;> simpa [Kernel.current] using hw
    · simp only [Kernel.setPos, Function.update_of_ne hj]
      have hps : Function.update k.procs k.currentProcIdx
          { k.current with exited := true, exitCode := code, state := .zombie } j = k.procs j :=
        Function.update_of_ne hj _ _
      refine wakeParent_inv (endChildren_inv _ _ (hps ▸ h j)) fun hact hpid' => ?_
      unfold endChildren at hact hpid' ⊢
      split_ifs at hact hpid' ⊢
      rw [hps] at hact hpid' ⊢
      exact hsafe hpid (by simpa using hthread) j hact hpid'

lemma processExit_inv (h : WakeInv k) (hpos : k.pos k.currentProcIdx = .user) (code : ℤ)
    (hsafe : k.current.pid ≠ 1 → k.current.isThread = false →
      NoBlockedParent k k.current.ppid) : WakeInv (processExit k code) := by
  have hcur : Woken k.current (exiting k).current := by
    unfold Kernel.current
    rw [exiting_currentProcIdx]
    exact exiting_woken k _
  have hw := (hpos ▸ h k.currentProcIdx).channel_zero_of_user
  refine exitFinish_inv (exiting_inv h) ?_ code fun hpid hthread => ?_
  · rcases hcur.channel with hc | hc
    · exact hc.trans hw
    · exact hc
  · intro i hact hpid' hb
    have hi := exiting_woken k i
    rw [hcur.pid] at hpid
    rw [hcur.isThread] at hthread
    rw [hcur.ppid, hi.pid] at hpid'
    rw [hi.active] at hact
    refine hsafe hpid hthread i hact hpid' (hi.blockedAt_of ?_)
    rwa [Blocked, exiting_pos] at hb

/-! ## The scheduler -/

lemma countdown_inv (h : SlotInv p q) : SlotInv (countdown p) q := by
  unfold countdown
  split_ifs with hp hlast
  · -- the last tick is over, and no futex is waited on: the process is not blocked
    refine ⟨fun _ hb => ?_, h.channel⟩
    cases q with
    | futexWait u => exact absurd hlast.2 hb
    | nanosleep =>
      have : 0 < p.sleepTicksRemaining - 1 := hb
      omega
    | user | wait4 _ _ | exited => exact hb.elim
  · exact ⟨fun _ _ => rfl, h.channel⟩
  · exact h

lemma saveCurrent_inv (h : SlotInv p q) (frame : ℕ) : SlotInv (saveCurrent p frame) q := by
  unfold saveCurrent
  split_ifs with hact hrun
  · exact ⟨fun _ hb => absurd (h.asleep hact hb) (by simp [hrun]), h.channel⟩
  · exact ⟨h.asleep, h.channel⟩
  · exact h

lemma tickTable_inv {ps : ProcTable} {pos : Fin maxProcesses → Pos}
    (h : ∀ i, SlotInv (ps i) (pos i)) (c : Fin maxProcesses) (frame : ℕ) :
    ∀ i, SlotInv (tickTable ps c frame i) (pos i) := by
  intro i
  unfold tickTable
  by_cases hi : i = c
  · subst hi
    rw [Function.update_self]
    exact saveCurrent_inv (countdown_inv (h i)) frame
  · rw [Function.update_of_ne hi]
    exact countdown_inv (h i)

/-- Process `i` will be ready for the next tick: it is ready, or it is the running one, or
its last tick of sleep is due. -/
def Runnable (k : Kernel) (i : Fin maxProcesses) : Prop :=
  let p := k.procs i
  p.active = true ∧ (p.state = .ready ∨ (i = k.currentProcIdx ∧ p.state = .running) ∨
    (p.state = .sleeping ∧ p.sleepTicksRemaining = 1 ∧ p.waitChannel = 0))

instance (k : Kernel) (i : Fin maxProcesses) : Decidable (Runnable k i) :=
  inferInstanceAs (Decidable (_ ∧ _))

lemma mem_roundRobin (c i : Fin maxProcesses) : i ∈ roundRobin c := by
  revert c i
  decide +kernel

lemma countdown_ready (hact : p.active = true) (hst : p.state = .ready ∨
    (p.state = .sleeping ∧ p.sleepTicksRemaining = 1 ∧ p.waitChannel = 0)) :
    (countdown p).active = true ∧ (countdown p).state = .ready := by
  rcases hst with hst | ⟨hst, hsl, hw⟩
  · simp [countdown, hact, hst]
  · simp [countdown, hact, hst, hsl, hw]

lemma tickTable_ready {i : Fin maxProcesses} (hr : Runnable k i) (frame : ℕ) :
    (tickTable k.procs k.currentProcIdx frame i).active = true ∧
      (tickTable k.procs k.currentProcIdx frame i).state = .ready := by
  obtain ⟨hact, hst⟩ := hr
  unfold tickTable
  by_cases hi : i = k.currentProcIdx
  · subst hi
    rw [Function.update_self]
    rcases hst with hst | ⟨-, hst⟩ | hst
    · obtain ⟨h₁, h₂⟩ := countdown_ready hact (Or.inl hst)
      simp [saveCurrent, h₁, h₂]
    · simp [saveCurrent, countdown, hact, hst]
    · obtain ⟨h₁, h₂⟩ := countdown_ready hact (Or.inr hst)
      simp [saveCurrent, h₁, h₂]
  · rw [Function.update_of_ne hi]
    rcases hst with hst | ⟨hc, -⟩ | hst
    · exact countdown_ready hact (Or.inl hst)
    · exact absurd hc hi
    · exact countdown_ready hact (Or.inr hst)

lemma countdown_blocked (hact : (countdown p).active = true) (hb : blockedAt (countdown p) q) :
    p.active = true ∧ blockedAt p q := by
  unfold countdown at hact hb
  split_ifs at hact hb with hp
  all_goals
    refine ⟨hact, ?_⟩
    cases q with
    | futexWait u => exact hb
    | nanosleep => first | exact hp.2.2 | exact hb
    | user | wait4 _ _ | exited => exact hb

lemma saveCurrent_blocked {frame : ℕ} (hact : (saveCurrent p frame).active = true)
    (hb : blockedAt (saveCurrent p frame) q) : p.active = true ∧ blockedAt p q := by
  unfold saveCurrent at hact hb
  split_ifs at hact hb with hp
  all_goals
    refine ⟨hact, ?_⟩
    cases q <;> exact hb

/-- The first steps of a tick block no process. -/
lemma tickTable_blocked {i : Fin maxProcesses} {frame : ℕ}
    (hact : (tickTable k.procs k.currentProcIdx frame i).active = true)
    (hb : blockedAt (tickTable k.procs k.currentProcIdx frame i) (k.pos i)) :
    (k.procs i).active = true ∧ Blocked k i := by
  unfold tickTable at hact hb
  by_cases hi : i = k.currentProcIdx
  · subst hi
    rw [Function.update_self] at hact hb
    obtain ⟨h₁, h₂⟩ := saveCurrent_blocked hact hb
    exact countdown_blocked h₁ h₂
  · rw [Function.update_of_ne hi] at hact hb
    exact countdown_blocked hact hb

/-- What the scheduler picks: a process that is ready or running, or slot 0 when no active
process is ready. -/
lemma nextIdx_cases (ps : ProcTable) (c : Fin maxProcesses) :
    ((ps (nextIdx ps c)).state = .ready ∨ (ps (nextIdx ps c)).state = .running) ∨
      nextIdx ps c = 0 ∧ ∀ i, (ps i).active = true → (ps i).state ≠ .ready := by
  unfold nextIdx
  split
  · rename_i i hfind
    have hi := List.find?_some hfind
    simp only [Bool.and_eq_true, beq_iff_eq] at hi
    exact Or.inl (Or.inl hi.2)
  · rename_i hnone
    split_ifs with hc
    · exact Or.inl hc.2
    · refine Or.inr ⟨rfl, fun i hact hready => ?_⟩
      have hi := List.find?_eq_none.mp hnone i (mem_roundRobin c i)
      simp [hact, hready] at hi

lemma SlotInv.running (h : SlotInv p q) (hb : p.active = true → ¬ blockedAt p q) :
    SlotInv { p with state := .running } q :=
  ⟨fun ha hb' => absurd (show blockedAt p q by cases q <;> exact hb') (hb ha), h.channel⟩

/-- A tick preserves the invariant when slot 0, if it is blocked, is not the last resort. -/
lemma schedulerTick_inv (h : WakeInv k) (frame : ℕ)
    (hsafe : (k.procs 0).active = true → Blocked k 0 → ∃ i, Runnable k i) :
    WakeInv (schedulerTick k frame).2 := by
  unfold schedulerTick
  split_ifs
  · exact h
  have hps := tickTable_inv h k.currentProcIdx frame
  set ps := tickTable k.procs k.currentProcIdx frame with hps_def
  set n := nextIdx ps k.currentProcIdx with hn
  refine (Function.forall_update_iff ps (p := fun i p => SlotInv p (k.pos i))).mpr
    ⟨(hps n).running fun hact hb => ?_, fun i _ => hps i⟩
  have hsleep := (hps n).asleep hact hb
  rcases nextIdx_cases ps k.currentProcIdx with hst | ⟨h0, hnone⟩
  · rw [← hn, hsleep] at hst
    simp at hst
  · -- the fallback: slot 0 was active and blocked before the tick as well
    rw [← hn] at h0
    rw [h0] at hact hb
    have hold : (k.procs 0).active = true ∧ Blocked k 0 := tickTable_blocked hact hb
    obtain ⟨i, hi⟩ := hsafe hold.1 hold.2
    obtain ⟨h₁, h₂⟩ := tickTable_ready hi frame
    exact hnone i h₁ h₂

/-! ## Runs -/

lemma resume_inv (h : WakeInv k) : WakeInv (resume k) := by
  have hc := (h k.currentProcIdx).channel
  unfold resume
  split <;> rename_i hpos
  · exact h
  · split_ifs with hu
    · exact h
    · refine wakeInv_setPos h (hc.resolve_right fun hq => hu ?_) (by simp)
      rw [hpos] at hq
      exact (Pos.futexWait.inj hq).symm
  · split_ifs
    · exact h
    · exact wakeInv_setPos h (hc.resolve_right (by simp [hpos])) (by simp)
  · exact wait4Call_inv h (hc.resolve_right (by simp [hpos])) _ _
  · exact h

/-- The condition on a step under which no wake-up is lost: an exit, a kill or a fatal page
fault does not find the parent of the dying process blocked, and a tick does not fall back to
a blocked slot 0. -/
def WakeSafe (k : Kernel) : KEvent → Prop
  | .tick _ => (k.procs 0).active = true → Blocked k 0 → ∃ i, Runnable k i
  | .call (.exit _) =>
    k.current.pid ≠ 1 → k.current.isThread = false → NoBlockedParent k k.current.ppid
  | .call (.kill pid _) =>
    ∀ i, killSlot k.procs pid = some i → NoBlockedParent k (k.procs i).ppid
  | .pageFault faultAddr errorCode =>
    FaultRefused k faultAddr errorCode → k.current.isThread = false →
      NoBlockedParent k k.current.ppid
  | _ => True

lemma doSyscall_inv (h : WakeInv k) (hpos : k.pos k.currentProcIdx = .user) (c : Call)
    (hsafe : WakeSafe k (.call c)) : WakeInv (doSyscall k c) := by
  have hcur := h k.currentProcIdx
  cases c with
  | futexWait uaddr val word => exact futexWait_inv h uaddr val word
  | futexWake uaddr count => exact futexWake_inv h uaddr count
  | nanosleep sec nsec => exact sysNanosleep_inv h hpos sec nsec
  | fork frame => exact processFork_inv h frame
  | clone flags childStack ptid ctid newtls frame =>
    exact processClone_inv h flags childStack ptid ctid newtls frame
  | execve path argv0 => exact processExecve_inv h hpos path argv0
  | exit code => exact processExit_inv h hpos code hsafe
  | kill pid sig => exact processKill_inv h sig hsafe
  | wait4 pid statusPtr => exact wait4Call_inv h (hpos ▸ hcur).channel_zero_of_user pid statusPtr
  | setTidAddress addr => exact slotInv_setProc h ⟨hcur.asleep, hcur.channel⟩
  | socket domain type protocol => exact slotInv_setProc h ⟨hcur.asleep, hcur.channel⟩
  | close fd => exact slotInv_setProc h ⟨hcur.asleep, hcur.channel⟩
  | shutdown fd => exact h
  | mmap addr len prot flags => exact slotInv_setProc h ⟨hcur.asleep, hcur.channel⟩
  | munmap addr len => exact slotInv_setProc h ⟨hcur.asleep, hcur.channel⟩
  | mprotect addr len prot => exact slotInv_setProc h ⟨hcur.asleep, hcur.channel⟩
  | brk newBrk => exact h

/-- A step that meets its condition preserves the invariant. -/
lemma kstep_inv (k : Kernel) (e : KEvent) (h : WakeInv k) (hsafe : WakeSafe k e) :
    WakeInv (kstep k e) := by
  unfold kstep
  by_cases hhalt : k.halted = true
  · rwa [if_pos hhalt]
  rw [if_neg hhalt]
  cases e with
  | tick frame => exact schedulerTick_inv h frame hsafe
  | resume => exact resume_inv h
  | create info name => exact processCreateFromElf_inv h info name
  | pageFault faultAddr errorCode =>
    dsimp only
    split_ifs with hpos
    · rcases handleFault_cases k faultAddr errorCode with he | ⟨hr, he⟩ | he
      · rw [he]
        exact h
      · rw [he]
        exact doSyscall_inv h hpos (.exit (-11)) fun _ => hsafe hr
      · rw [he]
        exact h
    · exact h
  | call c =>
    dsimp only
    split_ifs with hpos
    · exact doSyscall_inv h hpos c hsafe
    · exact h

end Slots

lemma processCreateFromElf_pos {k : Kernel} (h : ∀ i, k.pos i = .user) (info : ElfInfo)
    (name : List UInt8) (i : Fin maxProcesses) :
    (processCreateFromElf k info name).2.pos i = .user := by
  unfold processCreateFromElf
  split
  · exact h i
  · rename_i idx _
    by_cases hi : i = idx
    · simp [hi]
    · simp [hi, h i]

lemma boot_inv (mem : Mem) (files : Files) (ramdisk : RamdiskAt) (info : ElfInfo)
    (name : List UInt8) : WakeInv (boot mem files ramdisk info name) := by
  have h0 : WakeInv (processInit mem files ramdisk) :=
    fun i => slotInv_of_channel_zero rfl (by simp [processInit])
  have h1 := processCreateFromElf_inv h0 info name
  have hpos := processCreateFromElf_pos (k := processInit mem files ramdisk) (fun _ => rfl)
    info name 0
  exact slotInv_setProc h1 ((h1 0).running fun _ => by rw [hpos]; exact id)

/-- **No wake-up is lost** in a run from the start of the first program, as long as no exit,
kill or fatal page fault finds the parent of the dying process blocked and no tick falls back
to a blocked slot 0: every active process that is blocked sleeps. -/
theorem sleeping_of_blocked (mem : Mem) (files : Files) (ramdisk : RamdiskAt) (info : ElfInfo)
    (name : List UInt8) (es : List KEvent)
    (h : Runs.StepsMeet kstep WakeSafe (boot mem files ramdisk info name) es)
    (i : Fin maxProcesses)
    (hact : ((Runs.runFrom kstep (boot mem files ramdisk info name) es).procs i).active = true)
    (hb : Blocked (Runs.runFrom kstep (boot mem files ramdisk info name) es) i) :
    ((Runs.runFrom kstep (boot mem files ramdisk info name) es).procs i).state = .sleeping :=
  (Runs.invariant_runFrom kstep_inv (boot_inv mem files ramdisk info name) h i).asleep hact hb

/-- The first process forks and goes to sleep for a second; its child runs. -/
def forkSleepEvents : List KEvent :=
  [.call (.fork someFrame), .call (.nanosleep 1 0), .tick 0]

theorem sleeping_of_blocked_forkSleep :
    ((Runs.runFrom kstep freshKernel forkSleepEvents).procs 0).state = .sleeping :=
  sleeping_of_blocked _ _ _ _ _ forkSleepEvents
    (by refine ⟨trivial, trivial, fun _ _ => ⟨1, by decide +kernel⟩, trivial⟩) 0
    (by decide +kernel) (by decide +kernel)

/-- The child then exits, and the sleeping parent becomes ready with its time not over: it
will never be woken. -/
theorem lost_wakeup_forkSleep :
    ((Runs.runFrom kstep freshKernel (forkSleepEvents ++ [.call (.exit 0)])).procs 0).active =
        true ∧
      Blocked (Runs.runFrom kstep freshKernel (forkSleepEvents ++ [.call (.exit 0)])) 0 ∧
      ((Runs.runFrom kstep freshKernel (forkSleepEvents ++ [.call (.exit 0)])).procs 0).state =
        .ready := by
  decide +kernel

end Bangos.Proc
