import Bangos.Lib.Runs
import Bangos.Mm.VmaTable
import Bangos.Process.Steps

/-!
# The mmap windows of the processes

All processes share one page table, so what keeps their anonymous mappings apart is that
`vmm_init_process` gives each pid a window of 4 GB of its own to start from.  Nothing keeps
a process inside its window: a forked child goes on in its parent's, and a long run of
mappings leaves it at the top.

A run records every range that `SYS_MMAP` has returned, together with the pid it was returned
to, and which processes have had their base set by `vmm_init_process` since they were forked.
-/

namespace Bangos.Proc

open Bangos.Mm Bangos.Fs Bangos.Net Bangos.Loader Bangos.Syscall

/-! ## What a step does to pids and bases -/

/-- A step that calls `process_create_from_elf`. -/
def KEvent.isCreate : KEvent → Bool
  | .create _ _ => true
  | _ => false

/-- A step that may put a new process into a slot. -/
def KEvent.makesProcess : KEvent → Bool
  | .create _ _ => true
  | .call c => c.makesProcess
  | _ => false

/-- A step in which the running process replaces its program. -/
def replaces (k : Kernel) : KEvent → Bool
  | .call (.execve path argv0) =>
    !k.halted && k.pos k.currentProcIdx == .user && (processExecve k path argv0).1 == 0
  | _ => false

/-- `p'` is the process `p` with the same `mmap_curr_base`; it may have been ended. -/
structure SameBase (p p' : Process) : Prop where
  active : p'.active = true → p.active = true
  pid : p'.pid = p.pid
  base : p'.vm.mmapCurrBase = p.vm.mmapCurrBase

lemma SameIdent.sameBase {p p' : Process} (h : SameIdent p p') : SameBase p p' :=
  ⟨h.active, h.pid, by rw [h.vm]⟩

/-- All that a step can do to slot `j`, as far as its pid and its base go. -/
inductive BaseStep (k : Kernel) (e : KEvent) (j : Fin maxProcesses) (p' : Process) : Prop
  | same (h : SameBase (k.procs j) p') (hr : j = k.currentProcIdx → replaces k e = false)
  | spawned (hnew : e.makesProcess = true) (hpid : p'.pid = k.nextPid)
      (hvm : e.isCreate = true → ∃ segments, p'.vm = programVm k.nextPid segments)
  | replaced (hj : j = k.currentProcIdx) (he : replaces k e = true)
      (hact : p'.active = (k.procs j).active) (hpid : p'.pid = (k.procs j).pid)
      (hvm : ∃ segments, p'.vm = programVm (k.procs j).pid segments)
  | mapped (hj : j = k.currentProcIdx) (addr len prot flags : ℕ)
      (he : e = .call (.mmap addr len prot flags))
      (hact : p'.active = (k.procs j).active) (hpid : p'.pid = (k.procs j).pid)
      (hbase : p'.vm.mmapCurrBase =
        u64 (pageAlign (k.procs j).vm.mmapCurrBase + pageAlign (pageAlign len)))

/-- `SYS_MMAP` leaves the base or advances it by the length. -/
lemma sysMmap_base (m : Mem) (p : ProcVm) (addr len prot flags : ℕ) :
    (sysMmap m p addr len prot flags).2.2.mmapCurrBase = p.mmapCurrBase ∨
      (sysMmap m p addr len prot flags).2.2.mmapCurrBase =
        u64 (pageAlign p.mmapCurrBase + pageAlign (pageAlign len)) := by
  have haddr : ∀ {virt q}, mmapAddr p addr (pageAlign len) flags = .ok (virt, q) →
      q.mmapCurrBase = p.mmapCurrBase ∨
        q.mmapCurrBase = u64 (pageAlign p.mmapCurrBase + pageAlign (pageAlign len)) := by
    intro virt q h
    unfold mmapAddr at h
    split_ifs at h
    · obtain ⟨-, rfl⟩ := Prod.mk.inj (Except.ok.inj h)
      exact Or.inl rfl
    · obtain ⟨-, rfl⟩ := Prod.mk.inj (Except.ok.inj h)
      exact Or.inl rfl
    · obtain ⟨-, rfl⟩ := Prod.mk.inj (Except.ok.inj h)
      exact Or.inr rfl
  unfold sysMmap
  split_ifs
  · exact Or.inl rfl
  dsimp only
  split
  · exact Or.inl rfl
  · rename_i virt q hok
    have hq := haddr hok
    split <;> exact hq

lemma sysMunmap_base (m : Mem) (p : ProcVm) (addr len : ℕ) :
    (sysMunmap m p addr len).2.2.mmapCurrBase = p.mmapCurrBase := by
  unfold sysMunmap
  split_ifs <;> rfl

lemma sysMprotect_base (m : Mem) (p : ProcVm) (addr len prot : ℕ) :
    (sysMprotect m p addr len prot).2.2.mmapCurrBase = p.mmapCurrBase := by
  unfold sysMprotect
  split_ifs <;> rfl

section

variable {k : Kernel} {j : Fin maxProcesses}

/-- A memory call changes the memory map of the caller only. -/
lemma memCall_procs (k : Kernel) (r : Mem × ProcVm) :
    (memCall k r).procs = Function.update k.procs k.currentProcIdx { k.current with vm := r.2 } :=
  rfl

/-- A memory call that keeps the base of its caller keeps all of them. -/
lemma memCall_sameBase {r : Mem × ProcVm} (h : r.2.mmapCurrBase = k.current.vm.mmapCurrBase) :
    SameBase (k.procs j) ((memCall k r).procs j) := by
  rw [memCall_procs]
  by_cases hj : j = k.currentProcIdx
  · subst hj
    rw [Function.update_self]
    exact ⟨id, rfl, h⟩
  · rw [Function.update_of_ne hj]
    exact ⟨id, rfl, rfl⟩

/-- `process_execve` fails and leaves the process alone, or succeeds and starts its memory
map afresh. -/
lemma processExecve_vm (k : Kernel) (path argv0 : Option (List UInt8)) :
    (processExecve k path argv0).1 ≠ 0 ∧ (processExecve k path argv0).2.procs = k.procs ∨
      (processExecve k path argv0).1 = 0 ∧ ∃ segments,
        ((processExecve k path argv0).2.procs k.currentProcIdx).vm =
          programVm k.current.pid segments := by
  unfold processExecve
  split
  · exact Or.inl ⟨by simp, rfl⟩
  split
  · exact Or.inl ⟨by simp, rfl⟩
  split
  · exact Or.inl ⟨by simp, rfl⟩
  · rename_i info _ _
    refine Or.inr ⟨rfl, info.segments, ?_⟩
    simp only [execveCommit, processJumpToUser, Kernel.setCurrent, Kernel.setProc,
      Function.update_self]
    rfl

/-- A new process has the next pid, and one from an image has the base of its program. -/
lemma spawned_baseStep {k' : Kernel} {e : KEvent} {Q : Process → Prop} (h : Spawned k k' Q)
    (hnew : e.makesProcess = true) (hr : replaces k e = false)
    (hQ : ∀ p, Q p → e.isCreate = true → ∃ segments, p.vm = programVm k.nextPid segments) :
    BaseStep k e j (k'.procs j) := by
  rcases h with rfl | ⟨c, p, hprocs, hpid, -, hp⟩
  · exact .same ⟨id, rfl, rfl⟩ fun _ => hr
  · rw [hprocs]
    by_cases hj : j = c
    · subst hj
      rw [Function.update_self]
      exact .spawned hnew hpid (hQ p hp)
    · rw [Function.update_of_ne hj]
      exact .same ⟨id, rfl, rfl⟩ fun _ => hr

/-- What a system call can do to the base of a slot. -/
lemma doSyscall_baseStep (hrun : k.halted = false) (hpos : k.pos k.currentProcIdx = .user)
    (c : Call) (j : Fin maxProcesses) : BaseStep k (.call c) j ((doSyscall k c).procs j) := by
  cases c with
  | fork frame =>
    exact spawned_baseStep (processFork_spawned k frame) rfl rfl fun _ _ h => by cases h
  | clone flags childStack ptid ctid newtls frame =>
    exact spawned_baseStep (processClone_spawned k flags childStack ptid ctid newtls frame) rfl rfl
      fun _ _ h => by cases h
  | execve path argv0 =>
    by_cases hj : j = k.currentProcIdx
    · have hc := processExecve_current k path argv0
      rcases processExecve_vm k path argv0 with ⟨h0, hsame⟩ | ⟨h0, segments, hvm⟩
      · rw [doSyscall, hsame]
        exact .same ⟨id, rfl, rfl⟩ fun _ => by simp [replaces, h0]
      · subst hj
        exact .replaced rfl (by simp [replaces, h0, hrun, hpos]) hc.active hc.pid ⟨segments, hvm⟩
    · rw [doSyscall, processExecve_procs_of_ne path argv0 hj]
      exact .same ⟨id, rfl, rfl⟩ fun h => absurd h hj
  | mmap addr len prot flags =>
    rcases sysMmap_base k.mem k.current.vm addr len prot flags with hb | hb
    · exact .same (memCall_sameBase hb) fun _ => rfl
    · by_cases hj : j = k.currentProcIdx
      · subst hj
        refine .mapped rfl addr len prot flags rfl ?_ ?_ ?_
        all_goals rw [doSyscall, memCall_procs, Function.update_self]
        · rfl
        · rfl
        · exact hb
      · rw [doSyscall, memCall_procs, Function.update_of_ne hj]
        exact .same ⟨id, rfl, rfl⟩ fun h => absurd h hj
  | munmap addr len => exact .same (memCall_sameBase (sysMunmap_base ..)) fun _ => rfl
  | mprotect addr len prot => exact .same (memCall_sameBase (sysMprotect_base ..)) fun _ => rfl
  | futexWait _ _ _ | futexWake _ _ | nanosleep _ _ | exit _ | kill _ _ | wait4 _ _
  | setTidAddress _ | socket _ _ _ | close _ | shutdown _ | brk _ =>
    exact .same (doSyscall_ident k _ rfl rfl j).sameBase fun _ => rfl

/-- What a step of the kernel does to a slot. -/
lemma kstep_baseStep (k : Kernel) (e : KEvent) (j : Fin maxProcesses) :
    BaseStep k e j ((kstep k e).procs j) := by
  unfold kstep
  by_cases hhalt : k.halted = true
  · rw [if_pos hhalt]
    refine .same ⟨id, rfl, rfl⟩ fun _ => ?_
    unfold replaces
    split <;> simp [hhalt]
  rw [if_neg hhalt]
  cases e with
  | tick frame => exact .same (schedulerTick_kept k frame j).ident.sameBase fun _ => rfl
  | resume => exact .same (resume_kept k j).ident.sameBase fun _ => rfl
  | create info name =>
    exact spawned_baseStep (processCreateFromElf_spawned k info name) rfl rfl
      fun p hp _ => ⟨_, hp⟩
  | pageFault faultAddr errorCode =>
    dsimp only
    split_ifs
    · exact .same (handleFault_ident k faultAddr errorCode j).sameBase fun _ => rfl
    · exact .same ⟨id, rfl, rfl⟩ fun _ => rfl
  | call c =>
    dsimp only
    split_ifs with hpos
    · exact doSyscall_baseStep (by simpa using hhalt) hpos c j
    · refine .same ⟨id, rfl, rfl⟩ fun _ => ?_
      unfold replaces
      split <;> simp [hpos]

/-! ## Pids -/

/-- Pids are given out in order and never twice; active processes have one. -/
structure PidInv (k : Kernel) : Prop where
  nextPid_pos : 0 < k.nextPid
  lt_nextPid : ∀ j, (k.procs j).pid < k.nextPid
  eq_zero : ∀ i j, i ≠ j → (k.procs i).pid = (k.procs j).pid → (k.procs i).pid = 0
  active_pos : ∀ j, (k.procs j).active = true → 0 < (k.procs j).pid

lemma PidInv.of_same {k' : Kernel} (h : PidInv k) (hn : k'.nextPid = k.nextPid)
    (hp : ∀ j, ((k'.procs j).active = true → (k.procs j).active = true) ∧
      (k'.procs j).pid = (k.procs j).pid) : PidInv k' where
  nextPid_pos := hn ▸ h.nextPid_pos
  lt_nextPid j := by
    rw [(hp j).2, hn]
    exact h.lt_nextPid j
  eq_zero i j hij he := by
    rw [(hp i).2] at he ⊢
    rw [(hp j).2] at he
    exact h.eq_zero i j hij he
  active_pos j hact := by
    rw [(hp j).2]
    exact h.active_pos j ((hp j).1 hact)

/-- A new process gets a pid that nobody has. -/
lemma PidInv.of_spawned {k' : Kernel} {Q : Process → Prop} (h : PidInv k)
    (hs : Spawned k k' Q) : PidInv k' := by
  rcases hs with rfl | ⟨c, p, hprocs, hpid, hn, -⟩
  · exact h
  have hc : k'.procs c = p := by rw [hprocs, Function.update_self]
  have hne : ∀ j, j ≠ c → k'.procs j = k.procs j := fun j hj => by
    rw [hprocs, Function.update_of_ne hj]
  have hlt := h.lt_nextPid
  have hpos := h.nextPid_pos
  refine ⟨by omega, fun j => ?_, fun i j hij he => ?_, fun j hact => ?_⟩
  · by_cases hj : j = c
    · subst hj
      rw [hc, hpid]
      omega
    · rw [hne j hj]
      have := hlt j
      omega
  · -- the new pid is above all others
    by_cases hi : i = c
    · subst hi
      rw [hc, hpid, hne j (Ne.symm hij)] at he
      exact absurd he (hlt j).ne'
    · by_cases hj : j = c
      · subst hj
        rw [hc, hpid, hne i hi] at he
        exact absurd he (hlt i).ne
      · rw [hne i hi] at he ⊢
        rw [hne j hj] at he
        exact h.eq_zero i j hij he
  · by_cases hj : j = c
    · subst hj
      rw [hc, hpid]
      exact hpos
    · rw [hne j hj] at hact ⊢
      exact h.active_pos j hact

/-- Every step keeps the pids apart. -/
lemma kstep_pidInv (h : PidInv k) (e : KEvent) : PidInv (kstep k e) := by
  have hsame : ∀ {k' : Kernel}, k'.nextPid = k.nextPid →
      (∀ j, SameIdent (k.procs j) (k'.procs j)) → PidInv k' := fun hn hp =>
    h.of_same hn fun j => ⟨(hp j).active, (hp j).pid⟩
  unfold kstep
  by_cases hhalt : k.halted = true
  · rwa [if_pos hhalt]
  rw [if_neg hhalt]
  cases e with
  | tick frame =>
    exact hsame (schedulerTick_globals k frame).nextPid fun j => (schedulerTick_kept k frame j).ident
  | resume => exact hsame (resume_globals k).nextPid fun j => (resume_kept k j).ident
  | create info name => exact h.of_spawned (processCreateFromElf_spawned k info name)
  | pageFault faultAddr errorCode =>
    dsimp only
    split_ifs
    · exact hsame (handleFault_nextPid k faultAddr errorCode) (handleFault_ident k faultAddr errorCode)
    · exact h
  | call c =>
    dsimp only
    split_ifs with hpos
    · by_cases hp : c.makesProcess = true
      · cases c with
        | fork frame => exact h.of_spawned (processFork_spawned k frame)
        | clone flags childStack ptid ctid newtls frame =>
          exact h.of_spawned (processClone_spawned k flags childStack ptid ctid newtls frame)
        | _ => cases hp
      · rw [Bool.not_eq_true] at hp
        refine h.of_same (doSyscall_nextPid k c hp) fun j => ?_
        cases doSyscall_baseStep (by simpa using hhalt) hpos c j with
        | same hs _ => exact ⟨hs.active, hs.pid⟩
        | spawned hnew _ _ => exact absurd (hp.symm.trans hnew) (by simp)
        | replaced _ _ hact hpid _ => exact ⟨fun ha => hact ▸ ha, hpid⟩
        | mapped _ _ _ _ _ _ hact hpid _ => exact ⟨fun ha => hact ▸ ha, hpid⟩
    · exact h

end

/-! ## The run, with its record -/

/-- Where the window of a pid starts. -/
def window (pid : ℤ) : ℕ := mmapBaseStart + pid.toNat * 0x100000000

/-- A range returned by `SYS_MMAP`, and the pid of the process it was returned to. -/
structure Grant where
  pid : ℤ
  start : ℕ
  endAddr : ℕ
deriving DecidableEq

/-- The addresses granted. -/
def Grant.span (r : Grant) : Span ℕ := ⟨r.start, r.endAddr⟩

/-- The state of a run: the kernel, the ranges granted so far, and the processes whose base
has been set by `vmm_init_process` since they were forked. -/
structure Windows where
  k : Kernel
  granted : List Grant
  rebased : Fin maxProcesses → Bool

/-- The range that a step grants. -/
def grantOf (k : Kernel) : KEvent → Option Grant
  | .call (.mmap addr len prot flags) =>
    if !k.halted ∧ k.pos k.currentProcIdx = .user then
      match (sysMmap k.mem k.current.vm addr len prot flags).1 with
      | .ok virt => some ⟨k.current.pid, virt, virt + pageAlign len⟩
      | .error _ => none
    else none
  | _ => none

/-- A step of the kernel, recorded.  A slot whose pid changes holds a new process. -/
def windowStep (s : Windows) (e : KEvent) : Windows where
  k := kstep s.k e
  granted := s.granted ++ (grantOf s.k e).toList
  rebased := fun j =>
    if ((kstep s.k e).procs j).pid ≠ (s.k.procs j).pid then e.isCreate
    else s.rebased j || (replaces s.k e && j == s.k.currentProcIdx)

/-- The record starts empty; the first process has been created from an image. -/
def windowStart (k : Kernel) : Windows := ⟨k, [], fun j => j == k.currentProcIdx⟩

/-- The condition on an `SYS_MMAP` call that chooses its address: the base of the caller has
been set by `vmm_init_process`, its pid is below 4096, and the mapping ends inside its
window. -/
def WindowSafe (s : Windows) : KEvent → Prop
  | .call (.mmap addr len _ flags) =>
    addr = 0 ∧ flags.testBit 4 = false ∧ s.rebased s.k.currentProcIdx = true ∧
      s.k.current.pid < 4096 ∧ 0 < s.k.current.pid ∧
      pageAlign s.k.current.vm.mmapCurrBase + pageAlign len ≤ window (s.k.current.pid + 1)
  | _ => True

instance (s : Windows) : ∀ e, Decidable (WindowSafe s e)
  | .call (.mmap _ _ _ _) => inferInstanceAs (Decidable (_ ∧ _))
  | .tick _ | .resume | .create _ _ | .pageFault _ _ => inferInstanceAs (Decidable True)
  | .call (.futexWait _ _ _) | .call (.futexWake _ _) | .call (.nanosleep _ _)
  | .call (.fork _) | .call (.clone _ _ _ _ _ _) | .call (.execve _ _) | .call (.exit _)
  | .call (.kill _ _) | .call (.wait4 _ _) | .call (.setTidAddress _) | .call (.socket _ _ _)
  | .call (.close _) | .call (.shutdown _) | .call (.munmap _ _) | .call (.mprotect _ _ _)
  | .call (.brk _) => inferInstanceAs (Decidable True)

/-- The invariant: the bases set by `vmm_init_process` and all grants lie in their own
windows. -/
structure WindowInv (s : Windows) : Prop where
  pids : PidInv s.k
  base : ∀ j, s.rebased j = true → 0 < (s.k.procs j).pid → (s.k.procs j).pid < 4096 →
    window (s.k.procs j).pid ≤ (s.k.procs j).vm.mmapCurrBase ∧
      (s.k.procs j).vm.mmapCurrBase ≤ window ((s.k.procs j).pid + 1)
  granted : ∀ r ∈ s.granted, 0 < r.pid ∧ r.pid < 4096 ∧ window r.pid ≤ r.start ∧
    r.endAddr ≤ window (r.pid + 1)

lemma window_succ {pid : ℤ} (h : 0 < pid) : window (pid + 1) = window pid + 0x100000000 := by
  unfold window
  omega

/-- Below pid 4096 the windows end in the lower half. -/
lemma window_le {pid : ℤ} (h : 0 < pid) (h' : pid < 4096) : window (pid + 1) ≤ 0x800000000000 := by
  unfold window mmapBaseStart
  omega

/-- A program starts at the bottom of the window of its pid. -/
lemma programVm_base {pid : ℤ} (h : 0 < pid) (h' : pid < 4096) (segments : List ElfSegment) :
    (programVm pid segments).mmapCurrBase = window pid := by
  unfold programVm vmmInitProcess window u64 mmapBaseStart
  dsimp only
  omega

lemma pageAlign_of_le {x : ℕ} (h : x ≤ 0x800000000000) : x ≤ pageAlign x ∧
    pageAlign x < 0x1000000000000 := by
  unfold pageAlign u64 pageSize
  omega

lemma pageAlign_pageAlign (x : ℕ) : pageAlign (pageAlign x) = pageAlign x := by
  unfold pageAlign u64 pageSize
  omega

/-- A range is granted from the base of the caller on. -/
lemma grantOf_mem {k : Kernel} {len prot flags : ℕ} {r : Grant} (hfix : flags.testBit 4 = false)
    (h : grantOf k (.call (.mmap 0 len prot flags)) = some r) :
    r = ⟨k.current.pid, pageAlign k.current.vm.mmapCurrBase,
      pageAlign k.current.vm.mmapCurrBase + pageAlign len⟩ := by
  simp only [grantOf] at h
  split_ifs at h
  split at h
  · rename_i virt hok
    obtain rfl := Option.some.inj h
    have hvirt : virt = pageAlign k.current.vm.mmapCurrBase := by
      unfold sysMmap at hok
      split_ifs at hok
      dsimp only at hok
      split at hok
      · cases hok
      · rename_i v q haddr
        have hv := (mmapAddr_ok haddr).1
        rw [mmapTarget, if_neg (by simp [hfix])] at hv
        split at hok
        · cases hok
        · rw [← hv]
          exact (Except.ok.inj hok).symm
    rw [hvirt]
  · cases h

lemma grantOf_eq_none {k : Kernel} {e : KEvent}
    (h : ∀ addr len prot flags, e ≠ .call (.mmap addr len prot flags)) : grantOf k e = none := by
  unfold grantOf
  split
  · exact absurd rfl (h _ _ _ _)
  · rfl

/-- The base of a process in its window, whatever the step was. -/
lemma windowStep_base {s : Windows} {e : KEvent} (h : WindowInv s) (hsafe : WindowSafe s e)
    (j : Fin maxProcesses) (hre : (windowStep s e).rebased j = true)
    (hpos : 0 < ((kstep s.k e).procs j).pid) (hlt : ((kstep s.k e).procs j).pid < 4096) :
    window ((kstep s.k e).procs j).pid ≤ ((kstep s.k e).procs j).vm.mmapCurrBase ∧
      ((kstep s.k e).procs j).vm.mmapCurrBase ≤ window (((kstep s.k e).procs j).pid + 1) := by
  have hinit : ∀ segments, window ((kstep s.k e).procs j).pid ≤
      (programVm ((kstep s.k e).procs j).pid segments).mmapCurrBase ∧
      (programVm ((kstep s.k e).procs j).pid segments).mmapCurrBase ≤
        window (((kstep s.k e).procs j).pid + 1) := by
    intro segments
    rw [programVm_base hpos hlt, window_succ hpos]
    omega
  unfold windowStep at hre
  dsimp only at hre
  cases kstep_baseStep s.k e j with
  | same hs hr =>
    rw [if_neg (by simp [hs.pid])] at hre
    have hre' : s.rebased j = true := by
      by_cases hj : j = s.k.currentProcIdx
      · simpa [hr hj] using hre
      · simpa [hj] using hre
    rw [hs.pid] at hpos hlt ⊢
    rw [hs.base]
    exact h.base j hre' hpos hlt
  | spawned hnew hpid hvm =>
    have hne := (h.pids.lt_nextPid j).ne
    rw [if_pos (by rw [hpid]; exact hne.symm)] at hre
    obtain ⟨segments, hvm⟩ := hvm hre
    rw [hvm, ← hpid]
    exact hinit segments
  | replaced hj he hact hpid hvm =>
    obtain ⟨segments, hvm⟩ := hvm
    rw [hvm, ← hpid]
    exact hinit segments
  | mapped hj addr len prot flags he hact hpid hbase =>
    subst hj he
    obtain ⟨-, -, hreb, hlt', hpos', hend⟩ := hsafe
    have hold := h.base s.k.currentProcIdx hreb hpos' hlt'
    have hwin := window_le hpos' hlt'
    change (s.k.procs s.k.currentProcIdx).pid < 4096 at hlt'
    change 0 < (s.k.procs s.k.currentProcIdx).pid at hpos'
    have hal := pageAlign_of_le (hold.2.trans hwin)
    rw [hpid, hbase, pageAlign_pageAlign]
    change pageAlign (s.k.procs s.k.currentProcIdx).vm.mmapCurrBase + pageAlign len ≤
      window ((s.k.procs s.k.currentProcIdx).pid + 1) at hend
    unfold Kernel.current at hwin
    have hu : u64 (pageAlign (s.k.procs s.k.currentProcIdx).vm.mmapCurrBase + pageAlign len) =
        pageAlign (s.k.procs s.k.currentProcIdx).vm.mmapCurrBase + pageAlign len :=
      Nat.mod_eq_of_lt (by omega)
    rw [hu]
    omega

/-- Every step that meets its condition keeps the invariant. -/
lemma windowStep_inv (s : Windows) (e : KEvent) (h : WindowInv s) (hsafe : WindowSafe s e) :
    WindowInv (windowStep s e) where
  pids := kstep_pidInv h.pids e
  base := windowStep_base h hsafe
  granted r hr := by
    simp only [windowStep, List.mem_append, Option.mem_toList] at hr
    rcases hr with hr | hr
    · exact h.granted r hr
    · by_cases he : ∃ addr len prot flags, e = .call (.mmap addr len prot flags)
      · obtain ⟨addr, len, prot, flags, rfl⟩ := he
        obtain ⟨rfl, hfix, hreb, hlt, hpos, hend⟩ := hsafe
        have hwin := window_le hpos hlt
        have hbase := h.base _ hreb hpos hlt
        have hal := pageAlign_of_le (hbase.2.trans hwin)
        obtain rfl := grantOf_mem hfix hr
        exact ⟨hpos, hlt, hbase.1.trans hal.1, hend⟩
      · rw [grantOf_eq_none fun addr len prot flags h' => he ⟨addr, len, prot, flags, h'⟩] at hr
        cases hr

/-! ## From the start -/

lemma boot_pidInv (mem : Mem) (files : Files) (ramdisk : RamdiskAt) (info : ElfInfo)
    (name : List UInt8) : PidInv (boot mem files ramdisk info name) := by
  have h0 : PidInv (processInit mem files ramdisk) :=
    ⟨Int.one_pos, fun _ => Int.one_pos, fun _ _ _ _ => rfl, fun _ hact => by cases hact⟩
  have h1 := h0.of_spawned (processCreateFromElf_spawned _ info name)
  exact h1.of_same rfl fun j =>
    ⟨(processJumpToUser_kept _ 0 j).active, (processJumpToUser_kept _ 0 j).pid⟩

/-- **Pids are never given out twice**: in every run from the start of the first program, whatever its
calls, ticks and page faults are, active processes have different pids, all below the next one. -/
theorem pidInv_run (mem : Mem) (files : Files) (ramdisk : RamdiskAt) (info : ElfInfo)
    (name : List UInt8) (es : List KEvent) :
    PidInv (Runs.runFrom kstep (boot mem files ramdisk info name) es) :=
  Runs.invariant_runFrom_of_step (I := PidInv) (fun _ e h => kstep_pidInv h e)
    (boot_pidInv mem files ramdisk info name) es

lemma Spawned.nextPid {k' : Kernel} {Q : Process → Prop} (h : Spawned k k' Q) :
    k.nextPid ≤ k'.nextPid ∧ k'.nextPid ≤ k.nextPid + 1 := by
  rcases h with rfl | ⟨-, -, -, -, hn, -⟩ <;> omega

/-- A step takes at most one pid, and only when it makes a process. -/
lemma kstep_nextPid (k : Kernel) (e : KEvent) : k.nextPid ≤ (kstep k e).nextPid ∧
    (kstep k e).nextPid ≤ k.nextPid + if e.makesProcess then 1 else 0 := by
  have hsame : ∀ k' : Kernel, k'.nextPid = k.nextPid →
      k.nextPid ≤ k'.nextPid ∧ k'.nextPid ≤ k.nextPid + if e.makesProcess then 1 else 0 := by
    intro k' h
    split_ifs <;> omega
  unfold kstep
  by_cases hhalt : k.halted = true
  · rw [if_pos hhalt]
    exact hsame k rfl
  rw [if_neg hhalt]
  cases e with
  | tick frame => exact hsame _ (schedulerTick_globals k frame).nextPid
  | resume => exact hsame _ (resume_globals k).nextPid
  | create info name => exact (processCreateFromElf_spawned k info name).nextPid
  | pageFault faultAddr errorCode =>
    dsimp only
    by_cases hpos : k.pos k.currentProcIdx = .user
    · rw [if_pos hpos]
      exact hsame _ (handleFault_nextPid k faultAddr errorCode)
    · rw [if_neg hpos]
      exact hsame k rfl
  | call c =>
    dsimp only
    by_cases hpos : k.pos k.currentProcIdx = .user
    swap
    · rw [if_neg hpos]
      exact hsame k rfl
    rw [if_pos hpos]
    by_cases hp : c.makesProcess = true
    · cases c with
      | fork frame => exact (processFork_spawned k frame).nextPid
      | clone flags childStack ptid ctid newtls frame =>
        exact (processClone_spawned k flags childStack ptid ctid newtls frame).nextPid
      | _ => cases hp
    · exact hsame _ (doSyscall_nextPid k c (Bool.not_eq_true _ ▸ hp))

/-- A run takes no more pids than it has steps that make a process. -/
lemma nextPid_runFrom (k : Kernel) (es : List KEvent) :
    (Runs.runFrom kstep k es).nextPid ≤ k.nextPid + es.countP KEvent.makesProcess := by
  induction es generalizing k with
  | nil => simp [Runs.runFrom]
  | cons e es ih =>
    have hstep := (kstep_nextPid k e).2
    have hrest := ih (kstep k e)
    change (Runs.runFrom kstep (kstep k e) es).nextPid ≤ _
    rw [List.countP_cons]
    split_ifs at hstep ⊢ <;> push_cast <;> omega

/-- **Pids fit an `int`** in every run with fewer than `2 ^ 31 - 2` steps that make a process; in a
longer one `next_pid` of the source overflows, and that of the model goes on. -/
theorem pids_int_of_run (mem : Mem) (files : Files) (ramdisk : RamdiskAt) (info : ElfInfo)
    (name : List UInt8) (es : List KEvent) (hes : es.countP KEvent.makesProcess < 2 ^ 31 - 2)
    (j : Fin maxProcesses) :
    ((Runs.runFrom kstep (boot mem files ramdisk info name) es).procs j).pid < 2 ^ 31 - 1 ∧
      (Runs.runFrom kstep (boot mem files ramdisk info name) es).nextPid < 2 ^ 31 := by
  have hinv := Runs.invariant_runFrom_of_step (I := PidInv) (fun _ e h => kstep_pidInv h e)
    (boot_pidInv mem files ramdisk info name) es
  have hlt := hinv.lt_nextPid j
  have hle := nextPid_runFrom (boot mem files ramdisk info name) es
  have hboot : (boot mem files ramdisk info name).nextPid = 2 := rfl
  omega

lemma boot_current (mem : Mem) (files : Files) (ramdisk : RamdiskAt) (info : ElfInfo)
    (name : List UInt8) :
    (boot mem files ramdisk info name).current.pid = 1 ∧
      (boot mem files ramdisk info name).current.vm = programVm 1 info.segments :=
  ⟨rfl, rfl⟩

/-- At the start the first program has its whole window ahead of it. -/
lemma windowStart_inv (mem : Mem) (files : Files) (ramdisk : RamdiskAt) (info : ElfInfo)
    (name : List UInt8) : WindowInv (windowStart (boot mem files ramdisk info name)) where
  pids := boot_pidInv mem files ramdisk info name
  base j hj hpos hlt := by
    obtain rfl : j = (boot mem files ramdisk info name).currentProcIdx := by
      simpa [windowStart] using hj
    obtain ⟨hpid, hvm⟩ := boot_current mem files ramdisk info name
    change window (boot mem files ramdisk info name).current.pid ≤
        (boot mem files ramdisk info name).current.vm.mmapCurrBase ∧
      (boot mem files ramdisk info name).current.vm.mmapCurrBase ≤
        window ((boot mem files ramdisk info name).current.pid + 1)
    rw [hpid, hvm, programVm_base (by decide) (by decide)]
    decide
  granted r hr := by cases hr

/-- The windows of different pids are apart. -/
lemma windows_apart {p q : ℤ} (hp : 0 < p) (hq : 0 < q) (hne : p ≠ q) :
    window (p + 1) ≤ window q ∨ window (q + 1) ≤ window p := by
  unfold window
  omega

/-- Every range granted so far lies below `2 ^ 47`, and ranges granted to different processes that are
still in the table lie apart. -/
structure GrantsApart (s : Windows) : Prop where
  below : ∀ r ∈ s.granted, r.endAddr ≤ 2 ^ 47
  apart : ∀ r ∈ s.granted, ∀ r' ∈ s.granted, ∀ i j, i ≠ j → r.pid = (s.k.procs i).pid →
    r'.pid = (s.k.procs j).pid → r.span.Apart r'.span

/-- Ranges lie in the windows of their owners, so they are apart. -/
lemma WindowInv.grantsApart {s : Windows} (h : WindowInv s) : GrantsApart s where
  below r hr := by
    obtain ⟨hpos, hlt, -, hhi⟩ := h.granted r hr
    exact hhi.trans (window_le hpos hlt)
  apart r hr r' hr' i j hij hi hj := by
    obtain ⟨hpos, -, hlo, hhi⟩ := h.granted r hr
    obtain ⟨hpos', -, hlo', hhi'⟩ := h.granted r' hr'
    have hne : r.pid ≠ r'.pid := by
      intro he
      rw [hi, hj] at he
      have h0 := h.pids.eq_zero i j hij he
      rw [← hi] at h0
      omega
    rcases windows_apart hpos hpos' hne with hw | hw
    · exact Or.inl (hhi.trans (hw.trans hlo'))
    · exact Or.inr (hhi'.trans (hw.trans hlo))

/-- **The mmap windows of different processes never collide** in a run from the start of the
first program in which `SYS_MMAP` is called without an address, as long as each caller has
had its base set by `vmm_init_process` since it was forked, has a pid below 4096, and does not
map past the end of its window. -/
theorem grants_apart (mem : Mem) (files : Files) (ramdisk : RamdiskAt) (info : ElfInfo)
    (name : List UInt8) (es : List KEvent)
    (h : Runs.StepsMeet windowStep WindowSafe (windowStart (boot mem files ramdisk info name)) es) :
    GrantsApart (Runs.runFrom windowStep (windowStart (boot mem files ramdisk info name)) es) :=
  (Runs.invariant_runFrom windowStep_inv (windowStart_inv mem files ramdisk info name) h).grantsApart

/-- The first process maps a page, and so does a second one created from an image. -/
def twoProgramsEvents : List KEvent :=
  [.call (.mmap 0 0x1000 3 0x22), .create ⟨0x400000, 0x400000, 0x401000, []⟩ [],
    .call (.mmap 0 0x1000 3 0x22)]

theorem grants_apart_twoPrograms :
    (Runs.runFrom windowStep (windowStart freshKernel) twoProgramsEvents).granted =
        [⟨1, 0x700100000000, 0x700100001000⟩, ⟨2, 0x700200000000, 0x700200001000⟩] ∧
      GrantsApart (Runs.runFrom windowStep (windowStart freshKernel) twoProgramsEvents) := by
  refine ⟨by decide +kernel, grants_apart _ _ _ _ _ twoProgramsEvents ?_⟩
  change Runs.StepsMeet windowStep WindowSafe (windowStart freshKernel) _
  decide +kernel

/-- The first process forks; both map a page. -/
def forkMapEvents : List KEvent :=
  [.call (.fork someFrame), .call (.mmap 0 0x1000 3 0x22), .tick 0,
    .call (.mmap 0 0x1000 3 0x22)]

/-- Parent and child, both active, get the same range: the child's base is a copy of its
parent's. -/
theorem grants_collide_after_fork :
    (Runs.runFrom windowStep (windowStart freshKernel) forkMapEvents).granted =
        [⟨1, 0x700100000000, 0x700100001000⟩, ⟨2, 0x700100000000, 0x700100001000⟩] ∧
      (let k := (Runs.runFrom windowStep (windowStart freshKernel) forkMapEvents).k
      (k.procs 0).pid = 1 ∧ (k.procs 0).active = true ∧ (k.procs 0).isThread = false ∧
        (k.procs 1).pid = 2 ∧ (k.procs 1).active = true ∧ (k.procs 1).isThread = false) ∧
      ¬ Span.Apart (Grant.span ⟨1, 0x700100000000, 0x700100001000⟩)
        (Grant.span ⟨2, 0x700100000000, 0x700100001000⟩) := by
  decide +kernel

end Bangos.Proc
