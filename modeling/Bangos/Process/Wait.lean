import Bangos.Process.Slots

/-!
# Waiting for children

A process that ends stays in the table as a zombie until its parent waits for it.  This holds for
`process_exit`, but not for `process_kill`, which frees the slot at once; and `process_wait4` with
a positive pid takes any zombie of that pid, whoever its parent is.  Apart from these two, waiting
is exact: it returns children of the caller only, and each child that has ended exactly once, with
the code it ended with.
-/

namespace Bangos.Proc

open Bangos.Mm Bangos.Fs Bangos.Net Bangos.Loader Bangos.Syscall Runs

/-- A process that has ended. -/
structure Ended where
  pid : ℤ
  ppid : ℤ
  code : ℤ
deriving DecidableEq

/-- What a call of `process_wait4` returned: to whom, and whose child it was. -/
structure Waited where
  caller : ℤ
  pid : ℤ
  ppid : ℤ
  status : ℤ
deriving DecidableEq

/-- The processes (not threads) that a step ends, by `process_exit` or by `process_kill`. -/
def newlyEnded (k k' : Kernel) : List Ended :=
  (List.finRange maxProcesses).filterMap fun j =>
    if !(k.procs j).exited && (k'.procs j).exited && !(k.procs j).isThread then
      some ⟨(k.procs j).pid, (k.procs j).ppid, (k'.procs j).exitCode⟩
    else none

/-- The answer of `process_wait4` when it finds the zombie in slot `i`. -/
def reapAnswer (k : Kernel) (i : Fin maxProcesses) : Waited :=
  ⟨k.current.pid, (k.procs i).pid, (k.procs i).ppid, wait4Status (k.procs i).exitCode⟩

/-- What a step returns to the process that waits. -/
def newlyReturned (k : Kernel) (e : KEvent) : List Waited :=
  match reapedSlot k e with
  | some i => [reapAnswer k i]
  | none => []

/-- The kernel, with a record of the processes that ended and of the answers of `process_wait4`. -/
structure WaitRun where
  kernel : Kernel
  ended : List Ended
  returned : List Waited

/-- A step of the kernel, recorded. -/
def waitStep (s : WaitRun) (e : KEvent) : WaitRun where
  kernel := kstep s.kernel e
  ended := s.ended ++ newlyEnded s.kernel (kstep s.kernel e)
  returned := s.returned ++ newlyReturned s.kernel e

/-- Nothing has been recorded yet. -/
def waitStart (k : Kernel) : WaitRun := ⟨k, [], []⟩

/-- Some process with this pid is active and has not exited. -/
def Alive (k : Kernel) (pid : ℤ) : Prop :=
  ∃ j, (k.procs j).pid = pid ∧ (k.procs j).active = true ∧ (k.procs j).exited = false

instance (k : Kernel) (pid : ℤ) : Decidable (Alive k pid) :=
  inferInstanceAs (Decidable (∃ _, _ ∧ _ ∧ _))

/-- Waiting has been exact so far: every answer was about a child of the caller; and when the
running process would now be told that it has no children, each child of it that has ended has
been returned exactly once. -/
structure WaitExact (s : WaitRun) : Prop where
  own : ∀ r ∈ s.returned, r.ppid = r.caller
  once : s.kernel.current.active = true → s.kernel.pos s.kernel.currentProcIdx ≠ .exited →
    (processWait4 s.kernel (-1) 0).1 = some (-10) →
    ∀ r ∈ s.ended, r.ppid = s.kernel.current.pid →
      s.returned.filter (fun w => w.pid == r.pid) = [⟨r.ppid, r.pid, r.ppid, wait4Status r.code⟩]

/-- The steps after which waiting stays exact: only threads and processes without a living parent
are killed, and a process waits for a certain pid only if no process but its child has it. -/
def WaitSafe (s : WaitRun) (e : KEvent) : Prop :=
  e.isCreate = false ∧
    (match e with
      | .call (.kill pid _) => ∀ i, killSlot s.kernel.procs pid = some i →
        (s.kernel.procs i).isThread = true ∨ ¬ Alive s.kernel (s.kernel.procs i).ppid
      | _ => True) ∧
    ∀ pid, wait4Pass s.kernel e = some pid → 0 < pid → ∀ i, (s.kernel.procs i).active = true →
      (s.kernel.procs i).pid = pid → (s.kernel.procs i).ppid = s.kernel.current.pid

/-- The process of this record is a zombie in the table. -/
def Pending (k : Kernel) (r : Ended) : Prop :=
  ∃ j, (k.procs j).active = true ∧ (k.procs j).exited = true ∧ (k.procs j).isThread = false ∧
    (k.procs j).pid = r.pid ∧ (k.procs j).ppid = r.ppid ∧ (k.procs j).exitCode = r.code

/-- The invariant. -/
structure WaitInv (s : WaitRun) : Prop where
  pids : PidInv s.kernel
  ppid_lt : ∀ j, (s.kernel.procs j).ppid < s.kernel.nextPid
  /-- A process in the middle of its life is active while its parent lives. -/
  live : ∀ j, (s.kernel.procs j).isThread = false → s.kernel.pos j ≠ .exited →
    Alive s.kernel (s.kernel.procs j).ppid →
    (s.kernel.procs j).active = true ∧ (s.kernel.procs j).exited = false
  zombie : ∀ j, (s.kernel.procs j).active = true → (s.kernel.procs j).state = .zombie →
    (s.kernel.procs j).exited = true
  exited : ∀ j, (s.kernel.procs j).active = true → (s.kernel.procs j).exited = true →
    s.kernel.pos j = .exited
  ended : ∀ r ∈ s.ended, r.ppid < s.kernel.nextPid ∧ (Alive s.kernel r.ppid →
    Pending s.kernel r ∧ (∀ w ∈ s.returned, w.pid ≠ r.pid) ∨
    s.returned.filter (fun w => w.pid == r.pid) = [⟨r.ppid, r.pid, r.ppid, wait4Status r.code⟩])
  returned : ∀ w ∈ s.returned, w.ppid = w.caller ∧ w.pid < s.kernel.nextPid ∧
    ∀ j, (s.kernel.procs j).active = true → (s.kernel.procs j).pid ≠ w.pid

section

variable {k k' : Kernel} {e : KEvent} {s : WaitRun}

/-! ## Who lives -/

/-- Nobody comes back to life. -/
lemma LifeStep.alive (h : LifeStep k e k') {pid : ℤ} (hpid : pid < k.nextPid)
    (ha : Alive k' pid) : Alive k pid := by
  obtain ⟨j, hj, hact, hex⟩ := ha
  cases h with
  | fates _ _ _ hfate =>
    cases hfate j with
    | steady hs =>
      exact ⟨j, hs.pid.symm.trans hj, hs.active.symm.trans hact, hs.exited.symm.trans hex⟩
    | ends _ _ hend => exact absurd (hend.symm.trans hact) (by simp)
    | exits _ _ _ hexited _ => exact absurd (hexited.symm.trans hex) (by simp)
  | spawns _ i hs =>
    by_cases hji : j = i
    · subst hji
      have := hs.newborn.pid
      omega
    · rw [hs.others j hji] at hj hact hex
      exact ⟨j, hj, hact, hex⟩
  | reaps i m _ he _ =>
    subst he
    have hji := ne_of_reap_active hact
    rw [reap_procs_of_ne m hji] at hj hact hex
    exact ⟨j, hj, hact, hex⟩

/-- As pids are unique, a process that has exited is not alive in another slot. -/
lemma not_alive (h : PidInv k) {j : Fin maxProcesses}
    (hj : (k.procs j).active = true → (k.procs j).exited = true) : ¬ Alive k (k.procs j).pid := by
  rintro ⟨i, hpid, hact, hex⟩
  by_cases hij : i = j
  · subst hij
    exact absurd (hex.symm.trans (hj hact)) (by simp)
  · have h0 := h.eq_zero i j hij hpid
    have := h.active_pos i hact
    omega

/-- The records of a step are those of the processes that it has ended, threads apart. -/
lemma mem_newlyEnded {r : Ended} : r ∈ newlyEnded k k' ↔
    ∃ j, (k.procs j).exited = false ∧ (k'.procs j).exited = true ∧ (k.procs j).isThread = false ∧
      r = ⟨(k.procs j).pid, (k.procs j).ppid, (k'.procs j).exitCode⟩ := by
  simp only [newlyEnded, List.mem_filterMap, List.mem_finRange, true_and]
  refine exists_congr fun j => ?_
  cases (k.procs j).exited <;> cases (k'.procs j).exited <;> cases (k.procs j).isThread <;>
    simp [eq_comm]

/-! ## One step -/

/-- A step that starts and reaps nothing, and ends only threads and processes whose parent does not
live any more. -/
lemma WaitInv.of_fates {c : Fin maxProcesses} (h : WaitInv s) (hpids : PidInv k')
    (hn : k'.nextPid = s.kernel.nextPid)
    (hpos : ∀ j, s.kernel.pos j = .exited → k'.pos j = .exited)
    (halive : ∀ {pid}, pid < s.kernel.nextPid → Alive k' pid → Alive s.kernel pid)
    (hfate : ∀ j, Fate c j (s.kernel.pos j = .user ∧ k'.pos j = .exited)
      ((s.kernel.procs j).isThread = true ∨ ¬ Alive k' (s.kernel.procs j).ppid)
      (s.kernel.procs j) (k'.procs j)) :
    WaitInv ⟨k', s.ended ++ newlyEnded s.kernel k', s.returned⟩ := by
  have hnamed : ∀ j, Named (s.kernel.procs j) (k'.procs j) := fun j => (hfate j).named
  have hactive : ∀ {j}, (k'.procs j).active = true → (s.kernel.procs j).active = true := by
    intro j hact
    cases hfate j with
    | steady hs => exact hs.active.symm.trans hact
    | ends _ _ hend => exact absurd (hend.symm.trans hact) (by simp)
    | exits _ _ hsame _ _ => exact hsame.symm.trans hact
  refine ⟨hpids, fun j => ?_, fun j hthread hp ha => ?_, fun j hact hz => ?_,
    fun j hact hex => ?_, fun r hr => ?_, fun w hw => ?_⟩
  · rw [(hnamed j).ppid, hn]
    exact h.ppid_lt j
  · dsimp only at hthread hp ha ⊢
    rw [(hnamed j).isThread] at hthread
    rw [(hnamed j).ppid] at ha
    have hlive := h.live j hthread (fun he => hp (hpos j he)) (halive (h.ppid_lt j) ha)
    cases hfate j with
    | steady hs => exact ⟨hs.active.trans hlive.1, hs.exited.trans hlive.2⟩
    | ends hwhy _ _ =>
      rcases hwhy with ht | hna
      · exact absurd (ht.symm.trans hthread) (by simp)
      · exact absurd ha hna
    | exits hwhy _ _ _ _ => exact absurd hwhy.2 hp
  · cases hfate j with
    | steady hs =>
      refine hs.exited.trans (h.zombie j (hactive hact) ?_)
      rcases hs.state with he | he | he | ⟨-, he⟩
      · exact he.symm.trans hz
      all_goals
        rw [he] at hz
        cases hz
    | ends _ _ hend => exact absurd (hend.symm.trans hact) (by simp)
    | exits _ _ _ hexited _ => exact hexited
  · cases hfate j with
    | steady hs => exact hpos j (h.exited j (hactive hact) (hs.exited.symm.trans hex))
    | ends _ _ hend => exact absurd (hend.symm.trans hact) (by simp)
    | exits hwhy _ _ _ _ => exact hwhy.2
  · rcases List.mem_append.mp hr with hr | hr
    · obtain ⟨hlt, hkeep⟩ := h.ended r hr
      refine ⟨hlt.trans_eq hn.symm, fun ha => (hkeep (halive hlt ha)).imp_left ?_⟩
      rintro ⟨⟨j, hact, hex, hthread, hpid, hppid, hcode⟩, hret⟩
      refine ⟨⟨j, ?_⟩, hret⟩
      cases hfate j with
      | steady hs =>
        exact ⟨hs.active.trans hact, hs.exited.trans hex, hs.isThread.trans hthread,
          hs.pid.trans hpid, hs.ppid.trans hppid, hs.exitCode.trans hcode⟩
      | ends hwhy _ _ =>
        rcases hwhy with ht | hna
        · exact absurd (ht.symm.trans hthread) (by simp)
        · rw [hppid] at hna
          exact absurd ha hna
      | exits hwhy _ _ _ _ =>
        rw [h.exited j hact hex] at hwhy
        cases hwhy.1
    · -- the process that exits is pending now
      obtain ⟨j, hex, hex', hthread, rfl⟩ := mem_newlyEnded.mp hr
      refine ⟨(h.ppid_lt j).trans_eq hn.symm, fun ha => Or.inl ?_⟩
      cases hfate j with
      | steady hs => exact absurd (hex.symm.trans (hs.exited.symm.trans hex')) (by simp)
      | ends hwhy _ _ =>
        rcases hwhy with ht | hna
        · exact absurd (ht.symm.trans hthread) (by simp)
        · exact absurd ha hna
      | exits hwhy hs hsame hexited _ =>
        have hact := (h.live j hthread (by rw [hwhy.1]; simp) (halive (h.ppid_lt j) ha)).1
        exact ⟨⟨j, hsame.trans hact, hexited, hs.isThread.trans hthread, hs.pid, hs.ppid, rfl⟩,
          fun w hw he => (h.returned w hw).2.2 j hact he.symm⟩
  · obtain ⟨hown, hlt, hgone⟩ := h.returned w hw
    refine ⟨hown, hlt.trans_eq hn.symm, fun j hact => ?_⟩
    rw [(hnamed j).pid]
    exact hgone j (hactive hact)

/-- A step that starts a process. -/
lemma WaitInv.of_spawns {i : Fin maxProcesses} (h : WaitInv s) (hpids : PidInv k')
    (halive : ∀ {pid}, pid < s.kernel.nextPid → Alive k' pid → Alive s.kernel pid)
    (hs : Spawns s.kernel k' i) :
    WaitInv ⟨k', s.ended ++ newlyEnded s.kernel k', s.returned⟩ := by
  have hnone : newlyEnded s.kernel k' = [] := by
    refine List.eq_nil_iff_forall_not_mem.mpr fun r hr => ?_
    obtain ⟨j, hex, hex', -, -⟩ := mem_newlyEnded.mp hr
    by_cases hj : j = i
    · subst hj
      exact absurd (hex'.symm.trans hs.newborn.exited) (by simp)
    · rw [hs.others j hj, hex] at hex'
      cases hex'
  have hn := hs.nextPid
  rw [hnone, List.append_nil]
  refine ⟨hpids, fun j => ?_, fun j hthread hp ha => ?_, fun j hact hz => ?_,
    fun j hact hex => ?_, fun r hr => ?_, fun w hw => ?_⟩
  · by_cases hj : j = i
    · subst hj
      rw [hs.newborn.ppid, hn]
      unfold parentView
      split_ifs
      · exact Int.lt_succ _
      · exact (h.pids.lt_nextPid _).trans (Int.lt_succ _)
    · rw [hs.others j hj, hn]
      exact (h.ppid_lt j).trans (Int.lt_succ _)
  · by_cases hj : j = i
    · subst hj
      exact ⟨hs.newborn.active, hs.newborn.exited⟩
    · dsimp only at hthread hp ha ⊢
      rw [hs.pos, Function.update_of_ne hj] at hp
      rw [hs.others j hj] at hthread ha ⊢
      exact h.live j hthread hp (halive (h.ppid_lt j) ha)
  · by_cases hj : j = i
    · subst hj
      exact absurd (hs.newborn.state.symm.trans hz) (by simp)
    · dsimp only at hact hz ⊢
      rw [hs.others j hj] at hact hz ⊢
      exact h.zombie j hact hz
  · by_cases hj : j = i
    · subst hj
      exact absurd (hs.newborn.exited.symm.trans hex) (by simp)
    · dsimp only at hact hex ⊢
      rw [hs.others j hj] at hact hex
      rw [hs.pos, Function.update_of_ne hj]
      exact h.exited j hact hex
  · obtain ⟨hlt, hkeep⟩ := h.ended r hr
    refine ⟨hlt.trans (hn ▸ Int.lt_succ _), fun ha => (hkeep (halive hlt ha)).imp_left ?_⟩
    rintro ⟨⟨j, hact, hrest⟩, hret⟩
    have hj : j ≠ i := by
      rintro rfl
      exact absurd (hs.inactive.symm.trans hact) (by simp)
    refine ⟨⟨j, ?_⟩, hret⟩
    rw [hs.others j hj]
    exact ⟨hact, hrest⟩
  · obtain ⟨hown, hlt, hgone⟩ := h.returned w hw
    refine ⟨hown, hlt.trans (hn ▸ Int.lt_succ _), fun j hact => ?_⟩
    by_cases hj : j = i
    · subst hj
      rw [hs.newborn.pid]
      exact hlt.ne'
    · dsimp only at hact ⊢
      rw [hs.others j hj] at hact ⊢
      exact hgone j hact

/-- The zombie that a safe step reaps is a child of the caller. -/
lemma WaitInv.reaped_child {i : Fin maxProcesses} (h : WaitInv s) (hsafe : WaitSafe s e)
    (hreap : reapedSlot s.kernel e = some i) :
    (s.kernel.procs i).active = true ∧ (s.kernel.procs i).exited = true ∧
      (s.kernel.procs i).ppid = s.kernel.current.pid := by
  obtain ⟨pid, hpass, hslot⟩ := Option.bind_eq_some_iff.mp hreap
  have hfound := List.find?_some hslot
  simp only [wait4Matches, Bool.and_eq_true, Bool.or_eq_true, beq_iff_eq,
    decide_eq_true_eq] at hfound
  obtain ⟨⟨hact, hmatch⟩, hdead⟩ := hfound
  refine ⟨hact, hdead.elim (h.zombie i hact) id, ?_⟩
  rcases hmatch with hpid | ⟨-, hppid⟩
  · have hpos := h.pids.active_pos i hact
    exact hsafe.2.2 pid hpass (hpid ▸ hpos) i hact hpid
  · exact hppid

/-- An active process with another slot has another pid. -/
lemma WaitInv.pid_ne {i j : Fin maxProcesses} (h : WaitInv s) (hj : j ≠ i)
    (hact : (s.kernel.procs j).active = true) : (s.kernel.procs j).pid ≠ (s.kernel.procs i).pid := by
  intro he
  have h0 := h.pids.eq_zero j i hj he
  have := h.pids.active_pos j hact
  omega

/-- What is recorded of a process that has ended, when slot `i` is reaped: the record is answered
now, has been answered, or is still pending. -/
lemma WaitInv.ended_of_reaps {i : Fin maxProcesses} {r : Ended} (m : Mem) (h : WaitInv s)
    (hact : (s.kernel.procs i).active = true)
    (hppid : (s.kernel.procs i).ppid = s.kernel.current.pid) (hr : r ∈ s.ended)
    (ha : Alive s.kernel r.ppid) :
    Pending (s.kernel.reap i m) r ∧
        (∀ w ∈ s.returned ++ [reapAnswer s.kernel i], w.pid ≠ r.pid) ∨
      (s.returned ++ [reapAnswer s.kernel i]).filter (fun w => w.pid == r.pid) =
        [⟨r.ppid, r.pid, r.ppid, wait4Status r.code⟩] := by
  unfold reapAnswer
  rw [List.filter_append]
  rcases (h.ended r hr).2 ha with ⟨⟨j, hactj, hexj, hthread, hpid, hpp, hcode⟩, hret⟩ | hret
  · have hempty : s.returned.filter (fun w => w.pid == r.pid) = [] :=
      List.filter_eq_nil_iff.mpr fun w hw => by simpa using hret w hw
    by_cases hj : j = i
    · -- the record of the child that is returned now
      subst hj
      refine Or.inr ?_
      rw [hempty, hpid, hcode, ← hppid, hpp]
      simp
    · refine Or.inl ⟨⟨j, ?_⟩, fun w hw => ?_⟩
      · rw [reap_procs_of_ne m hj]
        exact ⟨hactj, hexj, hthread, hpid, hpp, hcode⟩
      · rcases List.mem_append.mp hw with hw | hw
        · exact hret w hw
        · obtain rfl := List.mem_singleton.mp hw
          exact fun he => h.pid_ne hj hactj (hpid.trans he.symm)
  · -- a child that has been returned is not in the table any more
    have hpidne : (s.kernel.procs i).pid ≠ r.pid := by
      have hmem : (⟨r.ppid, r.pid, r.ppid, wait4Status r.code⟩ : Waited) ∈ s.returned :=
        List.mem_of_mem_filter (hret ▸ List.mem_singleton_self _)
      exact (h.returned _ hmem).2.2 i hact
    refine Or.inr ?_
    rw [hret]
    simp [hpidne]

/-- What has been answered, when slot `i` is reaped: children of the caller, which are gone. -/
lemma WaitInv.returned_of_reaps {i : Fin maxProcesses} {w : Waited} (m : Mem) (h : WaitInv s)
    (hppid : (s.kernel.procs i).ppid = s.kernel.current.pid)
    (hw : w ∈ s.returned ++ [reapAnswer s.kernel i]) :
    w.ppid = w.caller ∧ w.pid < s.kernel.nextPid ∧
      ∀ j, ((s.kernel.reap i m).procs j).active = true →
        ((s.kernel.reap i m).procs j).pid ≠ w.pid := by
  rcases List.mem_append.mp hw with hw | hw
  · obtain ⟨hown, hlt, hgone⟩ := h.returned w hw
    refine ⟨hown, hlt, fun j hactj => ?_⟩
    have hj := ne_of_reap_active hactj
    rw [reap_procs_of_ne m hj] at hactj ⊢
    exact hgone j hactj
  · obtain rfl := List.mem_singleton.mp hw
    refine ⟨hppid, h.pids.lt_nextPid i, fun j hactj => ?_⟩
    have hj := ne_of_reap_active hactj
    rw [reap_procs_of_ne m hj] at hactj ⊢
    exact h.pid_ne hj hactj

/-- A step that reaps a child of the caller. -/
lemma WaitInv.of_reaps {i : Fin maxProcesses} {m : Mem} (h : WaitInv s)
    (hpids : PidInv (s.kernel.reap i m))
    (halive : ∀ {pid}, pid < s.kernel.nextPid → Alive (s.kernel.reap i m) pid → Alive s.kernel pid)
    (hcur : s.kernel.pos s.kernel.currentProcIdx ≠ .exited)
    (hact : (s.kernel.procs i).active = true) (hex : (s.kernel.procs i).exited = true)
    (hppid : (s.kernel.procs i).ppid = s.kernel.current.pid) :
    WaitInv ⟨s.kernel.reap i m, s.ended, s.returned ++ [reapAnswer s.kernel i]⟩ := by
  refine ⟨hpids, fun j => ?_, fun j hthread hp ha => ?_, fun j hact' hz => ?_,
    fun j hact' hex' => ?_, fun r hr => ?_, fun w hw => h.returned_of_reaps m hppid hw⟩
  · by_cases hj : j = i
    · subst hj
      rw [reap_procs_self]
      exact h.ppid_lt j
    · rw [reap_procs_of_ne m hj]
      exact h.ppid_lt j
  · by_cases hj : j = i
    · subst hj
      exact absurd (reap_pos_exited hcur j m j (h.exited j hact hex)) hp
    · dsimp only at hthread hp ha ⊢
      rw [reap_procs_of_ne m hj] at hthread ha ⊢
      exact h.live j hthread (fun hx => hp (reap_pos_exited hcur i m j hx)) (halive (h.ppid_lt j) ha)
  · have hj := ne_of_reap_active hact'
    dsimp only at hact' hz ⊢
    rw [reap_procs_of_ne m hj] at hact' hz ⊢
    exact h.zombie j hact' hz
  · have hj := ne_of_reap_active hact'
    dsimp only at hact' hex'
    rw [reap_procs_of_ne m hj] at hact' hex'
    exact reap_pos_exited hcur i m j (h.exited j hact' hex')
  · have hlt := (h.ended r hr).1
    exact ⟨hlt, fun ha => h.ended_of_reaps m hact hppid hr (halive hlt ha)⟩

/-- **A safe step keeps the invariant.** -/
lemma waitStep_inv (h : WaitInv s) (hsafe : WaitSafe s e) : WaitInv (waitStep s e) := by
  have hpids := kstep_pidInv h.pids e
  have hlife := kstep_lifeStep s.kernel hsafe.1
  have halive : ∀ {pid}, pid < s.kernel.nextPid → Alive (kstep s.kernel e) pid →
      Alive s.kernel pid := fun hlt ha => hlife.alive hlt ha
  unfold waitStep newlyReturned
  generalize kstep s.kernel e = k' at *
  cases hlife with
  | fates hreap hn hpos hfate =>
    rw [hreap, List.append_nil]
    refine h.of_fates hpids hn hpos halive fun j => (hfate j).mono id ?_
    rintro (ht | ⟨pid, sig, rfl, hslot⟩ | ⟨hppid, hdead⟩)
    · exact Or.inl ht
    · exact (hsafe.2.1 j hslot).imp_right fun hna ha => hna (halive (h.ppid_lt j) ha)
    · refine Or.inr ?_
      have hcur := not_alive hpids hdead
      rw [hppid]
      rwa [(hfate s.kernel.currentProcIdx).named.pid] at hcur
  | spawns hreap i hs =>
    rw [hreap, List.append_nil]
    exact h.of_spawns hpids halive hs
  | reaps i m hreap he hpos =>
    subst he
    obtain ⟨hact, hex, hppid⟩ := h.reaped_child hsafe hreap
    have hnone : newlyEnded s.kernel (s.kernel.reap i m) = [] := by
      refine List.eq_nil_iff_forall_not_mem.mpr fun r hr => ?_
      obtain ⟨j, hex, hex', -, -⟩ := mem_newlyEnded.mp hr
      by_cases hj : j = i
      · subst hj
        rw [reap_procs_self] at hex'
        cases hex'
      · rw [reap_procs_of_ne m hj, hex] at hex'
        cases hex'
    rw [hreap, hnone, List.append_nil]
    exact h.of_reaps hpids halive hpos hact hex hppid

/-! ## Runs -/

/-- At the start no process has ended and nothing has been returned. -/
lemma boot_waitInv (mem : Mem) (files : Files) (ramdisk : RamdiskAt) (info : ElfInfo)
    (name : List UInt8) : WaitInv (waitStart (boot mem files ramdisk info name)) := by
  have hproc : ∀ j, ((boot mem files ramdisk info name).procs j).exited = false ∧
      ((boot mem files ramdisk info name).procs j).ppid = 0 ∧
      ((boot mem files ramdisk info name).procs j).state ≠ .zombie := by
    intro j
    by_cases hj : j = 0
    · subst hj
      exact ⟨rfl, rfl, (by decide : ProcState.running ≠ .zombie)⟩
    · rw [boot_procs_of_ne mem files ramdisk info name hj]
      exact ⟨rfl, rfl, (by decide : ProcState.free ≠ .zombie)⟩
  refine ⟨boot_pidInv mem files ramdisk info name, fun j => ?_, fun j _ _ ha => ?_,
    fun j _ hz => absurd hz (hproc j).2.2,
    fun j _ hex => absurd ((hproc j).1.symm.trans hex) (by simp), by simp [waitStart],
    by simp [waitStart]⟩
  · exact (hproc j).2.1.trans_lt (boot_pidInv mem files ramdisk info name).nextPid_pos
  · obtain ⟨i, hpid, hact, -⟩ := ha
    have hpos := (boot_pidInv mem files ramdisk info name).active_pos i hact
    exact absurd (hpid.trans (hproc j).2.1) hpos.ne'

/-- The invariant gives what a caller of `wait4` can rely on. -/
lemma WaitInv.exact (h : WaitInv s) : WaitExact s := by
  refine ⟨fun w hw => (h.returned w hw).1, fun hact hpos hnone r hr hppid => ?_⟩
  have hlives : Alive s.kernel r.ppid := by
    refine ⟨s.kernel.currentProcIdx, hppid.symm, hact, ?_⟩
    by_contra hex
    exact hpos (h.exited _ hact (by simpa using hex))
  refine ((h.ended r hr).2 hlives).resolve_left ?_
  -- a child that is still pending would have matched
  rintro ⟨⟨j, hactj, hexj, -, hpid, hpp, -⟩, -⟩
  cases hslot : wait4Slot s.kernel (-1) with
  | some i =>
    rw [processWait4_of_slot hslot] at hnone
    have hfound := List.find?_some hslot
    simp only [wait4Matches, Bool.and_eq_true] at hfound
    have := h.pids.active_pos i hfound.1.1
    simp only [Option.some.injEq] at hnone
    omega
  | none =>
    rcases processWait4_of_none hslot 0 with hw | ⟨-, hno⟩
    · rw [hw] at hnone
      cases hnone
    · have := hno j
      simp [wait4Matches, hactj, hpp, hppid] at this

/-- **Waiting is exact** in every run from the start of the first program in which only threads and
processes without a living parent are killed, and a process waits for a certain pid only if it is
that of its child: `process_wait4` returns children of the caller only, and when it says that
there are none, every child that has ended has been returned exactly once, with its status. -/
theorem wait_exact (mem : Mem) (files : Files) (ramdisk : RamdiskAt) (info : ElfInfo)
    (name : List UInt8) (es : List KEvent)
    (hrun : StepsMeet waitStep WaitSafe (waitStart (boot mem files ramdisk info name)) es) :
    WaitExact (runFrom waitStep (waitStart (boot mem files ramdisk info name)) es) :=
  (invariant_runFrom (I := WaitInv) (fun _ _ h hsafe => waitStep_inv h hsafe)
    (boot_waitInv mem files ramdisk info name) hrun).exact

/-- A `wait4` for any child is safe, and so is every step that neither kills nor creates. -/
lemma waitSafe_of_any (hc : e.isCreate = false) (hk : ∀ pid sig, e ≠ .call (.kill pid sig))
    (hp : ∀ pid, wait4Pass s.kernel e = some pid → pid ≤ 0) : WaitSafe s e := by
  refine ⟨hc, ?_, fun pid hpass hpos => absurd (hp pid hpass) (by omega)⟩
  split
  · exact absurd rfl (hk _ _)
  · trivial

/-- A child that ends while its parent waits. -/
def waitForChild : List KEvent :=
  [.call (.fork someFrame), .call (.wait4 (-1) 0), .tick 0, .call (.exit 7), .tick 0, .resume]

theorem wait_exact_child :
    (runFrom waitStep (waitStart freshKernel) waitForChild).returned = [⟨1, 2, 1, 1792⟩] ∧
      WaitExact (runFrom waitStep (waitStart freshKernel) waitForChild) := by
  refine ⟨by decide +kernel, wait_exact _ _ _ _ _ waitForChild ?_⟩
  have hpass : ∀ {k : Kernel} {e : KEvent} {pid : ℤ}, wait4Pass k e = some pid →
      wait4Pass k e = none ∨ wait4Pass k e = some (-1) → pid ≤ 0 := by
    rintro k e pid h (h' | h') <;> rw [h'] at h <;> cases h
    decide
  refine ⟨waitSafe_of_any rfl (by simp) fun _ h => hpass h ?_,
    waitSafe_of_any rfl (by simp) fun _ h => hpass h ?_,
    waitSafe_of_any rfl (by simp) fun _ h => hpass h ?_,
    waitSafe_of_any rfl (by simp) fun _ h => hpass h ?_,
    waitSafe_of_any rfl (by simp) fun _ h => hpass h ?_,
    waitSafe_of_any rfl (by simp) fun _ h => hpass h ?_, trivial⟩
  all_goals decide +kernel

/-- **A killed child is never returned**: its parent is told that it has no children. -/
theorem killed_child_lost :
    ¬ WaitExact (runFrom waitStep (waitStart freshKernel)
      [.call (.fork someFrame), .call (.kill 2 15)]) := by
  intro h
  have hone := h.once (by decide +kernel) (by decide +kernel) (by decide +kernel) ⟨2, 1, 15⟩
    (by decide +kernel) (by decide +kernel)
  exact absurd hone (by decide +kernel)

end

end Bangos.Proc
