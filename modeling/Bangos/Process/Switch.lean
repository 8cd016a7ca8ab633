import Bangos.Process.IdentityMap

/-!
# What a process finds when it is switched back in

There is one page table.  A switch lays the recorded segments and the stack of the next process
over it and takes nothing away, so what a process finds when it runs again rests on two
things: the record says what was mapped when it was switched out, and nobody has mapped its
other pages meanwhile.  Both are conditions on the states a run goes through; under them the
translation is restored, and a process that has changed the rights of a recorded page shows
that the first is needed.
-/

namespace Bangos.Proc

open Bangos.Mm Bangos.Fs Bangos.Net Bangos.Loader Bangos.Syscall

variable {m : Mem} {k s : Kernel} {p q : Process} {i : Fin maxProcesses} {gone : ℕ → Prop}
  {v frame : ℕ}

/-! ## The view of a process -/

/-- What a page is translated to: the frame, and whether it may be written. -/
def view (x : Option Pte) : Option (ℕ × Bool) := x.map fun y => (y.frame, y.writable)

/-- The pages a process cares for: those of its areas, and a set `gone` that it has
unmapped. -/
def Mine (p : Process) (gone : ℕ → Prop) (key : ℕ) : Prop :=
  (∃ a, Covered p.vm.vmas a ∧ key = pageKey a) ∨ gone key

/-- What is recorded of the pages of `p` is what they are mapped to. -/
def RecordHolds (m : Mem) (p : Process) (gone : ℕ → Prop) : Prop :=
  ∀ v, Mine p gone (pageKey v) → OnProcess p (pageKey v) → view (walk m v) = view (procMap p v)

/-- Only the areas, the segments and the stack of a process count. -/
lemma SameIdent.procMap_eq (h : SameIdent p q) : procMap q = procMap p := by
  funext v
  unfold procMap
  rw [h.segments, h.stackPhysBase]

lemma userMap_writable {virt phys n : ℕ} {x : Pte} (h : userMap virt phys n v = some x) :
    x.writable = true := by
  induction n with
  | zero => cases h
  | succ n ih =>
    rw [userMap] at h
    split_ifs at h
    · exact (Option.some.inj h) ▸ rfl
    · exact ih h

lemma recordMap_writable {segments : List ElfSegment} {x : Pte}
    (h : recordMap segments v = some x) : x.writable = true := by
  induction segments with
  | nil => cases h
  | cons s ss ih =>
    rw [recordMap, Option.or_eq_some_iff] at h
    rcases h with h | ⟨-, h⟩
    · exact ih h
    · exact userMap_writable h

/-- Whatever a switch maps may be written. -/
lemma procMap_writable {x : Pte} (h : procMap p v = some x) : x.writable = true := by
  rw [procMap, Option.or_eq_some_iff] at h
  rcases h with h | ⟨-, h⟩
  · split_ifs at h
    exact userMap_writable h
  · exact recordMap_writable h

/-- A page that a switch does not map is left as it was. -/
lemma walk_remap (hok : TablesOk m)
    (hroom : (missing (tables m) (procTables q)).card ≤ freeFrames m) (v : ℕ) :
    walk (remap m q) v = (procMap q v).or (walk m v) := by
  obtain ⟨T', -, hw⟩ := remap_spec q hok hroom
  exact hw v

/-! ## Ticks -/

/-- The slot that a tick chooses. -/
def dispatched (k : Kernel) (frame : ℕ) : Fin maxProcesses :=
  nextIdx (tickTable k.procs k.currentProcIdx frame) k.currentProcIdx

/-- The two outcomes of a tick: the mappings stay, and so does the thread group that runs; or
it switches to another process and restores the mappings of that. -/
lemma schedulerTick_cases (k : Kernel) (frame : ℕ) :
    (remapped k frame = none ∧ (schedulerTick k frame).2.mem = k.mem ∧
        (schedulerTick k frame).2.current.tgid = k.current.tgid) ∨
      ∃ q, remapped k frame = some q ∧ (schedulerTick k frame).2.mem = remap k.mem q ∧
        SameIdent (k.procs (dispatched k frame)) q ∧
        SameIdent q (schedulerTick k frame).2.current := by
  have hmem := schedulerTick_mem k frame
  cases hen : k.schedulerEnabled with
  | false =>
    have he : (schedulerTick k frame).2 = k := by
      unfold schedulerTick
      rw [hen]
      rfl
    refine Or.inl ⟨?_, by rw [he], by rw [he]⟩
    unfold remapped
    simp [hen]
  | true =>
    have hcur : SameIdent (tickTable k.procs k.currentProcIdx frame (dispatched k frame))
        (schedulerTick k frame).2.current := by
      have hupd : (schedulerTick k frame).2.current =
          { tickTable k.procs k.currentProcIdx frame (dispatched k frame) with
            state := .running } := by
        unfold schedulerTick
        rw [hen]
        exact Function.update_self (dispatched k frame) _
          (tickTable k.procs k.currentProcIdx frame)
      rw [hupd]
      exact ⟨id, rfl, rfl, rfl, rfl, rfl⟩
    have hsame := (tickTable_kept k.procs k.currentProcIdx frame (dispatched k frame)).ident
    cases hr : remapped k frame with
    | some q =>
      have hq : q = tickTable k.procs k.currentProcIdx frame (dispatched k frame) := by
        unfold remapped at hr
        dsimp only at hr
        split_ifs at hr
        exact (Option.some.inj hr).symm
      exact Or.inr ⟨q, rfl, by rw [hmem, hr]; rfl, hq ▸ hsame, hq ▸ hcur⟩
    | none =>
      refine Or.inl ⟨rfl, by rw [hmem, hr]; rfl, ?_⟩
      rw [hcur.tgid]
      -- the tick stays with the process, or moves to a thread of its group
      have hself := (tickTable_kept k.procs k.currentProcIdx frame k.currentProcIdx).ident.tgid
      unfold remapped at hr
      dsimp only at hr
      split_ifs at hr with hcond
      by_cases hne : dispatched k frame = k.currentProcIdx
      · rw [hne]
        exact hself
      · refine Eq.trans ?_ hself
        by_contra htg
        exact hcond ⟨hen, hne, Or.inr htg⟩

/-! ## While the process is away -/

/-- The condition on a step for the pages of the process `p` of slot `i`: no memory call, and no
page of `p` is mapped anew that the switch back to `p` does not restore. -/
def Spares (p : Process) (i : Fin maxProcesses) (gone : ℕ → Prop) (k : Kernel) : KEvent → Prop
  | .tick frame => ∀ q, remapped k frame = some q → dispatched k frame ≠ i →
    if q.tgid = p.tgid then ∀ v, Mine p gone (pageKey v) → view (procMap q v) = view (procMap p v)
    else ∀ key, Mine p gone key → OnProcess q key → OnProcess p key
  | .resume => True
  -- programs are created at boot only
  | .create _ _ => False
  | .call (.mmap _ _ _ _) | .call (.munmap _ _) | .call (.mprotect _ _ _) | .call (.brk _) => False
  | .call (.fork _) | .call (.clone _ _ _ _ _ _) =>
    (k.procs i).active = true ∧ k.current.active = true
  | .call (.execve path _) => k.currentProcIdx ≠ i ∧
    ∀ key, Mine p gone key → OnExec k path key → OnProcess p key ∧ k.current.tgid ≠ p.tgid
  | .call _ => True
  | .pageFault faultAddr _ => Mine p gone (pageKey faultAddr) →
    OnProcess p (pageKey faultAddr) ∧ k.current.tgid ≠ p.tgid

/-- The condition on a step while the process `p` of slot `i` is away. -/
def AwaySafe (p : Process) (i : Fin maxProcesses) (gone : ℕ → Prop) (k : Kernel) (e : KEvent) :
    Prop :=
  TablesSafe k e ∧ Spares p i gone k e

/-- What holds while the process `p` of slot `i`, switched out with the memory `m`, is away: its
pages that are not recorded are as they were, and while its thread group runs all of them
are. -/
structure Away (m : Mem) (p : Process) (i : Fin maxProcesses) (gone : ℕ → Prop) (s : Kernel) :
    Prop where
  tablesOk : TablesOk s.mem
  record : SameIdent p (s.procs i)
  rest : ∀ v, Mine p gone (pageKey v) → ¬ OnProcess p (pageKey v) →
    view (walk s.mem v) = view (walk m v)
  all : s.current.tgid = p.tgid → ∀ v, Mine p gone (pageKey v) →
    view (walk s.mem v) = view (walk m v)

lemma Away.tick (h : Away m p i gone s) (hrec : RecordHolds m p gone)
    (hsafe : TablesSafe s (.tick frame)) (hsp : Spares p i gone s (.tick frame)) :
    Away m p i gone (schedulerTick s frame).2 := by
  have hrecord := h.record.trans (schedulerTick_kept s frame i).ident
  rcases schedulerTick_cases s frame with ⟨-, hmem, htg⟩ | ⟨q, hq, hmem, hslot, hcur⟩
  · refine ⟨hmem ▸ h.tablesOk, hrecord, fun v hv hon => ?_, fun hg v hv => ?_⟩
    · rw [hmem]
      exact h.rest v hv hon
    · rw [hmem]
      exact h.all (htg.symm.trans hg) v hv
  have hroom := hsafe q hq
  have hwalk := fun v => walk_remap h.tablesOk hroom v
  obtain ⟨T', hg, -⟩ := remap_spec q h.tablesOk hroom
  -- a process of the group of `p` lays over the pages what the record of `p` says
  have hgroup : (∀ v, Mine p gone (pageKey v) → view (procMap q v) = view (procMap p v)) →
      ∀ v, Mine p gone (pageKey v) → view (walk (remap s.mem q) v) = view (walk m v) := by
    intro heq v hv
    rw [hwalk v]
    cases hpv : procMap p v with
    | none =>
      have hqv : procMap q v = none := by
        have := heq v hv
        rw [hpv] at this
        exact Option.map_eq_none_iff.mp this
      rw [hqv, Option.none_or]
      exact h.rest v hv fun hon => procMap_ne_none.mpr hon hpv
    | some x =>
      have hon : OnProcess p (pageKey v) := procMap_ne_none.mp (by rw [hpv]; simp)
      rw [hrec v hv hon, ← heq v hv]
      obtain ⟨y, hy⟩ : ∃ y, procMap q v = some y := by
        refine Option.ne_none_iff_exists'.mp fun hn => ?_
        have := heq v hv
        rw [hpv, hn] at this
        cases this
      rw [hy, Option.some_or]
  by_cases hi : dispatched s frame = i
  · have hsame : ∀ v, Mine p gone (pageKey v) →
        view (walk (remap s.mem q) v) = view (walk m v) :=
      hgroup fun v _ => by rw [(h.record.trans (hi ▸ hslot)).procMap_eq]
    exact ⟨hmem ▸ hg.shape.tablesOk, hrecord, fun v hv _ => hmem ▸ hsame v hv,
      fun _ v hv => hmem ▸ hsame v hv⟩
  · have hcond := hsp q hq hi
    by_cases htgid : q.tgid = p.tgid
    · rw [if_pos htgid] at hcond
      exact ⟨hmem ▸ hg.shape.tablesOk, hrecord, fun v hv _ => hmem ▸ hgroup hcond v hv,
        fun _ v hv => hmem ▸ hgroup hcond v hv⟩
    · rw [if_neg htgid] at hcond
      refine ⟨hmem ▸ hg.shape.tablesOk, hrecord, fun v hv hon => ?_, fun hg' => ?_⟩
      · have hnone : procMap q v = none := by
          by_contra hne
          exact hon (hcond _ hv (procMap_ne_none.mp hne))
        rw [hmem, hwalk v, hnone, Option.none_or]
        exact h.rest v hv hon
      · exact absurd (hcur.tgid.symm.trans hg') htgid

lemma Away.other (h : Away m p i gone s) {s' : Kernel} {P : ℕ → Prop}
    (hk : KeepsTables s.mem s'.mem P) (hi : SameIdent (s.procs i) (s'.procs i))
    (htg : s'.current.tgid = s.current.tgid)
    (hP : ∀ key, Mine p gone key → P key → OnProcess p key ∧ s.current.tgid ≠ p.tgid) :
    Away m p i gone s' where
  tablesOk := hk.tablesOk
  record := h.record.trans hi
  rest v hv hon := by
    rw [hk.walk v fun hp => hon (hP _ hv hp).1]
    exact h.rest v hv hon
  all hg v hv := by
    have hg' := htg.symm.trans hg
    rw [hk.walk v fun hp => (hP _ hv hp).2 hg']
    exact h.all hg' v hv

/-- A step that leaves the running process running. -/
lemma current_tgid {s s' : Kernel} (hidx : s'.currentProcIdx = s.currentProcIdx)
    (h : (s'.procs s.currentProcIdx).tgid = s.current.tgid) : s'.current.tgid = s.current.tgid := by
  unfold Kernel.current at h ⊢
  rw [hidx]
  exact h

lemma Away.call (h : Away m p i gone s) (c : Call) (hsafe : AwaySafe p i gone s (.call c)) :
    Away m p i gone (doSyscall s c) := by
  have hk := doSyscall_tables h.tablesOk c hsafe.1
  have hidx := (doSyscall_sameCpu s c).current
  -- calls that keep every slot and touch no page
  have hplain : c.mapsMemory = false →
      (c.makesProcess = true → (s.procs i).active = true ∧ s.current.active = true) →
      (∀ key, ¬ Touched s (.call c) key) → Away m p i gone (doSyscall s c) := by
    intro hm hact hno
    refine h.other hk (doSyscall_ident_of_active s c hm i fun hc => (hact hc).1)
      (current_tgid hidx ?_) fun key _ ht => absurd ht (hno key)
    exact (doSyscall_ident_of_active s c hm _ fun hc => (hact hc).2).tgid
  cases c with
  | mmap addr len prot flags => exact hsafe.2.elim
  | munmap addr len => exact hsafe.2.elim
  | mprotect addr len prot => exact hsafe.2.elim
  | brk newBrk => exact hsafe.2.elim
  | fork frame => exact hplain rfl (fun _ => hsafe.2) fun _ => id
  | clone flags childStack ptid ctid newtls frame => exact hplain rfl (fun _ => hsafe.2) fun _ => id
  | execve path argv0 =>
    obtain ⟨hne, hpages⟩ := hsafe.2
    refine h.other hk ?_ (current_tgid hidx (processExecve_current s path argv0).tgid) hpages
    rw [doSyscall, processExecve_procs_of_ne path argv0 hne.symm]
    exact SameIdent.refl _
  | futexWait _ _ _ | futexWake _ _ | nanosleep _ _ | exit _ | kill _ _ | wait4 _ _
  | setTidAddress _ | socket _ _ _ | close _ | shutdown _ =>
    exact hplain rfl (fun hc => by cases hc) fun _ => id

/-- **What holds while a process is away** is kept by every step that meets its condition. -/
theorem kstep_away (hrec : RecordHolds m p gone) (s : Kernel) (e : KEvent)
    (h : Away m p i gone s) (hsafe : AwaySafe p i gone s e) : Away m p i gone (kstep s e) := by
  unfold kstep
  by_cases hhalt : s.halted = true
  · rwa [if_pos hhalt]
  rw [if_neg hhalt]
  cases e with
  | tick frame => exact h.tick hrec hsafe.1 hsafe.2
  | resume =>
    exact h.other (resume_tables h.tablesOk hsafe.1) (resume_kept s i).ident
      (current_tgid (resume_sameCpu s).current (resume_kept s _).tgid) fun _ _ hf => hf.elim
  | create info name => exact hsafe.2.elim
  | pageFault faultAddr errorCode =>
    dsimp only
    split_ifs
    · refine h.other (handleFault_tables h.tablesOk faultAddr errorCode hsafe.1.1 hsafe.1.2)
        (handleFault_ident s faultAddr errorCode i)
        (current_tgid (handleFault_sameCpu s faultAddr errorCode).current
          (handleFault_ident s faultAddr errorCode _).tgid) ?_
      rintro key hv rfl
      exact hsafe.2 hv
    · exact h
  | call c =>
    dsimp only
    split_ifs
    · exact h.call c hsafe
    · exact h

/-! ## Switching back -/

/-- A tick that restores the mappings of a process without segments needs few frames. -/
lemma kstep_tick_bare (frame : ℕ) (hok : TablesOk s.mem) (hfree : 48 ≤ freeFrames s.mem)
    (hrun : s.halted = false) (hseg : (remapped s frame).map Process.segments = some []) :
    ∃ q T', remapped s frame = some q ∧ TablesSafe s (.tick frame) ∧
      Grows s.mem (tables s.mem) (kstep s (.tick frame)).mem T' (procTables q) 0 ∧
      freeFrames s.mem ≤ freeFrames (kstep s (.tick frame)).mem + 48 ∧
      (∀ v, walk (kstep s (.tick frame)).mem v = (procMap q v).or (walk s.mem v)) ∧
      SameIdent q (kstep s (.tick frame)).current := by
  rcases schedulerTick_cases s frame with ⟨hn, -⟩ | ⟨q, hq, hmem, -, hcur⟩
  · rw [hn] at hseg
    cases hseg
  have hstep : kstep s (.tick frame) = (schedulerTick s frame).2 := by
    unfold kstep
    rw [if_neg (by simp [hrun])]
  have hcard : (procTables q).card ≤ 48 := by
    rw [hq] at hseg
    unfold procTables
    rw [Option.some.inj hseg, show recordTables [] = ∅ from rfl, Finset.empty_union]
    split_ifs
    · exact card_stackTables_le
    · simp
  have hmissing := (missing_card_le (tables s.mem) (procTables q)).trans hcard
  obtain ⟨T', hg, hw⟩ := remap_spec q hok (hmissing.trans hfree)
  have hcount := hg.count
  rw [hstep, hmem]
  refine ⟨q, T', hq, fun q' hq' => ?_, hg, by omega, hw, hcur⟩
  obtain rfl : q' = q := Option.some.inj (hq'.symm.trans hq)
  exact hmissing.trans hfree

/-- `fork`. -/
def forkChild : KEvent := .call (.fork someFrame)

/-- Process 1 has forked, and its child runs. -/
def childRuns : Kernel := Runs.runFrom kstep freshKernel [forkChild, .tick 0]

/-- Process 1 has forked, and runs again. -/
def forked : Kernel := kstep childRuns (.tick 0)

lemma childRuns_memory : TablesOk childRuns.mem ∧ 31900 ≤ freeFrames childRuns.mem := by
  obtain ⟨hpool, hfree, -⟩ := freshKernel_memory
  obtain ⟨hok, hcount⟩ := kstep_fork_memory hpool.tablesOk someFrame
  obtain ⟨q, T', -, -, hg, hcount', -⟩ := kstep_tick_bare 0 hok (by omega)
    (show (kstep freshKernel forkChild).halted = false by decide +kernel) (by decide +kernel)
  have he : childRuns = kstep (kstep freshKernel (.call (.fork someFrame))) (.tick 0) := rfl
  rw [he]
  exact ⟨hg.shape.tablesOk, by omega⟩

/-- The memory when process 1 runs again: its record holds, and the lowest page of its stack is
a 4 KB page. -/
lemma forked_memory : TablesOk forked.mem ∧ 31800 ≤ freeFrames forked.mem ∧
    (∀ gone, RecordHolds forked.mem forked.current gone) ∧
    ∃ x, smallPage forked.mem stackVirtBase = some x := by
  obtain ⟨hok, hfree⟩ := childRuns_memory
  obtain ⟨q, T', hq, -, hg, hcount, hw, hcur⟩ := kstep_tick_bare 0 hok (by omega)
    (show childRuns.halted = false by decide +kernel) (by decide +kernel)
  have hbase : q.stackPhysBase ≠ 0 := by
    have h0 : (remapped childRuns 0).map Process.stackPhysBase ≠ some 0 := by decide +kernel
    rw [hq] at h0
    exact fun h => h0 (congrArg some h)
  rw [← forked] at hg hcount hw hcur
  refine ⟨hg.shape.tablesOk, by omega, fun gone v _ hon => ?_, ?_⟩
  · obtain ⟨y, hy⟩ := Option.ne_none_iff_exists'.mp (procMap_ne_none.mpr hon)
    rw [hcur.procMap_eq] at hy ⊢
    rw [hw v, hy, Option.some_or]
  · have htable : T' (path3 stackVirtBase) ≠ none := by
      refine hg.filled ?_
      unfold procTables stackTables
      rw [if_pos hbase]
      exact Finset.mem_union_right _ (by decide +kernel)
    have hon : OnProcess q (pageKey stackVirtBase) := Or.inr ⟨hbase, 0, by decide, by decide⟩
    obtain ⟨y, hy⟩ := Option.ne_none_iff_exists'.mp (procMap_ne_none.mpr hon)
    exact ⟨y, by rw [hg.shape.smallPage_eq_walk htable, hw, hy, Option.some_or]⟩

/-- From `forked` on, the switches to the child and back meet the condition. -/
lemma forked_awaySafe : Runs.StepsMeet kstep
    (AwaySafe forked.current forked.currentProcIdx noPage) forked [.tick 0, .tick 0] := by
  obtain ⟨hok, hfree, -⟩ := forked_memory
  obtain ⟨q, T', hq, hsafe, hg, hcount, -⟩ := kstep_tick_bare 0 hok (by omega)
    (show forked.halted = false by decide +kernel) (by decide +kernel)
  obtain ⟨-, -, -, hsafe', -⟩ := kstep_tick_bare 0 hg.shape.tablesOk (by omega)
    (show (kstep forked (.tick 0)).halted = false by decide +kernel) (by decide +kernel)
  refine ⟨⟨hsafe, fun q' hq' _ => ?_⟩, ⟨hsafe', fun _ _ hne => ?_⟩, trivial⟩
  · obtain rfl : q' = q := Option.some.inj (hq'.symm.trans hq)
    have hchild : (remapped forked 0).map (fun q => (q.tgid, q.segments)) = some (2, []) := by
      decide +kernel
    rw [hq] at hchild
    obtain ⟨htg, hseg⟩ := Prod.mk.inj (Option.some.inj hchild)
    have hself : forked.current.tgid = 1 ∧ forked.current.stackPhysBase ≠ 0 := by decide +kernel
    rw [if_neg (by rw [htg, hself.1]; decide)]
    rintro key - (⟨s, hs, -⟩ | ⟨-, hstack⟩)
    · rw [hseg] at hs
      cases hs
    · exact Or.inr ⟨hself.2, hstack⟩
  · exact absurd (by decide +kernel) hne

/-- Process 1 makes the lowest page of its stack read-only. -/
def protectStack : KEvent := .call (.mprotect stackVirtBase 0x1000 1)

/-- The state after that. -/
def guarded : Kernel := kstep forked protectStack

lemma doSyscall_mprotect_mem (s : Kernel) (addr len prot : ℕ) :
    (doSyscall s (.mprotect addr len prot)).mem =
      (sysMprotect s.mem s.current.vm addr len prot).2.1 := rfl

lemma kstep_protect_mem (hrun : s.halted = false) (hpos : s.pos s.currentProcIdx = .user)
    (hstart : (s.current.vm.vmas 0).start = stackVirtBase)
    (hend : stackVirtBase + 0x1000 ≤ (s.current.vm.vmas 0).endAddr)
    (h0 : (s.current.vm.vmas 0).meets stackVirtBase (stackVirtBase + 0x1000) = true)
    (hrest : ∀ j ≠ 0, (vmaReprotect s.current.vm.vmas stackVirtBase (stackVirtBase + 0x1000)
      1 0 j).meets stackVirtBase (stackVirtBase + 0x1000) = false) :
    (kstep s protectStack).mem = modifyPageFlags s.mem stackVirtBase (pteFlags 1) := by
  have hmem : (kstep s protectStack).mem =
      (vmaProtect s.mem s.current.vm.vmas stackVirtBase (stackVirtBase + 0x1000) 1).2.1 := by
    unfold kstep protectStack
    rw [if_neg (by simp [hrun])]
    dsimp only
    rw [if_pos hpos, doSyscall_mprotect_mem, sysMprotect, if_neg (by decide),
      show u64 (stackVirtBase + pageAlign 0x1000) = stackVirtBase + 0x1000 by decide]
  rw [hmem, vmaProtect_mem_first s.mem (by decide) h0 hrest, hstart, max_self, min_eq_left hend]
  rfl

end Bangos.Proc
