import Bangos.Process.Slots

/-!
# Which processes the scheduler runs

`scheduler_tick` picks the next active process that is ready.  When there is none it falls back to
slot 0, whatever that slot holds.  So a tick runs a process that can run exactly when some process
is ready once the tick has woken the sleepers whose time is over.

A slot that stays ready comes nearer with every tick in the order of the scan, whatever the
processes do between the ticks, so that no other slot has two turns before it.
-/

namespace Bangos.Proc

open Bangos.Mm Bangos.Fs Bangos.Net Bangos.Loader Bangos.Syscall Runs

/-- The process may be given the processor: it is active, no zombie, and does not sleep. -/
def Dispatchable (p : Process) : Prop :=
  p.active = true ∧ p.state ≠ .zombie ∧ p.state ≠ .sleeping

instance (p : Process) : Decidable (Dispatchable p) := inferInstanceAs (Decidable (_ ∧ _))

/-- A tick sets no slot running that is inactive, a zombie or asleep once the sleepers have been
woken, and does not return to the frame of such a slot. -/
structure DispatchesRunnable (k : Kernel) (frame : ℕ) : Prop where
  turned : ∀ i, ((schedulerTick k frame).2.procs i).state = .running →
    (tickTable k.procs k.currentProcIdx frame i).state ≠ .running →
    Dispatchable (tickTable k.procs k.currentProcIdx frame i)
  returned : ∃ i, (schedulerTick k frame).2.currentProcIdx = i ∧
    (schedulerTick k frame).1 = (tickTable k.procs k.currentProcIdx frame i).savedFrame ∧
    Dispatchable (tickTable k.procs k.currentProcIdx frame i)

/-- An active slot is not free, and only the current one can be running. -/
def StateInv (k : Kernel) : Prop :=
  ∀ i, (k.procs i).active = true →
    (k.procs i).state ≠ .free ∧ ((k.procs i).state = .running → i = k.currentProcIdx)

/-- The timer interrupt. -/
def KEvent.isTick : KEvent → Bool
  | .tick _ => true
  | _ => false

lemma KEvent.isTick_iff {e : KEvent} : e.isTick = true ↔ ∃ frame, e = .tick frame := by
  cases e <;> simp [isTick]

section

variable {k k' : Kernel} {frame : ℕ}

/-! ## One tick -/

/-- The first step of a tick: a process is ready, or as it was. -/
lemma countdown_cases (p : Process) :
    ((countdown p).state = .ready ∧ (p.state = .ready ∨
        p.state = .sleeping ∧ p.sleepTicksRemaining = 1 ∧ p.waitChannel = 0)) ∨
      (countdown p).state = p.state ∧ p.state ≠ .ready := by
  unfold countdown
  split_ifs with h h1
  · exact Or.inl ⟨rfl, Or.inr ⟨h.2.1, h1⟩⟩
  · exact Or.inr ⟨h.2.1.symm, by rw [h.2.1]; simp⟩
  · by_cases hr : p.state = .ready
    · exact Or.inl ⟨hr, Or.inl hr⟩
    · exact Or.inr ⟨rfl, hr⟩

lemma countdown_active (p : Process) : (countdown p).active = p.active := by
  unfold countdown
  split_ifs <;> rfl

lemma tickTable_active (k : Kernel) (frame : ℕ) (i : Fin maxProcesses) :
    (tickTable k.procs k.currentProcIdx frame i).active = (k.procs i).active := by
  unfold tickTable
  by_cases hi : i = k.currentProcIdx
  · subst hi
    rw [Function.update_self, saveCurrent]
    split_ifs <;> exact countdown_active _
  · rw [Function.update_of_ne hi]
    exact countdown_active _

/-- The first two steps of a tick, for an active process: it is ready, which it was to be, or it is
as it was, and then not the running one. -/
lemma tickTable_cases (k : Kernel) (frame : ℕ) {i : Fin maxProcesses}
    (hact : (k.procs i).active = true) :
    ((tickTable k.procs k.currentProcIdx frame i).state = .ready ∧ Runnable k i) ∨
      (tickTable k.procs k.currentProcIdx frame i).state = (k.procs i).state ∧
        (k.procs i).state ≠ .ready ∧ ((k.procs i).state = .running → i ≠ k.currentProcIdx) := by
  have hcount := countdown_cases (k.procs i)
  have hready : ∀ hst : (k.procs i).state = .ready ∨ (k.procs i).state = .sleeping ∧
      (k.procs i).sleepTicksRemaining = 1 ∧ (k.procs i).waitChannel = 0, Runnable k i :=
    fun hst => ⟨hact, hst.imp_right Or.inr⟩
  unfold tickTable
  by_cases hi : i = k.currentProcIdx
  · subst hi
    have ha : (countdown (k.procs k.currentProcIdx)).active = true :=
      (countdown_active _).trans hact
    rw [Function.update_self, saveCurrent, if_pos ha]
    dsimp only
    rcases hcount with ⟨hs, hwhy⟩ | ⟨hs, hne⟩
    · rw [hs]
      exact Or.inl ⟨rfl, hready hwhy⟩
    · rw [hs]
      by_cases hrun : (k.procs k.currentProcIdx).state = .running
      · rw [if_pos hrun]
        exact Or.inl ⟨rfl, hact, Or.inr (Or.inl ⟨rfl, hrun⟩)⟩
      · rw [if_neg hrun]
        exact Or.inr ⟨rfl, hne, fun h => absurd h hrun⟩
  · rw [Function.update_of_ne hi]
    rcases hcount with ⟨hs, hwhy⟩ | ⟨hs, hne⟩
    · exact Or.inl ⟨hs, hready hwhy⟩
    · exact Or.inr ⟨hs, hne, fun _ => hi⟩

/-- What an enabled tick does with the slot it picks. -/
lemma schedulerTick_eq (hen : k.schedulerEnabled = true) (frame : ℕ) :
    let ps := tickTable k.procs k.currentProcIdx frame
    let n := nextIdx ps k.currentProcIdx
    (schedulerTick k frame).1 = (ps n).savedFrame ∧
      (schedulerTick k frame).2.procs = Function.update ps n { ps n with state := .running } ∧
      (schedulerTick k frame).2.currentProcIdx = n := by
  unfold schedulerTick
  simp [hen]

/-- With a process that can run, a tick picks one that is ready. -/
lemma nextIdx_ready (h : ∃ i, Runnable k i) (frame : ℕ) :
    let ps := tickTable k.procs k.currentProcIdx frame
    (ps (nextIdx ps k.currentProcIdx)).active = true ∧
      (ps (nextIdx ps k.currentProcIdx)).state = .ready := by
  intro ps
  obtain ⟨i, hi⟩ := h
  obtain ⟨hact, hst⟩ := tickTable_ready hi frame
  unfold nextIdx
  split
  · rename_i n hfind
    simpa using List.find?_some hfind
  · rename_i hnone
    have := List.find?_eq_none.mp hnone i (mem_roundRobin k.currentProcIdx i)
    simp [ps, hact, hst] at this

/-- With none, it falls back to slot 0, which is then not ready. -/
lemma nextIdx_fallback (h : ¬ ∃ i, Runnable k i) (frame : ℕ) :
    nextIdx (tickTable k.procs k.currentProcIdx frame) k.currentProcIdx = 0 := by
  have hnot : ∀ i, (tickTable k.procs k.currentProcIdx frame i).active = true →
      (tickTable k.procs k.currentProcIdx frame i).state ≠ .ready := by
    intro i hact hst
    rw [tickTable_active] at hact
    rcases tickTable_cases k frame hact with ⟨-, hr⟩ | ⟨hs, hne, -⟩
    · exact h ⟨i, hr⟩
    · exact hne (hs.symm.trans hst)
  unfold nextIdx
  split
  · rename_i n hfind
    have hn := List.find?_some hfind
    simp only [Bool.and_eq_true, beq_iff_eq] at hn
    exact absurd hn.2 (hnot n hn.1)
  · refine if_neg ?_
    rintro ⟨hact, hst | hst⟩
    · exact hnot _ hact hst
    · -- the process that was running is ready by now
      rw [tickTable_active] at hact
      rcases tickTable_cases k frame hact with ⟨-, hr⟩ | ⟨hs, -, hne⟩
      · exact h ⟨_, hr⟩
      · exact hne (hs.symm.trans hst) rfl

/-- **A tick runs a process that can run exactly when there is one.** -/
lemma dispatchesRunnable_iff_of_inv (h : StateInv k) (hen : k.schedulerEnabled = true) :
    DispatchesRunnable k frame ↔ ∃ i, Runnable k i := by
  obtain ⟨hframe, hprocs, hcur⟩ := schedulerTick_eq hen frame
  constructor
  · intro hd
    by_contra hno
    obtain ⟨i, hi, -, hact, hz, hsl⟩ := hd.returned
    rw [hcur, nextIdx_fallback hno frame] at hi
    subst hi
    rw [tickTable_active] at hact
    obtain ⟨hfree, hrun⟩ := h 0 hact
    rcases tickTable_cases k frame hact with ⟨-, hr⟩ | ⟨hs, hne, hc⟩
    · exact hno ⟨0, hr⟩
    · rw [hs] at hz hsl
      cases hst : (k.procs 0).state with
      | free => exact hfree hst
      | ready => exact hne hst
      | running => exact hc hst (hrun hst)
      | sleeping => exact hsl hst
      | zombie => exact hz hst
  · intro hr
    obtain ⟨hact, hst⟩ := nextIdx_ready hr frame
    have hok : Dispatchable (tickTable k.procs k.currentProcIdx frame
        (nextIdx (tickTable k.procs k.currentProcIdx frame) k.currentProcIdx)) :=
      ⟨hact, by rw [hst]; simp, by rw [hst]; simp⟩
    refine ⟨fun i hi hold => ?_, _, hcur, hframe, hok⟩
    rw [hprocs] at hi
    by_cases hin : i = nextIdx (tickTable k.procs k.currentProcIdx frame) k.currentProcIdx
    · rw [hin]
      exact hok
    · rw [Function.update_of_ne hin] at hi
      exact absurd hi hold

/-! ## Runs -/

lemma schedulerTick_stateInv (h : StateInv k) (frame : ℕ) :
    StateInv (schedulerTick k frame).2 := by
  by_cases hen : k.schedulerEnabled = true
  · obtain ⟨-, hprocs, hcur⟩ := schedulerTick_eq hen frame
    intro i hact
    rw [hprocs] at hact ⊢
    rw [hcur]
    by_cases hin : i = nextIdx (tickTable k.procs k.currentProcIdx frame) k.currentProcIdx
    · rw [hin, Function.update_self]
      simp
    · rw [Function.update_of_ne hin] at hact ⊢
      rw [tickTable_active] at hact
      rcases tickTable_cases k frame hact with ⟨hs, -⟩ | ⟨hs, -, hc⟩
      · simp [hs]
      · rw [hs]
        exact ⟨(h i hact).1, fun hrun => absurd ((h i hact).2 hrun) (hc hrun)⟩
  · rw [schedulerTick, if_pos (by simpa using hen)]
    exact h

/-- All other steps leave the running slot running, and set no other slot running. -/
lemma StateInv.of_lifeStep {e : KEvent} (h : StateInv k)
    (hcur : k'.currentProcIdx = k.currentProcIdx) (hstep : LifeStep k e k') : StateInv k' := by
  cases hstep with
  | fates _ _ _ hfate =>
    intro i hact
    cases hfate i with
    | steady hs =>
      obtain ⟨hfree, hrun⟩ := h i (hs.active ▸ hact)
      rcases hs.state with he | he | he | ⟨hi, he⟩
      · rw [he, hcur]
        exact ⟨hfree, hrun⟩
      · simp [he]
      · simp [he]
      · rw [he]
        exact ⟨by simp, fun _ => hi⟩
    | ends _ _ hend => exact absurd (hend.symm.trans hact) (by simp)
    | exits _ _ _ _ hstate => simp [hstate]
  | spawns _ i hs =>
    intro j hact
    by_cases hj : j = i
    · subst hj
      simp [hs.newborn.state]
    · rw [hs.others j hj] at hact ⊢
      rw [hcur]
      exact h j hact
  | reaps i m _ he _ =>
    subst he
    intro j hact
    have hj := ne_of_reap_active hact
    rw [reap_procs_of_ne m hj] at hact ⊢
    exact h j hact

/-- Only a tick gives the processor to another slot. -/
lemma kstep_sameCpu (k : Kernel) {e : KEvent} (he : e.isCreate = false) (ht : e.isTick = false) :
    SameCpu k (kstep k e) := by
  unfold kstep
  by_cases hhalt : k.halted = true
  · rw [if_pos hhalt]
    exact ⟨rfl, id⟩
  rw [if_neg hhalt]
  cases e with
  | tick frame => cases ht
  | resume => exact resume_sameCpu k
  | create info name => cases he
  | pageFault faultAddr errorCode =>
    dsimp only
    split_ifs
    · exact handleFault_sameCpu k faultAddr errorCode
    · exact ⟨rfl, id⟩
  | call c =>
    dsimp only
    split_ifs
    · exact doSyscall_sameCpu k c
    · exact ⟨rfl, id⟩

lemma kstep_tick (hhalt : k.halted = false) (frame : ℕ) :
    kstep k (.tick frame) = (schedulerTick k frame).2 := by
  unfold kstep
  rw [if_neg (by simp [hhalt])]

lemma kstep_halted (hhalt : k.halted = true) (e : KEvent) : kstep k e = k := by
  unfold kstep
  rw [if_pos hhalt]

lemma kstep_stateInv (h : StateInv k) {e : KEvent} (he : e.isCreate = false) :
    StateInv (kstep k e) := by
  cases ht : e.isTick with
  | true =>
    obtain ⟨frame, rfl⟩ := KEvent.isTick_iff.mp ht
    cases hhalt : k.halted with
    | true => rwa [kstep_halted hhalt]
    | false =>
      rw [kstep_tick hhalt]
      exact schedulerTick_stateInv h frame
  | false => exact h.of_lifeStep (kstep_sameCpu k he ht).current (kstep_lifeStep k he)

lemma boot_stateInv (mem : Mem) (files : Files) (ramdisk : RamdiskAt) (info : ElfInfo)
    (name : List UInt8) : StateInv (boot mem files ramdisk info name) := by
  intro i hact
  by_cases hi : i = 0
  · subst hi
    exact ⟨(by decide : ProcState.running ≠ .free), fun _ => rfl⟩
  · rw [boot_procs_of_ne mem files ramdisk info name hi] at hact
    cases hact

/-- No step leaves a second active slot in the state RUNNING, or an active one in the state FREE. -/
lemma stateInv_run (mem : Mem) (files : Files) (ramdisk : RamdiskAt) (info : ElfInfo)
    (name : List UInt8) {es : List KEvent} (hes : ∀ e ∈ es, e.isCreate = false) :
    StateInv (runFrom kstep (boot mem files ramdisk info name) es) :=
  invariant_runFrom (C := fun _ (e : KEvent) => e.isCreate = false) (I := StateInv)
    (fun _ _ h he => kstep_stateInv h he)
    (boot_stateInv mem files ramdisk info name) (stepsMeet_of_forall _ hes)

/-- **The scheduler runs a process that can run exactly when there is one**, in every state that the
calls, ticks and page faults of a run from the start of the first program can reach. -/
theorem dispatchesRunnable_iff (mem : Mem) (files : Files) (ramdisk : RamdiskAt) (info : ElfInfo)
    (name : List UInt8) (es : List KEvent) (frame : ℕ) (hes : ∀ e ∈ es, e.isCreate = false)
    (hen : (runFrom kstep (boot mem files ramdisk info name) es).schedulerEnabled = true) :
    DispatchesRunnable (runFrom kstep (boot mem files ramdisk info name) es) frame ↔
      ∃ i, Runnable (runFrom kstep (boot mem files ramdisk info name) es) i :=
  dispatchesRunnable_iff_of_inv (stateInv_run mem files ramdisk info name hes) hen

/-- The first program forks, the child runs and goes to sleep; the parent can run. -/
theorem dispatchesRunnable_iff_fresh :
    DispatchesRunnable (runFrom kstep freshKernel
        [.call (.fork someFrame), .tick 0, .call (.nanosleep 1 0)]) 0 ↔
      ∃ i, Runnable (runFrom kstep freshKernel
        [.call (.fork someFrame), .tick 0, .call (.nanosleep 1 0)]) i :=
  dispatchesRunnable_iff _ _ _ _ _ [.call (.fork someFrame), .tick 0, .call (.nanosleep 1 0)] 0
    (by simp [KEvent.isCreate]) (by decide +kernel)

/-- **A sleeping process is run**: the only process sleeps for a second, and the next tick sets it
running all the same. -/
theorem sleeper_dispatched :
    ¬ DispatchesRunnable (runFrom kstep freshKernel [.call (.nanosleep 1 0)]) 0 := by
  intro h
  have hturned := h.turned 0 (by decide +kernel) (by decide +kernel)
  exact hturned.2.2 (by decide +kernel)

/-! ## The owner of the processor -/

/-- A tick returns to the saved frame of the slot it makes current, on the kernel stack of that
slot. -/
structure ReturnsToCurrent (k : Kernel) (frame : ℕ) : Prop where
  returned : (schedulerTick k frame).1 = (schedulerTick k frame).2.current.savedFrame
  rsp0 : (schedulerTick k frame).2.tssRsp0 = (schedulerTick k frame).2.current.kstackTop
  rspTemp : (schedulerTick k frame).2.kernelRspTemp = (schedulerTick k frame).2.current.kstackTop
  running : (schedulerTick k frame).2.current.state = .running

lemma returnsToCurrent (hen : k.schedulerEnabled = true) (frame : ℕ) : ReturnsToCurrent k frame := by
  obtain ⟨hframe, hprocs, hcur⟩ := schedulerTick_eq hen frame
  have hcurrent : (schedulerTick k frame).2.current =
      { tickTable k.procs k.currentProcIdx frame
          (nextIdx (tickTable k.procs k.currentProcIdx frame) k.currentProcIdx) with
        state := .running } := by
    rw [Kernel.current, hprocs, hcur, Function.update_self]
  refine ⟨hframe.trans ?_, ?_, ?_, ?_⟩
  all_goals rw [hcurrent]
  all_goals simp [schedulerTick, hen]

/-- The scheduler is never switched off again. -/
lemma kstep_enabled (hen : k.schedulerEnabled = true) {e : KEvent} (he : e.isCreate = false) :
    (kstep k e).schedulerEnabled = true := by
  cases ht : e.isTick with
  | true =>
    obtain ⟨frame, rfl⟩ := KEvent.isTick_iff.mp ht
    cases hhalt : k.halted with
    | true => rwa [kstep_halted hhalt]
    | false =>
      rw [kstep_tick hhalt]
      simp [schedulerTick, hen]
  | false => exact (kstep_sameCpu k he ht).enabled hen

/-- **The processor has one owner**: in every state that the calls, ticks and page faults of a run
from the start of the first program can reach, no active slot but the current one is running, and
a tick returns to the frame of the slot it makes current, with both stack pointers at the top of
its kernel stack. -/
theorem cpu_one_owner (mem : Mem) (files : Files) (ramdisk : RamdiskAt) (info : ElfInfo)
    (name : List UInt8) (es : List KEvent) (hes : ∀ e ∈ es, e.isCreate = false) :
    (∀ i, ((runFrom kstep (boot mem files ramdisk info name) es).procs i).active = true →
      ((runFrom kstep (boot mem files ramdisk info name) es).procs i).state = .running →
        i = (runFrom kstep (boot mem files ramdisk info name) es).currentProcIdx) ∧
      ∀ frame, ReturnsToCurrent (runFrom kstep (boot mem files ramdisk info name) es) frame := by
  have hen : (runFrom kstep (boot mem files ramdisk info name) es).schedulerEnabled = true :=
    invariant_runFrom (C := fun _ (e : KEvent) => e.isCreate = false)
      (I := fun k : Kernel => k.schedulerEnabled = true) (fun _ _ h he => kstep_enabled h he) rfl
      (stepsMeet_of_forall _ hes)
  exact ⟨fun i hact => (stateInv_run mem files ramdisk info name hes i hact).2,
    returnsToCurrent hen⟩

/-- After a fork and a tick the child has the processor, and the next tick gives it back. -/
theorem cpu_one_owner_forked :
    (∀ i, ((runFrom kstep freshKernel [.call (.fork someFrame), .tick 0]).procs i).active = true →
      ((runFrom kstep freshKernel [.call (.fork someFrame), .tick 0]).procs i).state = .running →
        i = (runFrom kstep freshKernel [.call (.fork someFrame), .tick 0]).currentProcIdx) ∧
      ∀ frame, ReturnsToCurrent
        (runFrom kstep freshKernel [.call (.fork someFrame), .tick 0]) frame :=
  cpu_one_owner _ _ _ _ _ [.call (.fork someFrame), .tick 0] (by simp [KEvent.isCreate])

/-! ## The order of the slots -/

/-- How far the slot `j` is ahead of `c` in the order of the scheduler. -/
def ahead (c j : Fin maxProcesses) : ℤ := ((j : ℤ) - c) % maxProcesses

/-- The slot is active and waits for the processor. -/
def ReadySlot (k : Kernel) (j : Fin maxProcesses) : Prop :=
  (k.procs j).active = true ∧ (k.procs j).state = .ready

instance (k : Kernel) (j : Fin maxProcesses) : Decidable (ReadySlot k j) :=
  inferInstanceAs (Decidable (_ ∧ _))

/-- The slots that the ticks of a run make current, in order. -/
def madeCurrent : Kernel → List KEvent → List (Fin maxProcesses)
  | _, [] => []
  | k, e :: es =>
    if e.isTick ∧ k.halted = false then (kstep k e).currentProcIdx :: madeCurrent (kstep k e) es
    else madeCurrent (kstep k e) es

/-- The scan meets every slot within one round, and `j` at the latest. -/
lemma nextIdx_ahead {ps : ProcTable} {c j : Fin maxProcesses} (hne : j ≠ c)
    (hj : (ps j).active = true ∧ (ps j).state = .ready) :
    ahead (nextIdx ps c) j < ahead c j := by
  have hfind : ∃ n, (roundRobin c).find? (fun i => (ps i).active && (ps i).state == .ready) =
      some n := by
    rw [← Option.isSome_iff_exists, List.find?_isSome]
    exact ⟨j, mem_roundRobin c j, by simp [hj]⟩
  obtain ⟨n, hn⟩ := hfind
  have hnext : nextIdx ps c = n := by
    unfold nextIdx
    rw [hn]
  obtain ⟨-, d, hd, hat, hbefore⟩ := List.find?_eq_some_iff_getElem.mp hn
  -- `j` is the slot number `e` of the scan, which has not gone beyond it
  obtain ⟨e, he, hje⟩ := List.mem_iff_getElem.mp (mem_roundRobin c j)
  have hde : d ≤ e := by
    by_contra hlt
    have hskip := hbefore e (by omega)
    rw [hje] at hskip
    simp [hj] at hskip
  simp only [roundRobin, List.length_map, List.length_range, List.getElem_map,
    List.getElem_range] at hd he hat hje
  rw [hnext]
  have hnv : (c.val + (d + 1)) % 32 = n := congrArg Fin.val hat
  have hjv : (c.val + (e + 1)) % 32 = j := congrArg Fin.val hje
  have hcj : (j : ℕ) ≠ c := fun h => hne (Fin.ext h)
  have h32 : ((maxProcesses : ℕ) : ℤ) = 32 := rfl
  rw [ahead, ahead, h32]
  omega

/-- **A tick goes towards a ready slot**: it makes that slot current, or one that is nearer to it. -/
lemma schedulerTick_ahead (hen : k.schedulerEnabled = true) {j : Fin maxProcesses}
    (hne : j ≠ k.currentProcIdx) (hj : ReadySlot k j) (frame : ℕ) :
    ahead (schedulerTick k frame).2.currentProcIdx j < ahead k.currentProcIdx j := by
  obtain ⟨-, -, hcur⟩ := schedulerTick_eq hen frame
  rw [hcur]
  exact nextIdx_ahead hne (tickTable_ready ⟨hj.1, Or.inl hj.2⟩ frame)

/-- Once the slot has been made current it is no longer ready, so that the run is over. -/
lemma run_over {j : Fin maxProcesses} {es : List KEvent} (hen : k.schedulerEnabled = true)
    (hcur : (schedulerTick k frame).2.currentProcIdx = j)
    (hrun : StepsMeet kstep (fun k e => ReadySlot k j ∧ e.isCreate = false)
      (schedulerTick k frame).2 es) : es = [] := by
  cases es with
  | nil => rfl
  | cons e es =>
    have hready := hrun.1.1.2
    have hrunning := (returnsToCurrent hen frame).running
    rw [Kernel.current, hcur, hready] at hrunning
    cases hrunning

/-- While the slot stays ready, all ticks go towards it. -/
lemma madeCurrent_ahead {j : Fin maxProcesses} {es : List KEvent} (hen : k.schedulerEnabled = true)
    (hne : j ≠ k.currentProcIdx)
    (hrun : StepsMeet kstep (fun k e => ReadySlot k j ∧ e.isCreate = false) k es) :
    ∀ d ∈ madeCurrent k es, ahead d j < ahead k.currentProcIdx j := by
  induction es generalizing k with
  | nil => simp [madeCurrent]
  | cons e es ih =>
    obtain ⟨⟨hj, he⟩, hrest⟩ := hrun
    have hen' := kstep_enabled hen he
    unfold madeCurrent
    split_ifs with ht
    · obtain ⟨frame, rfl⟩ := KEvent.isTick_iff.mp ht.1
      rw [kstep_tick ht.2] at hrest hen' ⊢
      have hstep := schedulerTick_ahead hen hne hj frame
      intro d hd
      rcases List.mem_cons.mp hd with rfl | hd
      · exact hstep
      · by_cases hcur : (schedulerTick k frame).2.currentProcIdx = j
        · rw [run_over hen hcur hrest] at hd
          cases hd
        · exact (ih hen' (Ne.symm hcur) hrest d hd).trans hstep
    · have hsame : (kstep k e).currentProcIdx = k.currentProcIdx := by
        cases htick : e.isTick with
        | true =>
          have hhalt : k.halted = true := by simpa [htick] using ht
          rw [kstep_halted hhalt]
        | false => exact (kstep_sameCpu k he htick).current
      rw [← hsame]
      exact ih hen' (hsame ▸ hne) hrest

/-- **Round-robin cannot skip a ready process.**  A tick makes a ready slot current or comes nearer
to it; and in a run in which the slot stays ready, whatever the processes do between the ticks, no
slot is made current twice. -/
theorem round_robin_skips_none (k : Kernel) (hen : k.schedulerEnabled = true)
    (j : Fin maxProcesses) :
    (∀ frame, j ≠ k.currentProcIdx → ReadySlot k j →
      (schedulerTick k frame).2.currentProcIdx = j ∨
        ahead (schedulerTick k frame).2.currentProcIdx j < ahead k.currentProcIdx j) ∧
      ∀ es, StepsMeet kstep (fun k e => ReadySlot k j ∧ e.isCreate = false) k es →
        (madeCurrent k es).Nodup := by
  refine ⟨fun frame hne hj => Or.inr (schedulerTick_ahead hen hne hj frame), fun es hrun => ?_⟩
  induction es generalizing k with
  | nil => exact List.nodup_nil
  | cons e es ih =>
    obtain ⟨⟨-, he⟩, hrest⟩ := hrun
    have hen' := kstep_enabled hen he
    have hnodup := ih (kstep k e) hen' hrest
    unfold madeCurrent
    split_ifs with ht
    · obtain ⟨frame, rfl⟩ := KEvent.isTick_iff.mp ht.1
      rw [kstep_tick ht.2] at hrest hen' hnodup ⊢
      refine List.nodup_cons.mpr ⟨fun hmem => ?_, hnodup⟩
      by_cases hcur : (schedulerTick k frame).2.currentProcIdx = j
      · rw [run_over hen hcur hrest] at hmem
        cases hmem
      · exact lt_irrefl _ (madeCurrent_ahead hen' (Ne.symm hcur) hrest _ hmem)
    · exact hnodup

/-- The program that has just been loaded has forked twice and waits in slot 0 while a child runs:
two ticks later, after the other child, it is current again. -/
theorem round_robin_skips_none_forked :
    let k := runFrom kstep freshKernel [.call (.fork someFrame), .call (.fork someFrame), .tick 0]
    ((schedulerTick k 0).2.currentProcIdx = 0 ∨
        ahead (schedulerTick k 0).2.currentProcIdx 0 < ahead k.currentProcIdx 0) ∧
      (madeCurrent k [.tick 0, .tick 0]).Nodup ∧ madeCurrent k [.tick 0, .tick 0] = [2, 0] := by
  intro k
  have hstate : k.schedulerEnabled = true ∧ 0 ≠ k.currentProcIdx ∧ ReadySlot k 0 ∧
      ReadySlot (kstep k (.tick 0)) 0 ∧ madeCurrent k [.tick 0, .tick 0] = [2, 0] := by
    decide +kernel
  obtain ⟨hen, hne, hj, hj', hmade⟩ := hstate
  have h := round_robin_skips_none k hen 0
  exact ⟨h.1 0 hne hj, h.2 [.tick 0, .tick 0] ⟨⟨hj, rfl⟩, ⟨hj', rfl⟩, trivial⟩, hmade⟩

end

end Bangos.Proc
