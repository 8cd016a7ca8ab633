import Bangos.Process.IdentityMap
import Bangos.Process.MmapWindows

/-!
# The program break

`SYS_BRK` keeps the break in two globals that all processes share.  A process nevertheless sees
a break of its own as long as no other process calls it, and its heap stays mapped as long as
it asks for addresses from the base of the heap on and nobody else maps or unmaps pages there.
-/

namespace Bangos.Proc

open Bangos.Mm Bangos.Fs Bangos.Net Bangos.Loader Bangos.Syscall

variable {m m' : Mem} {k : Kernel} {b : Brk} {n : ℕ}

/-! ## Histories -/

/-- The initial break. -/
def heapBase : ℕ := 0x600000000000

/-- The end of the lower half of the address space. -/
def lowerHalf : ℕ := 0x800000000000

/-- The kernel, and the `SYS_BRK` calls that each process has made: arguments and results. -/
structure BreakRun where
  kernel : Kernel
  history : ℤ → List (ℕ × ℕ)

/-- The histories after a step.  A child starts with the history of the process that made it;
the history under a pid that is not given out yet has no meaning. -/
def recordBreak (k : Kernel) (history : ℤ → List (ℕ × ℕ)) : KEvent → ℤ → List (ℕ × ℕ)
  | .call (.brk newBrk) =>
    if k.halted = false ∧ k.pos k.currentProcIdx = .user then
      Function.update history k.current.pid
        (history k.current.pid ++ [(newBrk, (sysBrk k.mem k.brk newBrk).1)])
    else history
  | .call (.fork _) | .call (.clone _ _ _ _ _ _) =>
    Function.update history k.nextPid (history k.current.pid)
  | .create _ _ => Function.update history k.nextPid []
  | _ => history

/-- A step of the kernel, with the histories. -/
def breakStep (s : BreakRun) (e : KEvent) : BreakRun :=
  ⟨kstep s.kernel e, recordBreak s.kernel s.history e⟩

lemma breakStep_kernel (s : BreakRun) (e : KEvent) :
    (breakStep s e).kernel = kstep s.kernel e := rfl

/-- The break that a process has by its own calls. -/
def ownBreak (h : List (ℕ × ℕ)) : ℕ := (h.getLast?.map Prod.snd).getD heapBase

@[simp] lemma ownBreak_concat (h : List (ℕ × ℕ)) (x : ℕ × ℕ) : ownBreak (h ++ [x]) = x.2 := by
  simp [ownBreak]

/-- **The break belongs to process `P`**: `brk(0)` tells what its own calls have made of it, and
the heap up to `mapped_brk_page` is mapped. -/
structure BreakOk (P : ℤ) (s : BreakRun) : Prop where
  own : (sysBrk s.kernel.mem s.kernel.brk 0).1 = ownBreak (s.history P)
  base_le : heapBase ≤ s.kernel.brk.currentBrk
  le_mapped : s.kernel.brk.currentBrk ≤ s.kernel.brk.mappedBrkPage
  mapped : ∀ v, heapBase ≤ v → v < s.kernel.brk.mappedBrkPage →
    (Mm.translate s.kernel.mem v).isSome = true

/-! ## One call -/

/-- What `SYS_BRK` does. -/
lemma sysBrk_cases (m : Mem) (b : Brk) (n : ℕ) :
    sysBrk m b n = (b.currentBrk, m, b) ∨
    (n ≠ 0 ∧ n ≤ b.mappedBrkPage ∧ sysBrk m b n = (n, m, { b with currentBrk := n })) ∨
    (b.mappedBrkPage < n ∧ ∃ phys m1, allocPages m (brkPages b n) = (some phys, m1) ∧
      sysBrk m b n = (n, mapUserPages m1 b.mappedBrkPage phys (brkPages b n),
        ⟨n, pageAlign n⟩)) := by
  unfold sysBrk brkPages
  by_cases h0 : n = 0
  · exact Or.inl (by rw [if_pos h0])
  rw [if_neg h0]
  by_cases hlt : b.mappedBrkPage < n
  · rw [if_pos hlt]
    dsimp only
    rcases ha : allocPages m (u64 (pageAlign n + (0x10000000000000000 - b.mappedBrkPage)) /
      pageSize) with ⟨r, m1⟩
    cases r with
    | none => exact Or.inl (by rw [allocPages_eq_none ha])
    | some phys => exact Or.inr (Or.inr ⟨hlt, phys, m1, rfl, rfl⟩)
  · rw [if_neg hlt]
    exact Or.inr (Or.inl ⟨h0, not_lt.mp hlt, rfl⟩)

/-- `SYS_BRK` returns the break as it leaves it. -/
lemma sysBrk_currentBrk (m : Mem) (b : Brk) (n : ℕ) :
    (sysBrk m b n).2.2.currentBrk = (sysBrk m b n).1 := by
  rcases sysBrk_cases m b n with he | ⟨-, -, he⟩ | ⟨-, phys, m1, -, he⟩ <;> rw [he]

/-- The heap: the break is between its base and the first page that is not mapped. -/
structure HeapOk (m : Mem) (b : Brk) : Prop where
  tablesOk : TablesOk m
  aligned : 4096 ∣ b.mappedBrkPage
  lower : b.mappedBrkPage ≤ lowerHalf
  base_le : heapBase ≤ b.currentBrk
  le_mapped : b.currentBrk ≤ b.mappedBrkPage
  walk : ∀ v, heapBase ≤ v → v < b.mappedBrkPage → walk m v ≠ none

/-- A step that does not touch the pages of the heap keeps it. -/
lemma HeapOk.of_keepsTables {Q : ℕ → Prop} (h : HeapOk m b) (hk : KeepsTables m m' Q)
    (hQ : ∀ v, heapBase ≤ v → v < b.mappedBrkPage → ¬ Q (pageKey v)) : HeapOk m' b :=
  ⟨hk.tablesOk, h.aligned, h.lower, h.base_le, h.le_mapped, fun v h1 h2 => by
    rw [hk.walk v (hQ v h1 h2)]
    exact h.walk v h1 h2⟩

lemma pageAlign_bounds (hn : n ≤ lowerHalf) : n ≤ pageAlign n ∧ pageAlign n ≤ lowerHalf := by
  unfold lowerHalf at hn ⊢
  unfold pageAlign u64 pageSize
  omega

/-- In the lower half the rounding does not wrap around, and the pages reach up to the new break. -/
lemma brkPages_eq (hm : b.mappedBrkPage ≤ lowerHalf) (hlt : b.mappedBrkPage < n)
    (hn : n ≤ lowerHalf) :
    brkPages b n = (pageAlign n - b.mappedBrkPage) / 4096 := by
  obtain ⟨h1, h2⟩ := pageAlign_bounds hn
  unfold lowerHalf at hm h2
  unfold brkPages u64 pageSize
  omega

/-- Every address between the old and the new page boundary lies on a page that is mapped. -/
lemma onRun_of_grown (ha : 4096 ∣ b.mappedBrkPage) (hm : b.mappedBrkPage ≤ lowerHalf)
    (hlt : b.mappedBrkPage < n) (hn : n ≤ lowerHalf) {v : ℕ} (h1 : b.mappedBrkPage ≤ v)
    (h2 : v < pageAlign n) : OnRun b.mappedBrkPage (brkPages b n) (pageKey v) := by
  have hd := dvd_pageAlign n
  obtain ⟨-, hle⟩ := pageAlign_bounds hn
  refine ⟨(v - b.mappedBrkPage) / 4096, ?_, ?_⟩
  · rw [brkPages_eq hm hlt hn]
    omega
  · unfold lowerHalf at hle
    unfold pageKey pageAt u64 pageSize
    omega

/-- The call that grows the heap maps what it says; other calls move the break inside it. -/
lemma sysBrk_heapOk (h : HeapOk m b) (harg : n = 0 ∨ heapBase ≤ n ∧ n ≤ lowerHalf)
    (hfit : b.mappedBrkPage < n → PagesFit m b.mappedBrkPage (brkPages b n)) :
    HeapOk (sysBrk m b n).2.1 (sysBrk m b n).2.2 := by
  rcases sysBrk_cases m b n with he | ⟨h0, hle, he⟩ | ⟨hlt, phys, m1, ha, he⟩
  · rwa [he]
  · obtain ⟨hlo, -⟩ := harg.resolve_left h0
    rw [he]
    exact ⟨h.tablesOk, h.aligned, h.lower, hlo, hle, h.walk⟩
  · obtain ⟨hlo, hhi⟩ := harg.resolve_left (by omega)
    obtain ⟨hge, hup⟩ := pageAlign_bounds hhi
    have h1 := alloc_remaps h.tablesOk (hfit hlt).1 ha
    obtain ⟨i, -, hi, hrun, -⟩ := h.tablesOk.allocPages_data (hfit hlt).1 ha
    obtain ⟨T2, h2, hw⟩ := mapUserPages_remaps h1.grows.shape b.mappedBrkPage phys (brkPages b n)
      (h1.grows.fits_tables (by rw [Finset.empty_union]; exact (hfit hlt).2 ⟨i, hi, hrun⟩))
    rw [he]
    refine ⟨h2.grows.shape.tablesOk, dvd_pageAlign n, hup, hlo, hge, fun v hv1 hv2 hnone => ?_⟩
    rw [hw v, Option.or_eq_none_iff] at hnone
    by_cases hold : v < b.mappedBrkPage
    · exact h.walk v hv1 hold ((h1.walk v id).symm.trans hnone.2)
    · exact userMap_ne_none.mpr
        (onRun_of_grown h.aligned h.lower hlt hhi (not_lt.mp hold) hv2) hnone.1

/-! ## The other steps leave the globals alone -/

lemma wait4Call_brk (k : Kernel) (pid : ℤ) (statusPtr : ℕ) :
    (wait4Call k pid statusPtr).brk = k.brk := by
  have h : (processWait4 k pid statusPtr).2.brk = k.brk := by
    unfold processWait4
    dsimp only
    split
    · rfl
    · split_ifs <;> rfl
  unfold wait4Call
  split
  all_goals
    rename_i heq
    rw [heq] at h
    exact h

lemma processExit_brk (k : Kernel) (code : ℤ) : (processExit k code).brk = k.brk := by
  have h1 : ∀ k : Kernel, (exitFinish k code).brk = k.brk := by
    intro k
    unfold exitFinish
    dsimp only
    split_ifs <;> rfl
  have h2 : ∀ k : Kernel, (exitClearTid k).brk = k.brk := by
    intro k
    unfold exitClearTid
    split_ifs <;> rfl
  calc (processExit k code).brk = (exitFinish (exitClearTid (exitFds k)) code).brk := rfl
    _ = (exitClearTid (exitFds k)).brk := h1 _
    _ = (exitFds k).brk := h2 _
    _ = k.brk := rfl

lemma handleFault_brk (k : Kernel) (faultAddr errorCode : ℕ) :
    (handleFault k faultAddr errorCode).brk = k.brk := by
  unfold handleFault segfault
  dsimp only
  split_ifs
  · rfl
  · exact processExit_brk _ _
  · rfl

lemma processFork_brk (k : Kernel) (frame : ContextFrame) :
    (processFork k frame).2.brk = k.brk := by
  unfold processFork
  split <;> rfl

lemma processClone_brk (k : Kernel) (flags childStack ptid ctid newtls : ℕ) (frame : ContextFrame) :
    (processClone k flags childStack ptid ctid newtls frame).2.brk = k.brk := by
  unfold processClone
  split_ifs
  · unfold cloneThread
    split <;> rfl
  · exact processFork_brk k frame

lemma processExecve_brk (k : Kernel) (path argv0 : Option (List UInt8)) :
    (processExecve k path argv0).2.brk = k.brk := by
  unfold processExecve
  split
  · rfl
  split
  · rfl
  split <;> rfl

/-- Only `SYS_BRK` moves the break. -/
lemma doSyscall_brk (k : Kernel) (c : Call) (hc : ∀ newBrk, c ≠ .brk newBrk) :
    (doSyscall k c).brk = k.brk := by
  cases c with
  | fork frame => exact processFork_brk k frame
  | clone flags childStack ptid ctid newtls frame => exact processClone_brk k _ _ _ _ _ frame
  | execve path argv0 => exact processExecve_brk k path argv0
  | exit code => exact processExit_brk k code
  | wait4 pid statusPtr => exact wait4Call_brk k pid statusPtr
  | futexWait uaddr val word =>
    unfold doSyscall futexWait
    dsimp only
    split_ifs <;> rfl
  | nanosleep sec nsec =>
    unfold doSyscall sysNanosleep
    dsimp only
    split_ifs <;> rfl
  | kill pid sig =>
    unfold doSyscall processKill
    dsimp only
    split <;> rfl
  | brk newBrk => exact absurd rfl (hc newBrk)
  | futexWake _ _ | setTidAddress _ | socket _ _ _ | close _ | shutdown _ | mmap _ _ _ _
  | munmap _ _ | mprotect _ _ _ => rfl

lemma doSyscall_moves_brk (k : Kernel) (newBrk : ℕ) :
    (doSyscall k (.brk newBrk)).brk = (sysBrk k.mem k.brk newBrk).2.2 := rfl

/-- Only `SYS_BRK` moves the break. -/
lemma kstep_brk (k : Kernel) (e : KEvent) (he : ∀ newBrk, e ≠ .call (.brk newBrk)) :
    (kstep k e).brk = k.brk := by
  unfold kstep
  by_cases hhalt : k.halted = true
  · rw [if_pos hhalt]
  rw [if_neg hhalt]
  cases e with
  | tick frame =>
    dsimp only
    unfold schedulerTick
    split_ifs <;> rfl
  | resume =>
    dsimp only
    unfold resume
    split
    · rfl
    · split_ifs <;> rfl
    · split_ifs <;> rfl
    · exact wait4Call_brk k _ _
    · rfl
  | create info name =>
    dsimp only
    unfold processCreateFromElf
    split <;> rfl
  | pageFault faultAddr errorCode =>
    dsimp only
    split_ifs
    · exact handleFault_brk k faultAddr errorCode
    · rfl
  | call c =>
    dsimp only
    split_ifs
    · exact doSyscall_brk k c fun newBrk hc => he newBrk (hc ▸ rfl)
    · rfl

/-! ## Runs -/

/-- The condition on a step: the frames it needs are there and no table is overwritten or
freed; `SYS_BRK` is called by process `P` only, with 0 or an address from the base of the heap
on; no other step touches a page of the heap. -/
def BreakSafe (P : ℤ) (k : Kernel) (e : KEvent) : Prop :=
  TablesSafe k e ∧ match e with
    | .call (.brk newBrk) =>
      k.current.pid = P ∧ (newBrk = 0 ∨ heapBase ≤ newBrk ∧ newBrk ≤ lowerHalf)
    | e => ∀ v, heapBase ≤ v → v < k.brk.mappedBrkPage → ¬ Touched k e (pageKey v)

/-- The invariant: process `P` knows the break, and no other process has a history, as long as
`P` has not been created. -/
structure BreakInv (P : ℤ) (s : BreakRun) : Prop where
  pids : PidInv s.kernel
  heap : HeapOk s.kernel.mem s.kernel.brk
  own : ownBreak (s.history P) = s.kernel.brk.currentBrk
  known : (∀ pid, s.history pid = []) ∨ P < s.kernel.nextPid

variable {P : ℤ} {s : BreakRun}

lemma kstep_call (hrun : k.halted = false) (hpos : k.pos k.currentProcIdx = .user) (c : Call) :
    kstep k (.call c) = doSyscall k c := by
  unfold kstep
  rw [if_neg (by simp [hrun])]
  dsimp only
  rw [if_pos hpos]

/-- `SYS_BRK` by the owner keeps the invariant, whether it finds frames or not. -/
lemma breakStep_brk (h : BreakInv P s) {newBrk : ℕ}
    (hsafe : BreakSafe P s.kernel (.call (.brk newBrk))) :
    BreakInv P (breakStep s (.call (.brk newBrk))) := by
  obtain ⟨htab, rfl, harg⟩ := hsafe
  have hlt : s.kernel.current.pid < s.kernel.nextPid := h.pids.lt_nextPid _
  have hpids := kstep_pidInv h.pids (.call (.brk newBrk))
  by_cases hrun : s.kernel.halted = false ∧ s.kernel.pos s.kernel.currentProcIdx = .user
  · have hk := kstep_call hrun.1 hrun.2 (.brk newBrk)
    have hb : recordBreak s.kernel s.history (.call (.brk newBrk)) =
        Function.update s.history s.kernel.current.pid (s.history s.kernel.current.pid ++
          [(newBrk, (sysBrk s.kernel.mem s.kernel.brk newBrk).1)]) := if_pos hrun
    unfold breakStep
    rw [hb]
    refine ⟨hpids, ?_, ?_, Or.inr ?_⟩
    · rw [hk]
      exact sysBrk_heapOk h.heap harg htab
    · dsimp only
      rw [Function.update_self, ownBreak_concat, hk]
      exact (sysBrk_currentBrk _ _ _).symm
    · exact hlt.trans_le (kstep_nextPid _ _).1
  · have hk : kstep s.kernel (.call (.brk newBrk)) = s.kernel := by
      unfold kstep
      by_cases hh : s.kernel.halted = true
      · rw [if_pos hh]
      · rw [if_neg hh]
        dsimp only
        rw [if_neg fun hp => hrun ⟨by simpa using hh, hp⟩]
    have hb : recordBreak s.kernel s.history (.call (.brk newBrk)) = s.history := if_neg hrun
    unfold breakStep
    rwa [hk, hb]

/-- Without `SYS_BRK` the histories stay, or a new pid inherits one or starts with none. -/
lemma recordBreak_of_ne (k : Kernel) (history : ℤ → List (ℕ × ℕ)) {e : KEvent}
    (he : ∀ newBrk, e ≠ .call (.brk newBrk)) :
    recordBreak k history e = history ∨
    recordBreak k history e = Function.update history k.nextPid (history k.current.pid) ∨
    recordBreak k history e = Function.update history k.nextPid [] := by
  unfold recordBreak
  split
  · exact absurd rfl (he _)
  · exact Or.inr (Or.inl rfl)
  · exact Or.inr (Or.inl rfl)
  · exact Or.inr (Or.inr rfl)
  · exact Or.inl rfl

/-- A pid that is in use is not new, so its history stays. -/
lemma recordBreak_keeps (history : ℤ → List (ℕ × ℕ)) {e : KEvent}
    (he : ∀ newBrk, e ≠ .call (.brk newBrk))
    (h : (∀ pid, history pid = []) ∨ P < k.nextPid) :
    recordBreak k history e P = history P ∧
      ((∀ pid, recordBreak k history e pid = []) ∨ P < k.nextPid) := by
  have hupd : ∀ x, ((∀ pid, history pid = []) → x = []) →
      Function.update history k.nextPid x P = history P ∧
        ((∀ pid, Function.update history k.nextPid x pid = []) ∨ P < k.nextPid) := by
    intro x hx
    rcases h with hnil | hlt
    · have hsame : Function.update history k.nextPid x = history := by
        rw [hx hnil, ← hnil k.nextPid, Function.update_eq_self]
      rw [hsame]
      exact ⟨rfl, Or.inl hnil⟩
    · exact ⟨Function.update_of_ne hlt.ne _ _, Or.inr hlt⟩
  rcases recordBreak_of_ne k history he with hr | hr | hr <;> rw [hr]
  · exact ⟨rfl, h⟩
  · exact hupd _ fun hnil => hnil _
  · exact hupd _ fun _ => rfl

/-- Every step that meets its condition keeps the invariant. -/
lemma breakStep_inv (s : BreakRun) (e : KEvent) (h : BreakInv P s)
    (hsafe : BreakSafe P s.kernel e) : BreakInv P (breakStep s e) := by
  by_cases he : ∃ newBrk, e = .call (.brk newBrk)
  · obtain ⟨newBrk, rfl⟩ := he
    exact breakStep_brk h hsafe
  have hne : ∀ newBrk, e ≠ .call (.brk newBrk) := fun newBrk hc => he ⟨newBrk, hc⟩
  have hfar : ∀ v, heapBase ≤ v → v < s.kernel.brk.mappedBrkPage →
      ¬ Touched s.kernel e (pageKey v) := by
    obtain ⟨-, hfar⟩ := hsafe
    split at hfar
    · exact absurd rfl (hne _)
    · exact hfar
  have hbrk := kstep_brk s.kernel e hne
  obtain ⟨hown, hknown⟩ := recordBreak_keeps s.history hne h.known
  refine ⟨kstep_pidInv h.pids e, ?_, ?_, ?_⟩
  · change HeapOk (kstep s.kernel e).mem (kstep s.kernel e).brk
    rw [hbrk]
    exact h.heap.of_keepsTables (kstep_tables h.heap.tablesOk e hsafe.1) hfar
  · change ownBreak (recordBreak s.kernel s.history e P) = (kstep s.kernel e).brk.currentBrk
    rw [hown, hbrk]
    exact h.own
  · exact hknown.imp id fun hlt => hlt.trans_le (kstep_nextPid s.kernel e).1

/-- The invariant gives what the owner of the heap sees. -/
lemma BreakInv.ok (h : BreakInv P s) : BreakOk P s where
  own := h.own.symm
  base_le := h.heap.base_le
  le_mapped := h.heap.le_mapped
  mapped v h1 h2 := by
    have hlow := h.heap.lower
    have hcan : Canonical v := Or.inl (by unfold lowerHalf at hlow; omega)
    unfold Mm.translate
    rw [if_pos hcan]
    exact Option.isSome_iff_ne_none.mpr (h.heap.walk v h1 h2)

/-- The first program, with no history. -/
def breakBoot (mem : Mem) (files : Files) (ramdisk : RamdiskAt) (info : ElfInfo)
    (name : List UInt8) : BreakRun := ⟨boot mem files ramdisk info name, fun _ => []⟩

lemma boot_brk (mem : Mem) (files : Files) (ramdisk : RamdiskAt) (info : ElfInfo)
    (name : List UInt8) : (boot mem files ramdisk info name).brk = Brk.init := by
  unfold boot processJumpToUser processCreateFromElf
  split <;> rfl

/-- The first program starts with an empty heap at its base. -/
lemma breakBoot_inv {mem : Mem} (hok : TablesOk mem) (files : Files) (ramdisk : RamdiskAt)
    (info : ElfInfo) (name : List UInt8)
    (hboot : TablesSafe (processInit mem files ramdisk) (.create info name)) :
    BreakInv P (breakBoot mem files ramdisk info name) where
  pids := boot_pidInv mem files ramdisk info name
  heap := by
    have hk := processCreateFromElf_tables (k := processInit mem files ramdisk) hok info name hboot
    change HeapOk (boot mem files ramdisk info name).mem (boot mem files ramdisk info name).brk
    rw [boot_brk, boot_mem]
    refine ⟨hk.tablesOk, by decide, by decide, le_rfl, le_rfl, fun v h1 h2 => ?_⟩
    exact absurd (h1.trans_lt h2) (lt_irrefl heapBase)
  own := (congrArg Brk.currentBrk (boot_brk mem files ramdisk info name)).symm
  known := Or.inl fun _ => rfl

/-- The kernel just booted, with no history. -/
def freshBreak : BreakRun := ⟨freshKernel, fun _ => []⟩

/-- The first process forks and moves its break by one page. -/
def forkThenGrow : List KEvent := [.call (.fork someFrame), .call (.brk 0x600000001000)]

/-- The kernel after the fork. -/
def freshForked : Kernel := kstep freshKernel (.call (.fork someFrame))

lemma freshForked_memory : TablesOk freshForked.mem ∧ 31000 ≤ freeFrames freshForked.mem := by
  obtain ⟨hpool, hfree, -⟩ := freshKernel_memory
  obtain ⟨h1, h2⟩ := kstep_fork_memory hpool.tablesOk someFrame
  exact ⟨h1, by unfold freshForked; omega⟩

lemma freshForked_brk : freshForked.brk = Brk.init := kstep_brk freshKernel _ fun _ h => by cases h

lemma freshForked_fits : PagesFit freshForked.mem freshForked.brk.mappedBrkPage
    (brkPages freshForked.brk 0x600000001000) := by
  obtain ⟨-, hfree⟩ := freshForked_memory
  rw [freshForked_brk]
  change PagesFit freshForked.mem heapBase 1
  refine ⟨by decide, fun _ => ?_⟩
  have := (missing_card_le (tables freshForked.mem) (userTables heapBase 1)).trans
    (card_userTables_le _ 1)
  omega

lemma freshBreak_forks : (breakStep freshBreak (.call (.fork someFrame))).kernel = freshForked := by
  rw [breakStep_kernel]
  unfold freshBreak freshForked
  rfl

/-- There are frames for the page that the first program asks for after its fork. -/
lemma forkThenGrow_safe :
    Runs.StepsMeet breakStep (fun s e => BreakSafe 1 s.kernel e) freshBreak forkThenGrow := by
  refine ⟨⟨trivial, fun v _ _ => id⟩, ?_, trivial⟩
  beta_reduce
  rw [freshBreak_forks]
  exact ⟨fun _ => freshForked_fits, by decide +kernel, Or.inr (by decide)⟩

/-- With a frame left, a page is added to the heap. -/
lemma sysBrk_one_page (m : Mem) (hfree : 0 < freeFrames m) :
    (sysBrk m Brk.init 0x600000001000).2.2 = ⟨0x600000001000, 0x600000001000⟩ := by
  obtain ⟨a, m1, ha⟩ := allocPage_isSome hfree
  rcases sysBrk_cases m Brk.init 0x600000001000 with he | ⟨-, hle, -⟩ | ⟨-, phys, m2, -, he⟩
  · -- the frame is there
    exfalso
    unfold sysBrk at he
    rw [if_neg (by decide), if_pos (by decide)] at he
    dsimp only at he
    have hpages : u64 (pageAlign 0x600000001000 + (0x10000000000000000 - Brk.init.mappedBrkPage)) /
        pageSize = 1 := by decide
    rw [hpages, show allocPages m 1 = _ from ha] at he
    exact absurd (congrArg Prod.fst he) (show (0x600000001000 : ℕ) ≠ 0x600000000000 by decide)
  · exact absurd hle (by decide)
  · rw [he]
    rfl

end Bangos.Proc
