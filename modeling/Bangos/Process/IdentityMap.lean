import Bangos.Lib.Runs
import Bangos.Mm.BootTables
import Bangos.Process.KernelTables

/-!
# The kernel's identity map

The kernel reaches page tables, kernel stacks and frames at their physical addresses, through
the identity map of the pool.  User memory is mapped in the same page table, and nothing keeps
a process from asking for pages there.  As long as no step does, and each keeps the tables
sound, the pool stays mapped to itself.
-/

namespace Bangos.Proc

open Bangos.Mm Bangos.Fs Bangos.Net Bangos.Loader Bangos.Syscall

variable {m m' : Mem} {k : Kernel}

/-- **The pool is mapped to itself.** -/
def IdentityMapped (m : Mem) : Prop :=
  ∀ v, physMemoryBase ≤ v → v < physMemoryBase + maxPages * pageSize → physOf m v = some v

/-- The pages of the pool, by their keys. -/
def InPool (key : ℕ) : Prop := 0x2000 ≤ key ∧ key < 0xA000

instance (key : ℕ) : Decidable (InPool key) := inferInstanceAs (Decidable (_ ∧ _))

lemma pool_bounds {v : ℕ} (h1 : physMemoryBase ≤ v) (h2 : v < physMemoryBase + maxPages * pageSize) :
    0x2000000 ≤ v ∧ v < 0xA000000 := by
  unfold physMemoryBase at h1 h2
  unfold maxPages pageSize at h2
  omega

lemma inPool_pageKey {v : ℕ} (h1 : 0x2000000 ≤ v) (h2 : v < 0xA000000) : InPool (pageKey v) := by
  unfold InPool pageKey
  omega

/-- The identity map depends on the frames of the pages of the pool only. -/
lemma IdentityMapped.of_frames (h : IdentityMapped m)
    (hframe : ∀ v, InPool (pageKey v) → (walk m' v).map Pte.frame = (walk m v).map Pte.frame) :
    IdentityMapped m' := by
  intro v h1 h2
  have hv := h v h1 h2
  obtain ⟨hlo, hhi⟩ := pool_bounds h1 h2
  have hcan : Canonical v := Or.inl (by omega)
  have hf := hframe v (inPool_pageKey hlo hhi)
  unfold physOf Mm.translate at hv ⊢
  rw [if_pos hcan] at hv ⊢
  have hmap : ∀ o : Option Pte, o.map (fun x => x.frame + v % 4096) =
      (o.map Pte.frame).map (· + v % 4096) := fun o => by rw [Option.map_map]; rfl
  rw [hmap, hf, ← hmap, hv]

/-! ## Steps -/

/-- The condition on a step: it meets the condition under which the tables stay sound, and it
touches no page of the pool.  `SYS_MPROTECT` changes rights only and is unrestricted. -/
def IdentitySafe (k : Kernel) : KEvent → Prop
  | .call (.mprotect _ _ _) => True
  | e => TablesSafe k e ∧ ∀ key, Touched k e key → ¬ InPool key

/-- The tables are sound and the pool is mapped to itself. -/
structure PoolInv (m : Mem) : Prop where
  tablesOk : TablesOk m
  identity : IdentityMapped m

lemma PoolInv.of_keepsTables {P : ℕ → Prop} (h : PoolInv m) (hk : KeepsTables m m' P)
    (hP : ∀ key, P key → ¬ InPool key) : PoolInv m' :=
  ⟨hk.tablesOk, h.identity.of_frames fun v hv => by rw [hk.walk v fun hp => hP _ hp hv]⟩

/-- A step that meets its condition keeps the identity map. -/
lemma kstep_poolInv (k : Kernel) (e : KEvent) (h : PoolInv k.mem) (hsafe : IdentitySafe k e) :
    PoolInv (kstep k e).mem := by
  by_cases hmp : ∃ addr len prot, e = .call (.mprotect addr len prot)
  · obtain ⟨addr, len, prot, rfl⟩ := hmp
    unfold kstep
    by_cases hhalt : k.halted = true
    · rwa [if_pos hhalt]
    rw [if_neg hhalt]
    dsimp only
    split_ifs
    · have hs := sysMprotect_sameFrames h.tablesOk k.current.vm addr len prot
      exact ⟨hs.shape.tablesOk, h.identity.of_frames fun v _ => hs.frame v⟩
    · exact h
  · have hboth : TablesSafe k e ∧ ∀ key, Touched k e key → ¬ InPool key := by
      unfold IdentitySafe at hsafe
      split at hsafe
      · exact absurd ⟨_, _, _, rfl⟩ hmp
      · exact hsafe
    exact h.of_keepsTables (kstep_tables h.tablesOk e hboth.1) hboth.2

/-! ## Runs -/

lemma boot_mem (mem : Mem) (files : Files) (ramdisk : RamdiskAt) (info : ElfInfo)
    (name : List UInt8) : (boot mem files ramdisk info name).mem =
      (processCreateFromElf (processInit mem files ramdisk) info name).2.mem := rfl

lemma boot_poolInv {mem : Mem} (h : PoolInv mem) (files : Files) (ramdisk : RamdiskAt)
    (info : ElfInfo) (name : List UInt8)
    (hsafe : IdentitySafe (processInit mem files ramdisk) (.create info name)) :
    PoolInv (boot mem files ramdisk info name).mem := by
  rw [boot_mem]
  exact PoolInv.of_keepsTables (m := mem) h
    (processCreateFromElf_tables (k := processInit mem files ramdisk) h.tablesOk info name hsafe.1)
    hsafe.2

lemma mmInit_poolInv (phys : ℕ → UInt8) (oob : ℕ → Bool) : PoolInv (mmInit phys oob) := by
  obtain ⟨hok, -, hwalk⟩ := mmInit_spec phys oob
  refine ⟨hok, fun v h1 h2 => ?_⟩
  obtain ⟨-, hhi⟩ := pool_bounds h1 h2
  have hcan : Canonical v := Or.inl (by omega)
  unfold physOf Mm.translate
  rw [if_pos hcan, hwalk v (by omega), Option.map_some]
  unfold frameOf
  congr 1
  dsimp only
  omega

lemma card_stackTables_le : stackTables.card ≤ 48 := card_userTables_le stackVirtBase userStackPages

lemma onStack_not_inPool {key : ℕ} (h : OnStack key) : ¬ InPool key := by
  obtain ⟨i, hi, rfl⟩ := h
  unfold userStackPages at hi
  unfold InPool pageKey pageAt u64 stackVirtBase userStackTop userStackPages pageSize
  omega

/-- The first program can be created when there are frames. -/
lemma create_safe {mem : Mem} (h : 68 ≤ freeFrames mem) (files : Files) (ramdisk : RamdiskAt)
    (info : ElfInfo) (name : List UInt8) :
    IdentitySafe (processInit mem files ramdisk) (.create info name) := by
  refine ⟨?_, fun key hkey => onStack_not_inPool hkey⟩
  have h2 := (missing_card_le (tables mem) stackTables).trans card_stackTables_le
  unfold TablesSafe kernelStackPages userStackPages processInit
  dsimp only
  omega

lemma processInit_slot (mem : Mem) (files : Files) (ramdisk : RamdiskAt) :
    ((List.finRange maxProcesses).find?
      fun i => !((processInit mem files ramdisk).procs i).active) = some 0 := rfl

/-- The start of the first program maps its stack to frames that it takes. -/
lemma boot_remaps {mem : Mem} (hok : TablesOk mem) (hfree : maxPages < freeFrames mem + 2000)
    (files : Files) (ramdisk : RamdiskAt) (info : ElfInfo) (name : List UInt8) :
    ∃ T', Remaps mem (tables mem) (boot mem files ramdisk info name).mem T' stackTables 20
        OnStack ∧
      ∀ v, OnStack (pageKey v) → ∃ i < maxPages,
        (boot mem files ramdisk info name).mem.pageBitmap i = true ∧
        walk (boot mem files ramdisk info name).mem v = some ⟨frameAddr i, true, true⟩ := by
  have hslot := processInit_slot mem files ramdisk
  have hcard := (missing_card_le (tables mem) stackTables).trans card_stackTables_le
  rw [boot_mem]
  generalize hk : processInit mem files ramdisk = k at hslot
  have hmem : k.mem = mem := by rw [← hk]; rfl
  rw [← hmem] at hok hfree hcard ⊢
  obtain ⟨T', hr, hstack⟩ := processCreateFromElf_remaps hok info name hslot (by
    unfold maxPages at hfree
    unfold kernelStackPages userStackPages
    omega)
  exact ⟨T', hr, hstack (processCreateFromElf_stackPhysBase k info name hslot hfree)⟩

/-- The start of the first program keeps the pages out of the reach of the allocator. -/
lemma boot_keepsPage {mem : Mem} {b : ℕ} (hok : TablesOk mem)
    (hfree : maxPages < freeFrames mem + 2000) (files : Files) (ramdisk : RamdiskAt) (info : ElfInfo)
    (name : List UInt8) (hb : OutOfReach mem (tables mem) b) :
    KeepsPage mem (boot mem files ramdisk info name).mem b := by
  have hcard := (missing_card_le (tables mem) stackTables).trans card_stackTables_le
  rw [boot_mem]
  refine processCreateFromElf_keepsPage (k := processInit mem files ramdisk) hok info name
    (processInit_slot mem files ramdisk) ?_ hfree hb
  change _ ≤ freeFrames mem
  unfold maxPages at hfree
  unfold kernelStackPages userStackPages
  omega

/-- The memory after the start of the first program: sound tables, at most 68 frames taken, and
none given back. -/
lemma boot_memory {mem : Mem} (h : PoolInv mem) (hfree : 68 ≤ freeFrames mem) (files : Files)
    (ramdisk : RamdiskAt) (info : ElfInfo) (name : List UInt8) :
    PoolInv (boot mem files ramdisk info name).mem ∧
      freeFrames mem ≤ freeFrames (boot mem files ramdisk info name).mem + 68 ∧
      ∀ i, mem.pageBitmap i = true →
        (boot mem files ramdisk info name).mem.pageBitmap i = true := by
  have hsafe := create_safe hfree files ramdisk info name
  obtain ⟨T', hr, -⟩ := processCreateFromElf_remaps (k := processInit mem files ramdisk) h.tablesOk
    info name (processInit_slot mem files ramdisk) hsafe.1
  refine ⟨boot_poolInv h _ _ _ _ hsafe, ?_, fun i hi => ?_⟩
  · have h1 := hr.grows.count
    have h2 := (missing_card_le (tables mem) stackTables).trans card_stackTables_le
    unfold kernelStackPages userStackPages at h1
    rw [boot_mem]
    change freeFrames mem ≤ _ at h1
    omega
  · rw [boot_mem]
    exact hr.grows.held hi

/-- The memory of the kernel just booted: the root of the tables is in the first frame. -/
lemma freshKernel_memory :
    PoolInv freshKernel.mem ∧ 32000 ≤ freeFrames freshKernel.mem ∧
      freshKernel.mem.pageBitmap 0 = true := by
  obtain ⟨mem, hmem⟩ : ∃ mem, mem = mmInit (fun _ => 0) fun _ => false := ⟨_, rfl⟩
  have hpool : PoolInv mem := hmem ▸ mmInit_poolInv _ _
  have hcount : freeFrames mem + 6 = maxPages := hmem ▸ (mmInit_spec _ _).2.1
  have hroot : mem.kernelPml4 = physMemoryBase := hmem ▸ mmInit_kernelPml4 _ _
  unfold maxPages at hcount
  unfold freshKernel
  rw [← hmem]
  obtain ⟨h1, h2, h3⟩ := boot_memory hpool (by omega)
    ⟨socketSubsystemInit (tcpInit 0 fun _ => true) fun _ => [], fun _ => 0⟩
    ⟨0, 0, false⟩ ⟨0x400000, 0x400000, 0x401000, []⟩ []
  refine ⟨h1, by omega, h3 0 ?_⟩
  obtain ⟨x, -, hx, hb⟩ := hpool.tablesOk.held hpool.tablesOk.root
  rw [hroot] at hx
  obtain rfl : x = 0 := frameAddr_inj hx.symm
  exact hb

/-- One page at an address the process leaves to the kernel to choose. -/
def mapOnePage : KEvent := .call (.mmap 0 0x1000 3 0x22)

/-- A page that is mapped on demand of `SYS_MMAP` gets a frame that was free. -/
lemma walk_mmapPopulate_one (h : TablesOk m) (virt : ℕ) (hfree : 4 ≤ freeFrames m) :
    ∃ i < maxPages, m.pageBitmap i = false ∧
      walk (mmapPopulate m virt 1) (pageAt virt 0) = some ⟨frameAddr i, true, true⟩ := by
  obtain ⟨a, m1, ha⟩ := allocPage_isSome (m := m) (by omega)
  obtain ⟨i, rfl, hi, hrun, -⟩ := h.allocPages_data (by decide) ha
  have h1 := alloc_remaps h (by decide) (show allocPages m 1 = _ from ha)
  obtain ⟨T2, -, hw⟩ := mapUserPages_spec h1.grows.shape virt (frameAddr i) 1 (by
    have hc := (missing_card_le (tables m) (userTables virt 1)).trans (card_userTables_le virt 1)
    have hcount := freeFrames_allocPages (by decide) (show allocPages m 1 = _ from ha)
    omega)
  refine ⟨i, by omega, hrun i le_rfl (by omega), ?_⟩
  have hm : mmapPopulate m virt 1 = mapUserPages m1 virt (frameAddr i) 1 := by
    unfold mmapPopulate
    rw [show allocPages m 1 = _ from ha]
  have hne : userMap virt (frameAddr i) 1 (pageAt virt 0) ≠ none :=
    userMap_ne_none.mpr ⟨0, Nat.one_pos, rfl⟩
  obtain ⟨x, hx⟩ := Option.ne_none_iff_exists'.mp hne
  obtain ⟨j, hj, -, rfl⟩ := userMap_frameAddr hi hx
  obtain rfl : j = 0 := by omega
  rw [hm, hw, hx]
  rfl

/-- One page at the address of the root of the page tables, with `MAP_FIXED`. -/
def mapOverRoot : KEvent := .call (.mmap 0x2000000 0x1000 3 0x32)

/-- A fixed mapping that finds a slot for its area populates its range. -/
lemma kstep_fixed_mem (hrun : k.halted = false) (hpos : k.pos k.currentProcIdx = .user)
    (hcreate : (vmaCreate k.current.vm.vmas 0x2000000 0x2001000 3 0x32).1.isSome = true) :
    (kstep k mapOverRoot).mem = mmapPopulate k.mem 0x2000000 1 := by
  rcases hc : vmaCreate k.current.vm.vmas 0x2000000 0x2001000 3 0x32 with ⟨r, vs⟩
  rw [hc] at hcreate
  obtain ⟨i, rfl⟩ := Option.isSome_iff_exists.mp hcreate
  have hmem : (kstep k mapOverRoot).mem =
      (sysMmap k.mem k.current.vm 0x2000000 0x1000 3 0x32).2.1 := by
    unfold kstep mapOverRoot
    rw [if_neg (by simp [hrun])]
    dsimp only
    rw [if_pos hpos]
    rfl
  have hok : mmapAddr k.current.vm 0x2000000 0x1000 0x32 = .ok (0x2000000, k.current.vm) := rfl
  rw [hmem]
  unfold sysMmap
  rw [if_neg (by decide), show pageAlign 0x1000 = 0x1000 from rfl]
  dsimp only
  rw [hok]
  dsimp only
  rw [show u64 (0x2000000 + 0x1000) = 0x2001000 from rfl, show vmaProtOf 3 = 3 from rfl,
    show vmaFlagsOf 0x32 = 0x32 from rfl, hc]
  rfl

end Bangos.Proc
