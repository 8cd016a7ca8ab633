import Bangos.Loader.LoadTables
import Bangos.Mm.AreaPages
import Bangos.Process.Steps

/-!
# What the steps of the kernel do to the page tables

Creating, forking and replacing a process, switching to one, and the memory calls all work on
the one page table of the machine.  For each this file says which pages it maps anew, and
under which condition on the state before it the tables stay sound: there are frames for the
tables it misses, and what it writes physically is no table.
-/

namespace Bangos.Proc

open Bangos.Mm Bangos.Fs Bangos.Net Bangos.Loader Bangos.Syscall ByteMem

variable {m m' : Mem} {T T' : List ℕ → Option ℕ} {F : Finset (List ℕ)} {a l n count : ℕ}
  {r : Option ℕ} {k : Kernel}

/-- The tables of `m'` are sound, and it translates the pages outside `P` as `m` does. -/
structure KeepsTables (m m' : Mem) (P : ℕ → Prop) : Prop where
  tablesOk : TablesOk m'
  walk : ∀ v, ¬ P (pageKey v) → walk m' v = walk m v

lemma KeepsTables.refl (h : TablesOk m) {P : ℕ → Prop} : KeepsTables m m P := ⟨h, fun _ _ => rfl⟩

lemma KeepsTables.of_remaps {P : ℕ → Prop} (h : Remaps m T m' T' F n P) : KeepsTables m m' P :=
  ⟨h.grows.shape.tablesOk, h.walk⟩

/-! ## Writing to stacks -/

/-- The bytes lie below the pool, or in one frame that is given out and is no table. -/
def Spot (m : Mem) (T : List ℕ → Option ℕ) (a l : ℕ) : Prop :=
  a + l ≤ physMemoryBase ∨ ∃ i, frameAddr i ≤ a ∧ a + l ≤ frameAddr (i + 1) ∧ Data m T i

lemma Spot.off (h : Shape m T) (hs : Spot m T a l) : Off T a l := by
  rcases hs with hlow | ⟨i, h1, h2, hd⟩
  · exact h.off_low hlow
  · refine h.off_data (c := 1) (fun x hx1 hx2 => ?_) h1 h2
    obtain rfl : x = i := by omega
    exact hd

lemma Spot.grows (hg : Grows m T m' T' F n) (hs : Spot m T a l) : Spot m' T' a l := by
  rcases hs with hlow | ⟨i, h1, h2, hd⟩
  · exact Or.inl hlow
  · exact Or.inr ⟨i, h1, h2, hg.data hd⟩

/-- The top of a stack just allocated; a null result is taken as an address. -/
lemma spot_alloc (h : Shape m T) (h0 : 0 < count) (hc : count ≤ 16)
    (ha : allocPages m count = (r, m')) (hl : l ≤ 4096) :
    Spot m' T (r.getD 0 + count * pageSize - l) l := by
  cases r with
  | none =>
    refine Or.inl ?_
    rw [Option.getD_none]
    unfold pageSize physMemoryBase
    omega
  | some phys =>
    obtain ⟨i, rfl, hi, -, hdata⟩ := h.allocPages_data (hc.trans (by decide)) ha
    refine Or.inr ⟨i + (count - 1), ?_, ?_, hdata _ (by omega) (by omega)⟩
    all_goals
      rw [Option.getD_some]
      unfold frameAddr physMemoryBase pageSize
      omega

/-- All of a stack just allocated. -/
lemma off_alloc (h : Shape m T) (hc : count ≤ 16) (ha : allocPages m count = (r, m')) :
    Off T (r.getD 0) (count * pageSize) := by
  cases r with
  | none =>
    refine h.off_low ?_
    rw [Option.getD_none]
    unfold pageSize physMemoryBase
    omega
  | some phys =>
    have hs := (h.allocPages (hc.trans (by decide)) ha).1
    obtain ⟨i, rfl, hi, -, hdata⟩ := h.allocPages_data (hc.trans (by decide)) ha
    refine hs.off_data hdata le_rfl ?_
    rw [Option.getD_some]
    unfold frameAddr
    rw [Nat.add_mul]
    omega

lemma putWords_of_not_mem (ws : List ℕ) (b : ℕ → UInt8) (a x : ℕ)
    (hx : x < a ∨ a + 8 * ws.length ≤ x) : putWords b a ws x = b x := by
  induction ws generalizing b a with
  | nil => rfl
  | cons w ws ih =>
    rw [List.length_cons] at hx
    rw [putWords, ih _ _ (by omega), putLe_apply_of_not_mem (by omega)]

lemma putBytes_of_not_mem (cs : List UInt8) (b : ℕ → UInt8) (a x : ℕ)
    (hx : x < a ∨ a + cs.length ≤ x) : putBytes b a cs x = b x := by
  induction cs generalizing b a with
  | nil => rfl
  | cons c cs ih =>
    rw [List.length_cons] at hx
    rw [putBytes, ih _ _ (by omega), Function.update_of_ne (by omega)]

lemma writeFrame_of_not_mem {x : ℕ} (f : ContextFrame) (hx : x < a ∨ a + contextFrameSize ≤ x) :
    (writeFrame m a f).phys x = m.phys x := by
  refine putWords_of_not_mem _ _ _ _ ?_
  have hlen : f.words.length = 22 := by simp [ContextFrame.words]
  rw [hlen]
  exact hx

lemma writeFrame_remaps (h : Shape m T) (f : ContextFrame) (hs : Spot m T a contextFrameSize) :
    Remaps m T (writeFrame m a f) T ∅ 0 noPage :=
  h.write_remaps (hs.off h) _ fun _ hx => writeFrame_of_not_mem f hx

lemma writeArgs_of_not_mem {x : ℕ} (name : List UInt8) (ha : 256 ≤ a)
    (hx : x < a - 256 ∨ a - 256 + 256 ≤ x) : (writeArgs m a name).phys x = m.phys x := by
  unfold writeArgs
  dsimp only
  have hlen : (kstrncpy name 63 ++ [0]).length ≤ 63 := by
    have : (kstrncpy name 63).length ≤ 62 := List.length_take_le ..
    rw [List.length_append, List.length_singleton]
    omega
  rw [putWords_of_not_mem _ _ _ _ (by simp only [List.length_cons, List.length_nil]; omega),
    putBytes_of_not_mem _ _ _ _ (by omega)]

lemma writeArgs_remaps (h : Shape m T) (name : List UInt8) (ha : 256 ≤ a)
    (hs : Spot m T (a - 256) 256) : Remaps m T (writeArgs m a name) T ∅ 0 noPage :=
  h.write_remaps (hs.off h) _ fun _ hx => writeArgs_of_not_mem name ha hx

/-! ## Creating and forking -/

/-- The tables on the way to the user stack. -/
def stackTables : Finset (List ℕ) := userTables stackVirtBase userStackPages

/-- The pages of the user stack. -/
def OnStack (key : ℕ) : Prop := OnRun stackVirtBase userStackPages key

lemma alloc_remaps (h : Shape m T) (hc : count ≤ maxPages) (ha : allocPages m count = (r, m')) :
    Remaps m T m' T ∅ count noPage := by
  have := h.allocPages_remaps hc
  rwa [ha] at this

/-- Pages mapped to frames just allocated: the frames were free, and are given out now. -/
lemma walk_of_alloc {virt v : ℕ} {x : Pte} (h : Shape m T) (hc : count ≤ maxPages)
    (ha : allocPages m count = (r, m')) (hr : r.getD 0 ≠ 0)
    (hx : userMap virt (r.getD 0) count v = some x) :
    ∃ i < maxPages, m'.pageBitmap i = true ∧ x = ⟨frameAddr i, true, true⟩ := by
  cases r with
  | none => exact absurd rfl hr
  | some phys =>
    obtain ⟨i, rfl, hi, -, hdata⟩ := h.allocPages_data hc ha
    obtain ⟨j, hj, -, rfl⟩ := userMap_frameAddr hi hx
    exact ⟨i + j, by omega, (hdata _ (by omega) (by omega)).1, rfl⟩

/-- `process_create_from_elf` with a free slot maps the pages of the user stack. -/
lemma processCreateFromElf_remaps {idx : Fin maxProcesses} (h : Shape k.mem T) (info : ElfInfo)
    (name : List UInt8)
    (hslot : ((List.finRange maxProcesses).find? fun i => !(k.procs i).active) = some idx)
    (hroom : (missing T stackTables).card + (kernelStackPages + userStackPages) ≤
      freeFrames k.mem) :
    ∃ T', Remaps k.mem T (processCreateFromElf k info name).2.mem T' stackTables
        (kernelStackPages + userStackPages) OnStack ∧
      (((processCreateFromElf k info name).2.procs idx).stackPhysBase ≠ 0 →
        ∀ v, OnStack (pageKey v) → ∃ i < maxPages,
          (processCreateFromElf k info name).2.mem.pageBitmap i = true ∧
          walk (processCreateFromElf k info name).2.mem v = some ⟨frameAddr i, true, true⟩) := by
  unfold processCreateFromElf
  rw [hslot]
  rcases hk : allocPages k.mem kernelStackPages with ⟨r1, m1⟩
  rcases hu : allocPages m1 userStackPages with ⟨r2, m2⟩
  dsimp only
  rw [hu]
  have h1 := alloc_remaps h (by decide) hk
  have hspot1 := spot_alloc (l := contextFrameSize) h (by decide) (by decide) hk (by decide)
  have h2 := alloc_remaps h1.grows.shape (by decide) hu
  have hspot2 := spot_alloc (l := 256) h1.grows.shape (by decide) (by decide) hu (by decide)
  have h12 := h1.quiet h2
  obtain ⟨T3, h3, hw3⟩ := mapUserPages_remaps h12.grows.shape stackVirtBase (r2.getD 0)
    userStackPages (h12.grows.fits_tables (by rw [Finset.empty_union]; exact hroom))
  have h4 := writeArgs_remaps h3.grows.shape name (by unfold userStackPages pageSize; omega)
    (hspot2.grows h3.grows)
  have h5 := writeFrame_remaps h4.grows.shape (startFrame info.entryPoint startRsp)
    (((hspot1.grows h2.grows).grows h3.grows).grows h4.grows)
  refine ⟨T3, ((h12.after h3).quiet h4).quiet h5, fun hbase v hv => ?_⟩
  rw [Function.update_self] at hbase
  obtain ⟨x, hx⟩ := Option.ne_none_iff_exists'.mp (userMap_ne_none.mpr hv)
  obtain ⟨i, hi, hbit, rfl⟩ := walk_of_alloc h1.grows.shape (by decide) hu hbase hx
  refine ⟨i, hi, h5.grows.held (h4.grows.held (h3.grows.held hbit)), ?_⟩
  rw [h5.walk v id, h4.walk v id, hw3 v, hx, Option.some_or]

/-- With few frames in use there are frames for a stack. -/
lemma allocPages_of_free (m : Mem) {n : ℕ} (h0 : 0 < n) (hc : n ≤ 16)
    (hfree : maxPages < freeFrames m + 2048) :
    ∃ i m', allocPages m n = (some (frameAddr i), m') := by
  have hle : maxPages / 16 ≤ maxPages / n := Nat.div_le_div_left hc h0
  rw [show maxPages / 16 = 2048 from rfl] at hle
  obtain ⟨r, hr, hrun⟩ := exists_freeRun (m := m) (n := n) (by omega)
  obtain ⟨i, -, m', hi⟩ := allocPages_isSome h0 hrun hr
  exact ⟨i, m', hi⟩

/-- With few frames in use a new process gets its stack. -/
lemma processCreateFromElf_stackPhysBase {idx : Fin maxProcesses} (k : Kernel) (info : ElfInfo)
    (name : List UInt8)
    (hslot : ((List.finRange maxProcesses).find? fun i => !(k.procs i).active) = some idx)
    (hfree : maxPages < freeFrames k.mem + 2000) :
    ((processCreateFromElf k info name).2.procs idx).stackPhysBase ≠ 0 := by
  unfold processCreateFromElf
  rw [hslot]
  rcases hk : allocPages k.mem kernelStackPages with ⟨r1, m1⟩
  dsimp only
  rw [Function.update_self]
  dsimp only
  have hcount := freeFrames_allocPages_ge (m := k.mem) (show kernelStackPages ≤ maxPages by decide)
  rw [hk] at hcount
  unfold kernelStackPages at hcount
  obtain ⟨i, m2, hi⟩ := allocPages_of_free m1 (n := userStackPages) (by decide) le_rfl
    (by dsimp only at hcount; omega)
  rw [hi, Option.getD_some]
  unfold frameAddr physMemoryBase
  omega

/-- With few frames in use a new process is set up in frames that were free: the pages that were out
of the reach of the allocator keep their contents. -/
lemma processCreateFromElf_keepsPage {idx : Fin maxProcesses} {b : ℕ} (h : Shape k.mem T)
    (info : ElfInfo) (name : List UInt8)
    (hslot : ((List.finRange maxProcesses).find? fun i => !(k.procs i).active) = some idx)
    (hroom : (missing T stackTables).card + (kernelStackPages + userStackPages) ≤
      freeFrames k.mem)
    (hfree : maxPages < freeFrames k.mem + 2000) (hb : OutOfReach k.mem T b) :
    KeepsPage k.mem (processCreateFromElf k info name).2.mem b := by
  have hcount := freeFrames_allocPages_ge (m := k.mem) (show kernelStackPages ≤ maxPages by decide)
  obtain ⟨p1, m1, hk⟩ := allocPages_of_free k.mem (n := kernelStackPages) (by decide)
    (by decide) (by omega)
  rw [hk] at hcount
  unfold kernelStackPages at hcount
  obtain ⟨p2, m2, hu⟩ := allocPages_of_free m1 (n := userStackPages) (by decide) le_rfl
    (by dsimp only at hcount; omega)
  unfold processCreateFromElf
  rw [hslot, hk]
  dsimp only
  rw [hu]
  dsimp only [Option.getD_some]
  have h1 := alloc_remaps h (by decide) hk
  have h12 := h1.quiet (alloc_remaps h1.grows.shape (by decide) hu)
  have hb1 := h1.grows.outOfReach hb
  have hfit : (missing T stackTables).card ≤ freeFrames m2 :=
    h12.grows.fits_tables (by rw [Finset.empty_union]; exact hroom)
  have hstacks := ((allocPages_keepsPage (by decide) hk hb.toUnfree).trans
    (allocPages_keepsPage (by decide) hu hb1.toUnfree)).trans
    (show KeepsPage m2 (mapUserPages m2 _ (frameAddr p2) _) b from
      mapUserPages_keepsPage h12.grows.shape (h12.grows.outOfReach hb) hfit)
  -- the page is apart from both stacks
  obtain ⟨i1, he1, hi1, hrun1, -⟩ := h.allocPages_data (by decide) hk
  obtain ⟨i2, he2, hi2, hrun2, -⟩ := h1.grows.shape.allocPages_data (by decide) hu
  obtain rfl := frameAddr_inj he1
  obtain rfl := frameAddr_inj he2
  have hapart1 := hb.toUnfree.apart hi1 hrun1
  have hapart2 := hb1.toUnfree.apart hi2 hrun2
  intro x hx1 hx2
  unfold kernelStackPages userStackPages pageSize at *
  rw [writeFrame_of_not_mem _ (by unfold contextFrameSize; omega),
    writeArgs_of_not_mem _ (by omega) (by omega)]
  exact hstacks x hx1 hx2

lemma processCreateFromElf_tables (h : Shape k.mem T) (info : ElfInfo) (name : List UInt8)
    (hroom : (missing T stackTables).card + (kernelStackPages + userStackPages) ≤
      freeFrames k.mem) :
    KeepsTables k.mem (processCreateFromElf k info name).2.mem OnStack := by
  cases hslot : (List.finRange maxProcesses).find? fun i => !(k.procs i).active with
  | none =>
    have hm : (processCreateFromElf k info name).2 = k := by
      unfold processCreateFromElf
      rw [hslot]
    rw [hm]
    exact .refl h.tablesOk
  | some idx =>
    obtain ⟨T', hr, -⟩ := processCreateFromElf_remaps h info name hslot hroom
    exact .of_remaps hr

/-- `process_fork` maps nothing, and takes the frames of two stacks. -/
lemma processFork_remaps (h : Shape k.mem T) (frame : ContextFrame) :
    Remaps k.mem T (processFork k frame).2.mem T ∅ (kernelStackPages + userStackPages) noPage := by
  unfold processFork
  split
  · exact h.remaps_refl.weaken (Nat.zero_le _)
  rcases hk : allocPages k.mem kernelStackPages with ⟨r1, m1⟩
  rcases hu : allocPages m1 userStackPages with ⟨r2, m2⟩
  dsimp only
  rw [hu]
  dsimp only
  have h1 := alloc_remaps h (by decide) hk
  have hspot1 := spot_alloc (l := contextFrameSize) h (by decide) (by decide) hk (by decide)
  have h2 := alloc_remaps h1.grows.shape (by decide) hu
  -- the copy of the parent's stack stays inside the new one
  have h3 : ∀ s, Remaps m2 T { m2 with
      phys := copy m2.phys (r2.getD 0) m2.phys s (userStackPages * pageSize) } T ∅ 0 noPage :=
    fun s => h2.grows.shape.write_remaps (off_alloc h1.grows.shape (by decide) hu) _
      fun x hx => copy_apply_of_not_mem hx
  have h4 := fun s => writeFrame_remaps (h3 s).grows.shape (childFrame frame)
    ((hspot1.grows h2.grows).grows (h3 s).grows)
  exact ((h1.quiet h2).quiet (h3 _)).quiet (h4 _)

/-! ## Stores through user pointers -/

/-- An `int` stored at `ptr` overwrites no table: each of its bytes lies below the pool or in a
frame that is given out and is no table, if its page is mapped. -/
def PointerSafe (m : Mem) (T : List ℕ → Option ℕ) (ptr : ℕ) : Prop :=
  ∀ i < 4, ∀ a, physOf m (u64 (ptr + i)) = some a → Spot m T a 1

lemma physOf_congr {v : ℕ} (hw : walk m' v = walk m v) : physOf m' v = physOf m v := by
  unfold physOf Mm.translate
  rw [hw]

/-- Steps that map no page leave a pointer as safe as it was. -/
lemma PointerSafe.quiet {ptr : ℕ} (hr : Remaps m T m' T' F n noPage) (hs : PointerSafe m T ptr) :
    PointerSafe m' T' ptr := by
  intro i hi a ha
  rw [physOf_congr (hr.walk _ id)] at ha
  exact (hs i hi a ha).grows hr.grows

lemma storeInt_remaps {ptr : ℕ} (h : Shape m T) (hs : PointerSafe m T ptr) (v : ℕ) :
    Remaps m T (storeInt m ptr v) T ∅ 0 noPage := by
  -- byte by byte: `b` is what the bytes before have made of the memory
  suffices hall : ∀ (is : List ℕ) (b : ℕ → UInt8), (∀ i ∈ is, i < 4) →
      Remaps m T { m with phys := b } T ∅ 0 noPage →
      Remaps m T { m with phys := is.foldl (storeIntByte m ptr v) b } T ∅ 0 noPage from
    hall (List.range 4) m.phys (fun i hi => List.mem_range.mp hi) h.remaps_refl
  intro is
  induction is with
  | nil => exact fun b _ hb => hb
  | cons i is ih =>
    intro b hlt hb
    obtain ⟨hi, hrest⟩ := List.forall_mem_cons.mp hlt
    refine ih _ hrest ?_
    unfold storeIntByte
    cases ha : physOf m (u64 (ptr + i)) with
    | none => exact hb
    | some a =>
      refine hb.quiet (hb.grows.shape.write_remaps (((hs i hi a ha).grows hb.grows).off
        hb.grows.shape) _ fun x hx => ?_)
      exact Function.update_of_ne (by omega) _ _

lemma StoredAt.keepsTables {ptr : ℕ} (h : StoredAt m m' ptr) (hok : TablesOk m)
    (hs : ptr ≠ 0 → PointerSafe m (tables m) ptr) : KeepsTables m m' noPage := by
  rcases h with rfl | ⟨h0, v, rfl⟩
  · exact .refl hok
  · exact .of_remaps (storeInt_remaps hok (hs h0) v)

/-- The condition on `process_clone`: what it stores through `ptid` overwrites no table. -/
def CloneSafe (m : Mem) (T : List ℕ → Option ℕ) (flags ptid : ℕ) : Prop :=
  flags.testBit 8 → ptid ≠ 0 ∧ flags.testBit 20 → PointerSafe m T ptid

lemma processClone_tables (h : Shape k.mem T) (flags childStack ptid ctid newtls : ℕ)
    (frame : ContextFrame) (hsafe : CloneSafe k.mem T flags ptid) :
    KeepsTables k.mem (processClone k flags childStack ptid ctid newtls frame).2.mem noPage := by
  unfold processClone
  split_ifs with hvm
  · unfold cloneThread
    split
    · exact .refl h.tablesOk
    rcases hk : allocPages k.mem kernelStackPages with ⟨r1, m1⟩
    dsimp only
    have h1 := alloc_remaps h (by decide) hk
    have hspot1 := spot_alloc (l := contextFrameSize) h (by decide) (by decide) hk (by decide)
    have h2 := fun f => h1.quiet (writeFrame_remaps h1.grows.shape f hspot1)
    unfold storePtid
    by_cases hset : ptid ≠ 0 ∧ flags.testBit 20
    · rw [if_pos hset]
      exact .of_remaps ((h2 _).quiet
        (storeInt_remaps (h2 _).grows.shape ((hsafe hvm hset).quiet (h2 _)) _))
    · rw [if_neg hset]
      exact .of_remaps (h2 _)
  · exact .of_remaps (processFork_remaps h frame)

/-! ## Replacing the program -/

/-- Where the image lies that `process_execve` loads, when the path names a file with a good ELF
header. -/
def execImage (k : Kernel) (path : Option (List UInt8)) : Option ℕ :=
  path.bind fun path => (tarfsLookup k.archive path).bind fun f =>
    if elfHeaderOk (image k.mem (u64 (k.ramdisk.addr + f.1))) (u64 (k.ramdisk.addr + f.1)) f.2 then
      some (u64 (k.ramdisk.addr + f.1))
    else none

/-- All that `process_execve` can do: refuse the path or the file, run out of frames while it
loads the segments, or replace the program. -/
lemma processExecve_cases (k : Kernel) (path argv0 : Option (List UInt8)) :
    (execImage k path = none ∧ ∃ e < 0, processExecve k path argv0 = (e, k)) ∨
      ∃ a, execImage k path = some a ∧
        ((∃ m, (loadImage k.mem a).1 = (none, m) ∧
            processExecve k path argv0 = (-8, { k with mem := m })) ∨
          ∃ info m name, (loadImage k.mem a).1 = (some info, m) ∧
            processExecve k path argv0 = (0, execveCommit { k with mem := m } info name)) := by
  unfold processExecve execImage
  cases path with
  | none => exact Or.inl ⟨rfl, -14, by norm_num, rfl⟩
  | some path =>
    dsimp only [Option.bind_some]
    rcases tarfsLookup k.archive path with _ | ⟨data, size⟩
    · exact Or.inl ⟨rfl, -2, by norm_num, rfl⟩
    · dsimp only [Option.bind_some]
      unfold elfLoadBinary
      generalize u64 (k.ramdisk.addr + data) = a
      by_cases hok : elfHeaderOk (image k.mem a) a size = true
      · rw [if_pos hok, if_pos hok]
        refine Or.inr ⟨a, rfl, ?_⟩
        rcases hload : (loadImage k.mem a).1 with ⟨r, m⟩
        cases r with
        | none => exact Or.inl ⟨m, rfl, rfl⟩
        | some info => exact Or.inr ⟨info, m, argv0.getD path, rfl, rfl⟩
      · rw [if_neg hok, if_neg hok]
        exact Or.inl ⟨rfl, -8, by norm_num, rfl⟩

/-- The end of `process_execve` maps the pages of the user stack. -/
lemma execveCommit_tables (h : Shape k.mem T) (info : ElfInfo) (name : List UInt8)
    (hroom : (missing T stackTables).card + userStackPages ≤ freeFrames k.mem)
    (hstack : k.current.stackPhysBase ≠ 0 →
      Spot k.mem T (k.current.stackPhysBase + userStackPages * pageSize - 256) 256)
    (hkstack : Spot k.mem T (k.current.kstackTop - contextFrameSize) contextFrameSize) :
    KeepsTables k.mem (execveCommit k info name).mem OnStack := by
  -- the stack, new or old, and the state in which its pages are mapped
  have hust : ∃ r m1, (if k.current.stackPhysBase = 0 then allocPages k.mem userStackPages
      else (some k.current.stackPhysBase, k.mem)) = (r, m1) ∧
      Remaps k.mem T m1 T ∅ userStackPages noPage ∧
      Spot m1 T (r.getD 0 + userStackPages * pageSize - 256) 256 := by
    by_cases h0 : k.current.stackPhysBase = 0
    · rcases ha : allocPages k.mem userStackPages with ⟨r, m1⟩
      rw [if_pos h0]
      exact ⟨r, m1, rfl, alloc_remaps h (by decide) ha,
        spot_alloc h (by decide) (by decide) ha (by decide)⟩
    · rw [if_neg h0]
      exact ⟨_, _, rfl, h.remaps_refl.weaken (Nat.zero_le _), hstack h0⟩
  obtain ⟨r, m1, hr, h1, hspot⟩ := hust
  obtain ⟨T2, h2, -⟩ := mapUserPages_remaps h1.grows.shape stackVirtBase (r.getD 0) userStackPages
    (h1.grows.fits_tables (by rw [Finset.empty_union]; exact hroom))
  have h3 := writeArgs_remaps h2.grows.shape name (by unfold userStackPages pageSize; omega)
    (hspot.grows h2.grows)
  have h4 := writeFrame_remaps h3.grows.shape (startFrame info.entryPoint startRsp)
    (((hkstack.grows h1.grows).grows h2.grows).grows h3.grows)
  have hm : (execveCommit k info name).mem = writeFrame (writeArgs (mapUserPages m1 stackVirtBase
      (r.getD 0) userStackPages) (r.getD 0 + userStackPages * pageSize) name)
      (k.current.kstackTop - contextFrameSize) (startFrame info.entryPoint startRsp) := by
    unfold execveCommit
    dsimp only
    rw [hr]
    rfl
  rw [hm]
  exact .of_remaps (((h1.after h2).quiet h3).quiet h4)

/-- The condition on `process_execve` with the image at `a`: the image can be loaded, and, if all
of it is, there are frames for the stack and its tables, and the stacks that are written to
are no tables. -/
structure ExecSafe (k : Kernel) (a : ℕ) : Prop extends LoadSafe k.mem a where
  commit : (loadImage k.mem a).1.1 ≠ none →
    (missing (tables k.mem) (segTables (loaded (loadImage k.mem a).2) ∪ stackTables)).card +
        (segFrames (loaded (loadImage k.mem a).2) + userStackPages) ≤ freeFrames k.mem ∧
      (k.current.stackPhysBase ≠ 0 → Spot k.mem (tables k.mem)
        (k.current.stackPhysBase + userStackPages * pageSize - 256) 256) ∧
      Spot k.mem (tables k.mem) (k.current.kstackTop - contextFrameSize) contextFrameSize

/-- The pages that `process_execve` maps. -/
def OnExec (k : Kernel) (path : Option (List UInt8)) (key : ℕ) : Prop :=
  ∃ a, execImage k path = some a ∧ (OnSegments (loaded (loadImage k.mem a).2) key ∨ OnStack key)

lemma processExecve_tables (h : TablesOk k.mem) (path argv0 : Option (List UInt8))
    (hsafe : ∀ a, execImage k path = some a → ExecSafe k a) :
    KeepsTables k.mem (processExecve k path argv0).2.mem (OnExec k path) := by
  rcases processExecve_cases k path argv0 with ⟨-, e, -, he⟩ | ⟨a, ha, hload⟩
  · rw [he]
    exact .refl h
  have hs := hsafe a ha
  obtain ⟨T1, h1, -⟩ := loadImage_mapsLoaded h hs.toLoadSafe
  rcases hload with ⟨m, hm, he⟩ | ⟨info, m, name, hm, he⟩
  · rw [he]
    rw [hm] at h1
    refine ⟨h1.grows.shape.tablesOk, fun v hv => h1.walk v fun hp => hv ?_⟩
    exact ⟨a, ha, Or.inl hp⟩
  · rw [he]
    obtain ⟨hroom, hstack, hkstack⟩ := hs.commit (by rw [hm]; exact Option.some_ne_none info)
    rw [hm] at h1
    have h2 := execveCommit_tables (k := { k with mem := m }) h1.grows.shape info name
      (h1.grows.fits_rest hroom) (fun h0 => (hstack h0).grows h1.grows) (hkstack.grows h1.grows)
    refine ⟨h2.tablesOk, fun v hv => ?_⟩
    rw [h2.walk v fun hp => hv ⟨a, ha, Or.inr hp⟩]
    exact h1.walk v fun hp => hv ⟨a, ha, Or.inl hp⟩

/-! ## Switching -/

/-- The tables on the way to recorded segments. -/
def recordTables (segments : List ElfSegment) : Finset (List ℕ) :=
  segments.foldr (fun s F => userTables s.virtAddr s.numPages ∪ F) ∅

/-- What a list of recorded segments maps; a later segment wins. -/
def recordMap : List ElfSegment → ℕ → Option Pte
  | [], _ => none
  | s :: ss, v => (recordMap ss v).or (userMap s.virtAddr s.physAddr s.numPages v)

lemma mapSegments_spec (segments : List ElfSegment) (h : Shape m T)
    (hroom : (missing T (recordTables segments)).card ≤ freeFrames m) :
    ∃ T', Grows m T (mapSegments m segments) T' (recordTables segments) 0 ∧
      ∀ v, walk (mapSegments m segments) v = (recordMap segments v).or (walk m v) := by
  induction segments generalizing m T with
  | nil => exact ⟨T, h.grows (by simp [recordTables]) rfl, fun _ => rfl⟩
  | cons s ss ih =>
    obtain ⟨T1, hg1, hw1⟩ := mapUserPages_spec h s.virtAddr s.physAddr s.numPages
      ((missing_mono Finset.subset_union_left).trans hroom)
    obtain ⟨T2, hg2, hw2⟩ := ih hg1.shape (hg1.fits_tables hroom)
    refine ⟨T2, hg1.trans hg2, fun v => ?_⟩
    change walk (mapSegments (mapUserPages m s.virtAddr s.physAddr s.numPages) ss) v = _
    rw [hw2 v, hw1 v, recordMap, Option.or_assoc]

/-- The tables on the way to the pages that a switch to `p` maps. -/
def procTables (p : Process) : Finset (List ℕ) :=
  recordTables p.segments ∪ if p.stackPhysBase ≠ 0 then stackTables else ∅

/-- What a switch to `p` maps: its segments, and over them its stack. -/
def procMap (p : Process) (v : ℕ) : Option Pte :=
  (if p.stackPhysBase ≠ 0 then userMap stackVirtBase p.stackPhysBase userStackPages v
    else none).or (recordMap p.segments v)

/-- **A switch** lays the segments and the stack of the process over the translation. -/
theorem remap_spec (p : Process) (h : Shape m T)
    (hroom : (missing T (procTables p)).card ≤ freeFrames m) :
    ∃ T', Grows m T (remap m p) T' (procTables p) 0 ∧
      ∀ v, walk (remap m p) v = (procMap p v).or (walk m v) := by
  unfold procTables at hroom ⊢
  unfold remap procMap
  obtain ⟨T1, hg1, hw1⟩ := mapSegments_spec p.segments h
    ((missing_mono Finset.subset_union_left).trans hroom)
  by_cases h0 : p.stackPhysBase ≠ 0
  · rw [if_pos h0] at hroom ⊢
    obtain ⟨T2, hg2, hw2⟩ := mapUserPages_spec hg1.shape stackVirtBase p.stackPhysBase
      userStackPages (hg1.fits_tables hroom)
    refine ⟨T2, ?_, fun v => ?_⟩
    · rw [if_pos h0]
      exact hg1.trans hg2
    · rw [if_pos h0, hw2 v, hw1 v, Option.or_assoc]
  · rw [if_neg h0] at hroom ⊢
    refine ⟨T1, ?_, fun v => ?_⟩
    · rw [if_neg h0, Finset.union_empty]
      exact hg1
    · rw [if_neg h0, Option.none_or]
      exact hw1 v

end Bangos.Proc
