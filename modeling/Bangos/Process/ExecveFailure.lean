import Bangos.Loader.ElfAccess
import Bangos.Process.IdentityMap

/-!
# What a failed `process_execve` leaves behind

`elf_load_binary` maps the segments one by one into the page table of the running process, so
when the frames run out at one segment the segments before it are already mapped.  The caller
is left as it was exactly when none of them has a page in its areas.
-/

namespace Bangos.Proc

open Bangos.Mm Bangos.Fs Bangos.Net Bangos.Loader Bangos.Syscall ByteMem

variable {m : Mem} {k : Kernel}

/-- The pages of the segments that `process_execve` loads, up to the first for which there are
no frames. -/
def OnLoaded (k : Kernel) (path : Option (List UInt8)) (key : ℕ) : Prop :=
  ∃ a, execImage k path = some a ∧ OnSegments (loaded (loadImage k.mem a).2) key

/-- The running process is as it was, and so is the translation of its areas. -/
def CallerIntact (k k' : Kernel) : Prop :=
  k'.current = k.current ∧
    ∀ v, Covered k.current.vm.vmas v → Mm.translate k'.mem v = Mm.translate k.mem v

/-- The frames to which the areas of the running process are mapped are given out. -/
def AreasHeld (k : Kernel) : Prop :=
  ∀ v x, Covered k.current.vm.vmas v → Mm.translate k.mem v = some x →
    ∀ i < maxPages, x.frame = frameAddr i → k.mem.pageBitmap i = true

/-- What `process_execve` has done when it fails: nothing, or it has loaded some segments. -/
lemma processExecve_failure {path argv0 : Option (List UInt8)}
    (hneg : (processExecve k path argv0).1 < 0) :
    (execImage k path = none ∧ (processExecve k path argv0).2 = k) ∨
      ∃ a, execImage k path = some a ∧ (processExecve k path argv0).2 =
        { k with mem := (loadImage k.mem a).1.2 } := by
  rcases processExecve_cases k path argv0 with ⟨hn, e, -, he⟩ | ⟨a, ha, ⟨m, hm, he⟩ | hcommit⟩
  · exact Or.inl ⟨hn, by rw [he]⟩
  · exact Or.inr ⟨a, ha, by rw [he, hm]⟩
  · obtain ⟨info, m, name, -, he⟩ := hcommit
    rw [he] at hneg
    exact absurd hneg (lt_irrefl _)

/-- **A failed `process_execve`**, from a state with sound tables, leaves the caller intact if
and only if no page of a segment that it has loaded lies in an area of the caller. -/
theorem execve_failure_intact_iff (k : Kernel) (path argv0 : Option (List UInt8))
    (hok : TablesOk k.mem) (hheld : AreasHeld k)
    (hsafe : ∀ a, execImage k path = some a → LoadSafe k.mem a)
    (hneg : (processExecve k path argv0).1 < 0) :
    CallerIntact k (processExecve k path argv0).2 ↔
      ∀ v, Covered k.current.vm.vmas v → Canonical v → ¬ OnLoaded k path (pageKey v) := by
  rcases processExecve_failure hneg with ⟨hnone, he⟩ | ⟨a, ha, he⟩
  · rw [he]
    refine iff_of_true ⟨rfl, fun _ _ => rfl⟩ ?_
    rintro v - - ⟨a, ha, -⟩
    rw [hnone] at ha
    cases ha
  · obtain ⟨T', hr, hnew, -⟩ := loadImage_mapsLoaded hok (hsafe a ha)
    rw [he]
    constructor
    · -- a page loaded into an area would be mapped to a frame that was free
      rintro ⟨-, hsame⟩ v hcov hcan ⟨a', ha', hon⟩
      obtain rfl : a' = a := Option.some.inj (ha'.symm.trans ha)
      obtain ⟨i, hi, hfree, -, hwalk⟩ := hnew v hon
      have htr : Mm.translate k.mem v = some ⟨frameAddr i, true, true⟩ := by
        rw [← hsame v hcov]
        unfold Mm.translate
        rw [if_pos hcan]
        exact hwalk
      exact absurd (hfree.symm.trans (hheld v _ hcov htr i hi rfl)) (by simp)
    · intro hout
      refine ⟨rfl, fun v hcov => ?_⟩
      unfold Mm.translate
      split_ifs with hcan
      · exact hr.walk v fun hon => hout v hcov hcan ⟨a, ha, hon⟩
      · rfl

/-! ## A program too large -/

/-- An ELF image of 176 bytes at address `a`: the file itself as a segment at `vaddr`, and,
if there are two program headers, 128 MB of zeros at `0x600000`. -/
def elfImage (b : ℕ → UInt8) (a vaddr phnum : ℕ) : ℕ → UInt8 :=
  putFields b a
    [(4, 0x464C457F), (1, 2), (1, 1), (10, 1), (2, 2), (2, 0x3E), (4, 1), (8, vaddr + 0xB0), (8, 64),
      (8, 0), (4, 0), (2, 64), (2, 56), (2, phnum), (6, 0),
      (4, 1), (4, 5), (8, 0), (8, vaddr), (8, vaddr), (8, 176), (8, 176), (8, 0x1000),
      (4, 1), (4, 6), (8, 176), (8, 0x600000), (8, 0x600000), (8, 0), (8, 0x8000000), (8, 0x1000)]

/-- The header of a file `a` of 176 bytes in an archive. -/
def tarHeader (b : ℕ → UInt8) (a : ℕ) : ℕ → UInt8 :=
  putFields b a [(1, 0x61), (99, 0), (24, 0), (8, 0x3030303030303030), (4, 0x00303632), (20, 0),
    (1, 0x30)]

/-- Memory with the program that runs first, at `0x10000`, and the archive, at `0x20000`, with the
program that needs 128 MB. -/
def diskMemory (vaddr : ℕ) : ℕ → UInt8 :=
  elfImage (tarHeader (elfImage (fun _ => 0) 0x10000 0x400000 1) 0x20000) 0x20200 vaddr 2

/-- The image of the program that runs first. -/
def firstImage (vaddr x : ℕ) : UInt8 := diskMemory vaddr (0x10000 + x)

/-- The archive. -/
def archiveBytes (vaddr x : ℕ) : UInt8 := diskMemory vaddr (0x20000 + x)

/-- The image of the program that needs 128 MB. -/
def largeImage (vaddr x : ℕ) : UInt8 := archiveBytes vaddr (512 + x)

/-- What the kernel gets from loading the program that runs first. -/
def firstLoad (vaddr : ℕ) : Option ElfInfo × Mem :=
  elfLoadBinary (mmInit (diskMemory vaddr) fun _ => false) 0x10000 176

/-- The kernel when the first program runs. -/
def loadedKernel (vaddr : ℕ) : Kernel :=
  boot (firstLoad vaddr).2 freshKernel.files ⟨0x20000, 1024, true⟩
    ((firstLoad vaddr).1.getD ⟨0, 0, 0, []⟩) []

/-- The segment with the file. -/
def textPhdr (vaddr : ℕ) : Phdr := ⟨1, 0, vaddr, 176, 176⟩

/-- The segment of 128 MB. -/
def bssPhdr : Phdr := ⟨1, 176, 0x600000, 0, 0x8000000⟩

/-- What the bytes of the two programs and of the archive say, and where the text of the program
that needs 128 MB is to lie. -/
structure OnDisk (vaddr : ℕ) : Prop where
  firstHeader : elfHeaderOk (firstImage vaddr) 0x10000 176 = true
  firstPhnum : le (firstImage vaddr) 56 2 = 1
  firstPhoff : le (firstImage vaddr) 32 8 = 64
  firstText : phdrAt (firstImage vaddr) 64 = textPhdr 0x400000
  name : archiveBytes vaddr 0 = 0x61 ∧ archiveBytes vaddr 1 = 0
  typeflag : archiveBytes vaddr 156 = 0x30
  fileSize : tarFileSize (archiveBytes vaddr) 0 = 176
  header : elfHeaderOk (largeImage vaddr) 0x20200 176 = true
  phnum : le (largeImage vaddr) 56 2 = 2
  phoff : le (largeImage vaddr) 32 8 = 64
  phentsize : le (largeImage vaddr) 54 2 = 56
  text : phdrAt (largeImage vaddr) 64 = textPhdr vaddr
  bss : phdrAt (largeImage vaddr) 120 = bssPhdr
  aligned : vaddr % 4096 = 0
  high : 0x400000 ≤ vaddr ∧ vaddr < 2 ^ 47

lemma onDisk_over : OnDisk 0x400000 := by
  constructor
  case firstText | text | bss => rfl
  all_goals decide +kernel

lemma onDisk_elsewhere : OnDisk 0x800000 := by
  constructor
  case firstText | text | bss => rfl
  all_goals decide +kernel

/-- The stack of a program is high up. -/
lemma onStack_high {key : ℕ} (h : OnStack key) (hkey : key < 2 ^ 32) : False := by
  obtain ⟨j, hj, rfl⟩ := h
  unfold userStackPages at hj
  unfold pageKey pageAt u64 stackVirtBase userStackTop userStackPages pageSize at hkey
  omega

/-- `tarfs_lookup` of the file `a`, when it comes first. -/
lemma tarfsLookup_first {r : Ramdisk} (hl : r.loaded = true) (hs : 512 ≤ r.size)
    (h0 : r.bytes 0 = 0x61) (h1 : r.bytes 1 = 0) (ht : r.bytes 156 = 0x30) :
    tarfsLookup r [0x61] = some (512, tarFileSize r.bytes 0) := by
  have hname : ∀ fuel, normalizeAt r.bytes fuel 0 = 0 := by
    intro fuel
    cases fuel with
    | zero => rfl
    | succ fuel => rw [normalizeAt, h0, if_neg (by decide)]
  have hmatch : pathMatches r.bytes r.size [0x61] 0 = true := by
    unfold pathMatches
    dsimp only
    rw [hname]
    have hstr : strAt r.bytes (normalizePath [0x61]) 0 = true := by
      rw [show normalizePath [0x61] = [0x61] from rfl, strAt, strAt, h0, h1]
      rfl
    rw [hstr]
    rfl
  unfold tarfsLookup
  rw [if_neg (by rw [hl]; simp; omega), tarfsScan, if_pos ⟨by omega, by rw [h0]; decide⟩]
  dsimp only
  rw [if_pos ⟨Or.inl ht, hmatch⟩]

lemma parseOctal_congr {b b' : ℕ → UInt8} (a n val : ℕ) (h : ∀ x, a ≤ x → x < a + n → b x = b' x) :
    parseOctal b a n val = parseOctal b' a n val := by
  induction n generalizing a val with
  | zero => rfl
  | succ n ih =>
    unfold parseOctal
    dsimp only
    rw [h a le_rfl (by omega), ih (a + 1) _ fun x h1 h2 => h x (by omega) (by omega)]

section Large

variable {vaddr : ℕ} (h : OnDisk vaddr)

lemma textPhdr_numPages (h0 : vaddr % 4096 = 0) : (textPhdr vaddr).numPages = 1 := by
  unfold textPhdr Phdr.numPages Phdr.vaddrOffset
  dsimp only
  rw [h0]
  rfl

lemma textPhdr_fits (h0 : vaddr % 4096 = 0) : (textPhdr vaddr).Fits := by
  refine ⟨?_, ?_⟩ <;> rw [textPhdr_numPages h0]
  · unfold textPhdr Phdr.vaddrOffset
    dsimp only
    rw [h0]
    decide
  · decide

/-- The one page of the text. -/
lemma onPage_text {key : ℕ} (h0 : vaddr % 4096 = 0) (hlow : vaddr < 2 ^ 47) :
    (textPhdr vaddr).OnPage key ↔ key = vaddr / 4096 := by
  have hpage : pageKey (pageAt (textPhdr vaddr).pageVaddr 0) = vaddr / 4096 := by
    unfold textPhdr Phdr.pageVaddr pageKey pageAt u64
    dsimp only
    omega
  unfold Phdr.OnPage OnRun
  rw [textPhdr_numPages h0]
  constructor
  · rintro ⟨j, hj, rfl⟩
    obtain rfl : j = 0 := Nat.lt_one_iff.mp hj
    exact hpage
  · rintro rfl
    exact ⟨0, Nat.one_pos, hpage.symm⟩

/-- The text is mapped over neither the first program nor the archive. -/
lemma not_onPage_text {a x : ℕ} (h0 : vaddr % 4096 = 0)
    (hhigh : 0x400000 ≤ vaddr ∧ vaddr < 2 ^ 47) (ha : a + x < 0x400000) :
    ¬ (textPhdr vaddr).OnPage (pageKey (u64 (a + x))) := by
  rw [onPage_text h0 hhigh.2]
  unfold pageKey u64
  omega

lemma card_segTables_text (T : List ℕ → Option ℕ) (h0 : vaddr % 4096 = 0) :
    (missing T (segTables [textPhdr vaddr])).card ≤ 3 := by
  refine (missing_card_le _ _).trans ?_
  unfold segTables Phdr.tables
  rw [List.foldr_cons, List.foldr_nil, Finset.union_empty, textPhdr_numPages h0]
  exact card_userTables_le _ 1

lemma loadSafe_text {a : ℕ} (h0 : vaddr % 4096 = 0) (hfree : 8 ≤ freeFrames m)
    (hl : loaded (loadImage m a).2 = [textPhdr vaddr]) : LoadSafe m a := by
  refine ⟨fun p hp => ?_, ?_⟩
  · rw [hl, List.mem_singleton] at hp
    rw [hp]
    exact textPhdr_fits h0
  · have hcard := card_segTables_text (tables m) h0
    have hframes : segFrames [textPhdr vaddr] = 1 := by
      unfold segFrames
      rw [List.map_singleton, List.sum_singleton, textPhdr_numPages h0]
    rw [hl, hframes]
    omega

/-- There are never so many frames in a row as the other segment needs. -/
lemma allocPages_bss (hbit : m.pageBitmap 0 = true) : (allocPages m bssPhdr.numPages).1 = none := by
  rcases ha : allocPages m bssPhdr.numPages with ⟨r, m1⟩
  cases r with
  | none => rfl
  | some phys =>
    obtain ⟨i, -, hi, hrun, -⟩ := allocPages_eq_some (by decide) ha
    rw [show bssPhdr.numPages = 32768 from rfl] at hi hrun
    unfold maxPages at hi
    obtain rfl : i = 0 := by omega
    exact absurd ((hrun 0 le_rfl (by omega)).symm.trans hbit) (by simp)

include h

/-- From sound tables with frame 0 in use, loading the program that needs 128 MB fails after
its first segment. -/
lemma load_large (hok : TablesOk m) (hfree : 8 ≤ freeFrames m) (hbit : m.pageBitmap 0 = true)
    (himage : ImageAt m (tables m) 0x20200 176 (largeImage vaddr)) :
    (loadImage m 0x20200).1.1 = none ∧ loaded (loadImage m 0x20200).2 = [textPhdr vaddr] := by
  have hn := textPhdr_numPages h.aligned
  have hfit := textPhdr_fits h.aligned
  obtain ⟨phys, m1, ha, hload⟩ := loadImage_first himage (by norm_num) (by omega)
    (by rw [h.phnum]; norm_num) h.phoff h.text rfl hn
  have hroom := room_of_four (m := m) (p := textPhdr vaddr) (by omega) hn
  obtain ⟨T', hr, -⟩ := loadSegment_remaps (a := 0x20200) hok hfit hroom ha
  have hkept := himage.kept hr (fun b hb => placeSegment_keepsPage hok hfit hroom ha hb)
    fun x hx => not_onPage_text h.aligned h.high (by omega)
  generalize placeSegment m1 0x20200 (textPhdr vaddr) phys = m2 at hload hr hkept
  -- the second turn
  have hturn : turnPhdr m2 0x20200 64 1 = bssPhdr := by
    rw [turnPhdr, hkept.le_image (by norm_num), h.phentsize, hkept.phdrAt_image (by norm_num)]
    exact h.bss
  rcases hb : allocPages m2 bssPhdr.numPages with ⟨r, m3⟩
  obtain rfl : r = none := by
    have hnone := allocPages_bss (hr.grows.held hbit)
    rwa [hb] at hnone
  have hmore : 1 < le (image m2 0x20200) 56 2 := by
    rw [hkept.le_image (by norm_num), h.phnum]
    norm_num
  rw [← hturn] at hb
  rw [hload, loadSegments_of_none hmore (by rw [hturn]; rfl) hb]
  exact ⟨rfl, rfl⟩

/-- The memory when the first program has been loaded: its page is mapped to a frame that is
given out, and the archive is as it was. -/
lemma firstLoad_memory : TablesOk (firstLoad vaddr).2 ∧ 32000 ≤ freeFrames (firstLoad vaddr).2 ∧
    (firstLoad vaddr).2.pageBitmap 0 = true ∧
    (∀ v, (textPhdr 0x400000).OnPage (pageKey v) → ∃ i < maxPages,
      (firstLoad vaddr).2.pageBitmap i = true ∧
      walk (firstLoad vaddr).2 v = some ⟨frameAddr i, true, true⟩) ∧
    ImageAt (firstLoad vaddr).2 (tables (firstLoad vaddr).2) 0x20000 1024 (archiveBytes vaddr) ∧
    ∃ phys, (firstLoad vaddr).1 = some ⟨le (firstImage vaddr) 24 8, 0x400000, 0x4000B0,
      [⟨0x400000, phys, 1⟩]⟩ := by
  obtain ⟨hok, hcount, -⟩ := mmInit_spec (diskMemory vaddr) fun _ => false
  have hroot := mmInit_kernelPml4 (diskMemory vaddr) fun _ => false
  have hfirst := imageAt_mmInit (diskMemory vaddr) (fun _ => false) (a := 0x10000) (n := 176)
    (by decide)
  have harchive := imageAt_mmInit (diskMemory vaddr) (fun _ => false) (a := 0x20000) (n := 1024)
    (by decide)
  unfold firstLoad
  generalize (mmInit (diskMemory vaddr) fun _ => false) = m at *
  unfold maxPages at hcount
  change ImageAt m (tables m) 0x10000 176 (firstImage vaddr) at hfirst
  change ImageAt m (tables m) 0x20000 1024 (archiveBytes vaddr) at harchive
  have hout : ∀ a x, a + x < 0x400000 → ¬ (textPhdr 0x400000).OnPage (pageKey (u64 (a + x))) :=
    fun a x => not_onPage_text (by norm_num) ⟨le_rfl, by norm_num⟩
  obtain ⟨m', phys, hload⟩ := loadImage_one hok (fun x hx => hfirst x (by omega)) (by omega)
    h.firstPhnum h.firstPhoff h.firstText rfl rfl (textPhdr_fits (by norm_num))
    fun x hx => hout _ x (by omega)
  have hinit : initInfo m 0x10000 = ⟨le (firstImage vaddr) 24 8, 0xFFFFFFFFFFFFFFFF, 0, []⟩ := by
    rw [initInfo, hfirst.le_image (by norm_num)]
  have hl : loaded (loadImage m 0x10000).2 = [textPhdr 0x400000] := by
    rw [hload]
    rfl
  obtain ⟨T', hr, hnew, hkeep⟩ := loadImage_mapsLoaded hok (loadSafe_text (by norm_num) (by omega) hl)
  have hon : ∀ key, OnSegments (loaded (loadImage m 0x10000).2) key ↔
      (textPhdr 0x400000).OnPage key := fun key => by
    rw [hl]
    simp [OnSegments]
  have hgrow := hr.grows.count
  have hcard : (missing (tables m) (segTables [textPhdr 0x400000])).card ≤ 3 :=
    card_segTables_text (tables m) (by norm_num)
  rw [hl, show segFrames [textPhdr 0x400000] = 1 from rfl] at hgrow
  have hmem : (elfLoadBinary m 0x10000 176) = (loadImage m 0x10000).1 := by
    rw [elfLoadBinary, hfirst.elfHeaderOk_image (by norm_num), if_pos h.firstHeader]
  rw [hmem]
  refine ⟨hr.grows.shape.tablesOk, by omega, ?_, fun v hv => ?_, ?_, phys, ?_⟩
  · obtain ⟨x, -, hx, hb⟩ := hok.held hok.root
    rw [hroot] at hx
    obtain rfl : x = 0 := frameAddr_inj hx.symm
    exact hr.grows.held hb
  · obtain ⟨i, hi, -, hheld, hwalk⟩ := hnew v ((hon _).mpr hv)
    exact ⟨i, hi, hheld, hwalk⟩
  · rw [← hr.grows.shape.eq_tables]
    refine harchive.kept hr hkeep fun x hx => ?_
    rw [hon]
    exact hout _ x (by omega)
  · rw [hload, hinit]
    rfl

/-- The memory when the first program runs: its page and its stack are mapped to frames that are
given out, and the archive is still as it was. -/
lemma loadedKernel_memory : TablesOk (loadedKernel vaddr).mem ∧
    31900 ≤ freeFrames (loadedKernel vaddr).mem ∧ (loadedKernel vaddr).mem.pageBitmap 0 = true ∧
    (∀ v, (textPhdr 0x400000).OnPage (pageKey v) ∨ OnStack (pageKey v) → ∃ i < maxPages,
      (loadedKernel vaddr).mem.pageBitmap i = true ∧
      walk (loadedKernel vaddr).mem v = some ⟨frameAddr i, true, true⟩) ∧
    ImageAt (loadedKernel vaddr).mem (tables (loadedKernel vaddr).mem) 0x20000 1024
      (archiveBytes vaddr) := by
  obtain ⟨hok, hfree, hbit, htext, harchive, -⟩ := firstLoad_memory h
  have hmax : maxPages < freeFrames (firstLoad vaddr).2 + 2000 := by
    unfold maxPages
    omega
  obtain ⟨T', hr, hstack⟩ := boot_remaps hok hmax freshKernel.files ⟨0x20000, 1024, true⟩
    ((firstLoad vaddr).1.getD ⟨0, 0, 0, []⟩) []
  have hkeep := fun b => boot_keepsPage (b := b) hok hmax freshKernel.files ⟨0x20000, 1024, true⟩
    ((firstLoad vaddr).1.getD ⟨0, 0, 0, []⟩) []
  rw [← loadedKernel] at hr hstack hkeep
  have hcount := hr.grows.count
  have hcard := (missing_card_le (tables (firstLoad vaddr).2) stackTables).trans card_stackTables_le
  refine ⟨hr.grows.shape.tablesOk, by omega, hr.grows.held hbit, ?_, ?_⟩
  · rintro v (hv | hv)
    · obtain ⟨i, hi, hheld, hwalk⟩ := htext v hv
      refine ⟨i, hi, hr.grows.held hheld, (hr.walk v fun hon => ?_).trans hwalk⟩
      rw [onPage_text (by norm_num) (by norm_num)] at hv
      rw [hv] at hon
      exact onStack_high hon (by norm_num)
    · exact hstack v hv
  · rw [← hr.grows.shape.eq_tables]
    refine harchive.kept hr hkeep fun x hx hon => onStack_high hon ?_
    unfold pageKey u64
    omega

/-- The areas of the first program: its page and its stack. -/
lemma loadedKernel_vm : (loadedKernel vaddr).current.vm = programVm 1 [⟨0x400000, 0, 1⟩] := by
  obtain ⟨-, -, -, -, -, phys, hinfo⟩ := firstLoad_memory h
  unfold loadedKernel
  rw [hinfo]
  rfl

lemma loadedKernel_areas {v : ℕ} (hv : Covered (loadedKernel vaddr).current.vm.vmas v) :
    (textPhdr 0x400000).OnPage (pageKey v) ∨ OnStack (pageKey v) := by
  have hall : ∀ i, ((programVm 1 [⟨0x400000, 0, 1⟩]).vmas i).used = true →
      (((programVm 1 [⟨0x400000, 0, 1⟩]).vmas i).start = 0x400000 ∧
        ((programVm 1 [⟨0x400000, 0, 1⟩]).vmas i).endAddr = 0x401000) ∨
      (((programVm 1 [⟨0x400000, 0, 1⟩]).vmas i).start = stackVirtBase ∧
        ((programVm 1 [⟨0x400000, 0, 1⟩]).vmas i).endAddr = userStackTop) := by decide +kernel
  rw [loadedKernel_vm h] at hv
  generalize (programVm 1 [⟨0x400000, 0, 1⟩]).vmas = vs at hv hall
  obtain ⟨i, hu, h1, h2⟩ := hv
  change (vs i).start ≤ v at h1
  change v < (vs i).endAddr at h2
  rcases hall i hu with ⟨hs, he⟩ | ⟨hs, he⟩
  · rw [hs] at h1
    rw [he] at h2
    refine Or.inl ((onPage_text (by norm_num) (by norm_num)).mpr ?_)
    unfold pageKey
    omega
  · rw [hs] at h1
    rw [he] at h2
    refine Or.inr ⟨(v - stackVirtBase) / 4096, ?_, ?_⟩
    all_goals
      unfold stackVirtBase userStackTop userStackPages pageSize at *
      try unfold pageKey pageAt u64 pageSize
      omega

lemma loadedKernel_areasHeld : AreasHeld (loadedKernel vaddr) := by
  obtain ⟨-, -, -, hmap, -⟩ := loadedKernel_memory h
  intro v x hcov hx i hi hframe
  obtain ⟨j, hj, hheld, hwalk⟩ := hmap v (loadedKernel_areas h hcov)
  unfold Mm.translate at hx
  split_ifs at hx
  rw [hwalk] at hx
  rw [← Option.some.inj hx] at hframe
  rw [← frameAddr_inj hframe]
  exact hheld

/-- The path `a` names the program that needs 128 MB. -/
lemma execImage_large : execImage (loadedKernel vaddr) (some [0x61]) = some 0x20200 := by
  obtain ⟨-, -, -, -, harchive⟩ := loadedKernel_memory h
  have hbyte : ∀ x < 1024, (loadedKernel vaddr).archive.bytes x = archiveBytes vaddr x :=
    fun x hx => harchive.image_eq hx
  have hsize : tarFileSize (loadedKernel vaddr).archive.bytes 0 = 176 := by
    rw [← h.fileSize]
    exact parseOctal_congr _ _ _ fun x _ hx => hbyte x (by omega)
  have hramdisk : (loadedKernel vaddr).ramdisk = ⟨0x20000, 1024, true⟩ := rfl
  have hlook := tarfsLookup_first (r := (loadedKernel vaddr).archive) rfl
    (by unfold Kernel.archive; rw [hramdisk]; norm_num)
    ((hbyte 0 (by norm_num)).trans h.name.1) ((hbyte 1 (by norm_num)).trans h.name.2)
    ((hbyte 156 (by norm_num)).trans h.typeflag)
  have himage : ImageAt (loadedKernel vaddr).mem (tables (loadedKernel vaddr).mem) 0x20200 176
      (largeImage vaddr) := harchive.part 512 (by norm_num)
  have haddr : u64 (0x20000 + 512) = 0x20200 := rfl
  rw [hsize] at hlook
  unfold execImage
  rw [Option.bind_some, hlook, Option.bind_some, hramdisk]
  dsimp only
  rw [haddr, himage.elfHeaderOk_image (by norm_num), if_pos h.header]

/-- `process_execve` of that program fails, and has loaded its text. -/
lemma execve_large : (processExecve (loadedKernel vaddr) (some [0x61]) none).1 < 0 ∧
    (processExecve (loadedKernel vaddr) (some [0x61]) none).2.mem =
      (loadImage (loadedKernel vaddr).mem 0x20200).1.2 ∧
    loaded (loadImage (loadedKernel vaddr).mem 0x20200).2 = [textPhdr vaddr] := by
  obtain ⟨hok, hfree, hbit, -, harchive⟩ := loadedKernel_memory h
  obtain ⟨hfail, hload⟩ := load_large h hok (by omega) hbit
    (harchive.part 512 (n := 176) (by norm_num))
  rcases processExecve_cases (loadedKernel vaddr) (some [0x61]) none with
    ⟨hn, -⟩ | ⟨a, ha, ⟨m, hm, he⟩ | ⟨info, m, name, hm, -⟩⟩
  · rw [execImage_large h] at hn
    cases hn
  · obtain rfl : a = 0x20200 := Option.some.inj (ha.symm.trans (execImage_large h))
    rw [he, hm]
    exact ⟨by norm_num, rfl, hload⟩
  · obtain rfl : a = 0x20200 := Option.some.inj (ha.symm.trans (execImage_large h))
    rw [hm] at hfail
    cases hfail

/-- The text can be loaded. -/
lemma loadSafe_large : LoadSafe (loadedKernel vaddr).mem 0x20200 := by
  obtain ⟨-, hfree, -⟩ := loadedKernel_memory h
  exact loadSafe_text h.aligned (by omega) (execve_large h).2.2

end Large

/-- The program that needs 128 MB has its text at `0x800000`: the load maps a page there and fails,
and the caller is left as it was. -/
theorem execve_failure_intact_elsewhere :
    (processExecve (loadedKernel 0x800000) (some [0x61]) none).1 < 0 ∧
      OnLoaded (loadedKernel 0x800000) (some [0x61]) (pageKey 0x800000) ∧
      CallerIntact (loadedKernel 0x800000)
        (processExecve (loadedKernel 0x800000) (some [0x61]) none).2 := by
  obtain ⟨hneg, -, hload⟩ := execve_large onDisk_elsewhere
  have himage := execImage_large onDisk_elsewhere
  have hon : ∀ key, OnLoaded (loadedKernel 0x800000) (some [0x61]) key ↔ key = 0x800 := by
    intro key
    have htext : (textPhdr 0x800000).OnPage key ↔ key = 0x800 :=
      onPage_text (by norm_num) (by norm_num)
    rw [← htext]
    unfold OnLoaded
    rw [himage]
    simp [hload, OnSegments]
  refine ⟨hneg, (hon _).mpr (by decide), ?_⟩
  refine (execve_failure_intact_iff (loadedKernel 0x800000) (some [0x61]) none
    (loadedKernel_memory onDisk_elsewhere).1 (loadedKernel_areasHeld onDisk_elsewhere)
    (fun a ha => ?_) hneg).mpr ?_
  · rw [himage] at ha
    rw [← Option.some.inj ha]
    exact loadSafe_large onDisk_elsewhere
  · intro v hcov _ hv
    rw [hon] at hv
    rcases loadedKernel_areas onDisk_elsewhere hcov with htext | hstack
    · rw [onPage_text (by norm_num) (by norm_num), hv] at htext
      exact absurd htext (by norm_num)
    · rw [hv] at hstack
      exact onStack_high hstack (by norm_num)

/-- **The text of the caller is gone**: the first program calls `process_execve` on the one that
needs 128 MB, whose text is at `0x400000` too.  The call fails, and the caller's own page at
`0x400000` is now mapped to another frame. -/
theorem text_remapped_by_failed_execve :
    (processExecve (loadedKernel 0x400000) (some [0x61]) none).1 < 0 ∧
      Covered (loadedKernel 0x400000).current.vm.vmas 0x400000 ∧
      Mm.translate (processExecve (loadedKernel 0x400000) (some [0x61]) none).2.mem 0x400000 ≠
        Mm.translate (loadedKernel 0x400000).mem 0x400000 := by
  obtain ⟨hok, -, -, hmap, -⟩ := loadedKernel_memory onDisk_over
  obtain ⟨hneg, hmem, hload⟩ := execve_large onDisk_over
  have hcov : Covered (loadedKernel 0x400000).current.vm.vmas 0x400000 := by
    rw [loadedKernel_vm onDisk_over]
    exact ⟨0, by decide +kernel⟩
  have hon : (textPhdr 0x400000).OnPage (pageKey 0x400000) :=
    (onPage_text (by norm_num) (by norm_num)).mpr (by decide)
  have hcan : Canonical 0x400000 := Or.inl (by norm_num)
  -- a frame that was free is not the frame that was given out
  obtain ⟨T', -, hnew, -⟩ := loadImage_mapsLoaded hok (loadSafe_large onDisk_over)
  obtain ⟨i, -, hfreei, -, hwalk⟩ := hnew 0x400000 (by
    rw [hload]
    exact ⟨_, List.mem_cons_self, hon⟩)
  obtain ⟨j, -, hheld, hold⟩ := hmap 0x400000 (Or.inl hon)
  refine ⟨hneg, hcov, fun heq => ?_⟩
  unfold Mm.translate at heq
  rw [hmem, if_pos hcan, if_pos hcan, hwalk, hold] at heq
  have hframe : frameAddr i = frameAddr j := congrArg Pte.frame (Option.some.inj heq)
  rw [frameAddr_inj hframe, hheld] at hfreei
  cases hfreei

end Bangos.Proc
