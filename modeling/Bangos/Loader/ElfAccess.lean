import Bangos.Loader.LoadTables
import Bangos.Mm.BootTables

/-!
# What the loader touches

`elf_load_binary` checks that the image has room for an ELF header, and from then on trusts every
number it finds there.  What it touches is read off the turns of its loop: the products
`i * e_phentsize`, which are computed in `int`, the reads of the image, and the stores into the
frames of a segment.  An access outside the image, or outside the frames that the segment got,
is not noticed by the code, so that the images that are loaded safely are those whose headers and
segments, as the loop finds them, fit; the condition says what that means for each of the six
numbers.
-/

namespace Bangos.Loader

open Bangos.Mm ByteMem

variable {m m' : Mem} {p : Phdr} {t : Turn} {size phoff phys a n : ℕ}

/-! ## The accesses -/

/-- What the loader does with a number of the image: a product in `int`, a read of `len` bytes of
the image, a store of `len` bytes into the `numPages` frames from `phys` on. -/
inductive Access where
  | product (value : ℕ)
  | read (offset len : ℕ)
  | store (phys numPages addr len : ℕ)
deriving DecidableEq

/-- Every byte from `a` to `a + n` lies in a frame of the pool that is one of the `count` frames from
`phys` on. -/
def InFrames (phys count a n : ℕ) : Prop :=
  ∀ x, a ≤ x → x < a + n → ∃ k < count, ∃ j < maxPages,
    phys + k * pageSize = frameAddr j ∧ frameAddr j ≤ x ∧ x < frameAddr j + pageSize

/-- The product fits an `int`, the read stays inside an image of `size` bytes, the store inside the
frames of the segment. -/
def Access.Inside (size : ℕ) : Access → Prop
  | .product value => value < 2 ^ 31
  | .read offset len => offset + len ≤ size
  | .store phys numPages addr len => InFrames phys numPages addr len

/-- The reads of a program header in a table at `phoff`: its type, and if it is `PT_LOAD` four other
fields. -/
def headerAccesses (phoff : ℕ) (t : Turn) : List Access :=
  let x := phoff + t.stride
  [.product t.stride, .read x 4] ++
    if t.phdr.isLoad then [.read (x + 16) 8, .read (x + 40) 8, .read (x + 32) 8, .read (x + 8) 8]
    else []

/-- The contents of a segment: the bytes of the file, and the zeros behind them. -/
def contentAccesses (p : Phdr) (phys : ℕ) : List Access :=
  (if p.pFilesz > 0 then
    [.read p.pOffset p.pFilesz, .store phys p.numPages (phys + p.vaddrOffset) p.pFilesz]
  else []) ++
    if p.pMemsz > p.pFilesz then
      [.store phys p.numPages (phys + p.vaddrOffset + p.pFilesz) (p.pMemsz - p.pFilesz)]
    else []

/-- What a turn touches. -/
def Turn.accesses (phoff : ℕ) (t : Turn) : List Access :=
  headerAccesses phoff t ++
    match t.frames with
    | some phys => contentAccesses t.phdr phys
    | none => []

/-- What `elf_load_binary` touches; the fields of the ELF header, which it reads again in every turn,
are one read. -/
def elfAccesses (m : Mem) (a size : ℕ) : List Access :=
  if a = 0 ∨ size < 64 then []
  else if elfHeaderOk (image m a) a size then
    .read 0 64 :: (loadImage m a).2.flatMap (Turn.accesses (le (image m a) 32 8))
  else [.read 0 64]

/-- The frames of a turn have been allocated for its segment. -/
def Turn.Allocated (t : Turn) : Prop :=
  ∀ phys, t.frames = some phys → ∃ m m', allocPages m t.phdr.numPages = (some phys, m')

lemma loadSegments_allocated (m : Mem) (a phoff : ℕ) (info : ElfInfo) (fuel i : ℕ) :
    ∀ t ∈ (loadSegments m a phoff info fuel i).2, t.Allocated := by
  induction fuel generalizing m info i with
  | zero => simp [loadSegments]
  | succ fuel ih =>
    by_cases hi : i < le (image m a) 56 2
    · by_cases hl : (turnPhdr m a phoff i).isLoad = true
      · rcases ha : allocPages m (turnPhdr m a phoff i).numPages with ⟨r, m1⟩
        cases r with
        | none =>
          rw [loadSegments_of_none hi hl ha]
          simp [Turn.Allocated]
        | some phys =>
          rw [loadSegments_of_some hi hl ha]
          refine List.forall_mem_cons.mpr ⟨?_, ih _ _ _⟩
          rintro x hx
          obtain rfl := Option.some.inj hx
          exact ⟨m, m1, ha⟩
      · rw [loadSegments_skip hi hl]
        exact List.forall_mem_cons.mpr ⟨(fun _ hx => by cases hx), ih _ _ _⟩
    · rw [loadSegments_done hi]
      simp

/-! ## Stores into frames -/

lemma inFrames_of_le {i count : ℕ} (hi : i + count ≤ maxPages) (h1 : frameAddr i ≤ a)
    (h2 : a + n ≤ frameAddr i + count * pageSize) : InFrames (frameAddr i) count a n := by
  intro x hx1 hx2
  obtain ⟨y, rfl⟩ := Nat.exists_eq_add_of_le (h1.trans hx1)
  have hy : y < count * 4096 := by
    unfold pageSize at h2
    omega
  have hdiv := Nat.div_add_mod y 4096
  have hmod := Nat.mod_lt y (show 0 < 4096 by norm_num)
  have hlt : y / 4096 < count := Nat.div_lt_of_lt_mul (by rwa [Nat.mul_comm] at hy)
  have hframe : frameAddr (i + y / 4096) = frameAddr i + y / 4096 * 4096 := by
    unfold frameAddr pageSize
    rw [Nat.add_mul, Nat.add_assoc]
  refine ⟨y / 4096, hlt, i + y / 4096, by omega, hframe.symm, ?_, ?_⟩
  · rw [hframe]
    omega
  · rw [hframe]
    unfold pageSize
    omega

/-- Stores that touch the first frame of a segment and its last byte show that the segment has its
frames, and that they are frames of the pool. -/
lemma fits_of_touched {k0 j0 k j : ℕ} (h0 : phys + k0 * pageSize = frameAddr j0)
    (hx0 : frameAddr j0 ≤ phys + p.vaddrOffset) (hk : k < p.numPages) (hj : j < maxPages)
    (h1 : phys + k * pageSize = frameAddr j)
    (hx1 : frameAddr j ≤ phys + p.vaddrOffset + (max p.pFilesz p.pMemsz - 1))
    (hx2 : phys + p.vaddrOffset + (max p.pFilesz p.pMemsz - 1) < frameAddr j + pageSize)
    (hpos : 0 < max p.pFilesz p.pMemsz) : p.Fits := by
  have hoff : p.vaddrOffset < 4096 := Nat.mod_lt _ (by norm_num)
  have hle : p.numPages * 4096 ≤ p.pMemsz + p.vaddrOffset + 4095 :=
    (Nat.div_mul_le_self _ _).trans (Nat.mod_le _ _)
  have hmax := le_max_right p.pFilesz p.pMemsz
  have hbase := Nat.mul_le_mul_right 4096 (Nat.succ_le_of_lt hk)
  unfold frameAddr physMemoryBase pageSize at *
  constructor
  · unfold pageSize
    omega
  · omega

/-- **The contents of a segment** that got its frames are read and stored inside when the file has
the bytes and the frames have the room. -/
lemma contentAccesses_inside (halloc : allocPages m p.numPages = (some phys, m')) :
    (∀ x ∈ contentAccesses p phys, x.Inside size) ↔
      (0 < p.pFilesz → p.pOffset + p.pFilesz ≤ size) ∧ p.Fits := by
  have hoff : p.vaddrOffset < 4096 := Nat.mod_lt _ (by norm_num)
  constructor
  · intro h
    refine ⟨fun hf => ?_, ?_⟩
    · exact h (.read p.pOffset p.pFilesz) (by simp [contentAccesses, hf])
    · have hbyte : ∀ y < max p.pFilesz p.pMemsz, ∃ k < p.numPages, ∃ j < maxPages,
          phys + k * pageSize = frameAddr j ∧ frameAddr j ≤ phys + p.vaddrOffset + y ∧
            phys + p.vaddrOffset + y < frameAddr j + pageSize := by
        intro y hy
        by_cases hyf : y < p.pFilesz
        · exact h (.store phys p.numPages (phys + p.vaddrOffset) p.pFilesz)
            (by simp [contentAccesses, Nat.zero_lt_of_lt hyf]) _ (by omega) (by omega)
        · have hym : y < p.pMemsz := (lt_max_iff.mp hy).resolve_left hyf
          exact h (.store phys p.numPages (phys + p.vaddrOffset + p.pFilesz) (p.pMemsz - p.pFilesz))
            (by simp [contentAccesses, show p.pFilesz < p.pMemsz by omega]) _ (by omega) (by omega)
      by_cases h0 : max p.pFilesz p.pMemsz = 0
      · -- nothing is stored, and there is at most one page
        have hm0 : p.pMemsz = 0 := by omega
        have hpages : p.numPages = (p.vaddrOffset + 4095) / 4096 := by
          unfold Phdr.numPages u64 pageSize
          omega
        refine ⟨?_, ?_⟩
        · rw [h0, hpages]
          unfold pageSize
          omega
        · rw [hpages]
          unfold maxPages
          omega
      · obtain ⟨k0, -, j0, -, hframe0, hle0, -⟩ := hbyte 0 (by omega)
        obtain ⟨k, hk, j, hj, hframe, hle, hlt⟩ := hbyte (max p.pFilesz p.pMemsz - 1) (by omega)
        exact fits_of_touched hframe0 hle0 hk hj hframe hle hlt (by omega)
  · rintro ⟨hfile, hfit⟩
    obtain ⟨i, -, hi, -, rfl, -⟩ := allocPages_eq_some hfit.numPages halloc
    have hroom := hfit.contents
    have hf := le_max_left p.pFilesz p.pMemsz
    have hm := le_max_right p.pFilesz p.pMemsz
    intro x hx
    unfold contentAccesses at hx
    rcases List.mem_append.mp hx with hx | hx
    · split_ifs at hx with hpos
      · rcases List.mem_cons.mp hx with rfl | hx
        · exact hfile hpos
        · rw [List.mem_singleton.mp hx]
          exact inFrames_of_le hi (Nat.le_add_right _ _) (by omega)
      · cases hx
    · split_ifs at hx with hpos
      · rw [List.mem_singleton.mp hx]
        exact inFrames_of_le hi (by omega) (by omega)
      · cases hx

/-! ## The images that are loaded safely -/

/-- Everything that `elf_load_binary` touches lies inside the image, or inside the frames of the
segment that is being loaded. -/
def LoadsSafely (m : Mem) (a size : ℕ) : Prop := ∀ x ∈ elfAccesses m a size, x.Inside size

/-- A program header lies inside the image, as far as the loader reads it. -/
def HeaderFits (phoff size : ℕ) (t : Turn) : Prop :=
  t.stride < 2 ^ 31 ∧ phoff + t.stride + (if t.phdr.isLoad then 48 else 4) ≤ size

/-- The file part of a segment lies inside the image, and the segment fits into its frames. -/
def SegmentFits (size : ℕ) (p : Phdr) : Prop :=
  (0 < p.pFilesz → p.pOffset + p.pFilesz ≤ size) ∧ p.Fits

lemma headerAccesses_inside :
    (∀ x ∈ headerAccesses phoff t, x.Inside size) ↔ HeaderFits phoff size t := by
  unfold headerAccesses HeaderFits
  by_cases hl : t.phdr.isLoad = true
  · simp only [hl, if_true, List.forall_mem_append, List.forall_mem_cons, Access.Inside,
      List.not_mem_nil, false_implies, implies_true, and_true]
    omega
  · simp only [hl, Bool.false_eq_true, if_false, List.forall_mem_append, List.forall_mem_cons,
      Access.Inside, List.not_mem_nil, false_implies, implies_true, and_true]

lemma accesses_inside (h : t.Allocated) :
    (∀ x ∈ t.accesses phoff, x.Inside size) ↔ HeaderFits phoff size t ∧
      ∀ phys, t.frames = some phys → SegmentFits size t.phdr := by
  unfold Turn.accesses
  rw [List.forall_mem_append, headerAccesses_inside]
  cases hf : t.frames with
  | none => simp
  | some phys =>
    obtain ⟨m, m', ha⟩ := h phys hf
    dsimp only
    rw [contentAccesses_inside ha]
    simp [SegmentFits]

/-- **The images that are loaded safely**, for every image anywhere in memory: the ELF header is
refused, or every program header that the loop finds lies inside the image, and every segment that
gets frames has its file part inside the image and fits into its frames.  The headers are those
that the loop reads, also where it has mapped a segment over the image. -/
theorem loadsSafely_iff (m : Mem) (a size : ℕ) :
    LoadsSafely m a size ↔ elfHeaderOk (image m a) a size = false ∨
      (∀ t ∈ (loadImage m a).2, HeaderFits (le (image m a) 32 8) size t) ∧
        ∀ p ∈ loaded (loadImage m a).2, SegmentFits size p := by
  unfold LoadsSafely elfAccesses
  by_cases hsize : a = 0 ∨ size < 64
  · have hno : elfHeaderOk (image m a) a size = false := by
      simp only [elfHeaderOk, decide_eq_false_iff_not]
      omega
    simp [hsize, hno]
  · have hhead : (Access.read 0 64).Inside size := by
      unfold Access.Inside
      omega
    rw [if_neg hsize]
    cases hok : elfHeaderOk (image m a) a size with
    | false => simpa using hhead
    | true =>
      have hall : ∀ t ∈ (loadImage m a).2, t.Allocated := loadSegments_allocated m a _ _ _ _
      have hturns : (∀ x ∈ (loadImage m a).2.flatMap (Turn.accesses (le (image m a) 32 8)),
          x.Inside size) ↔ ∀ t ∈ (loadImage m a).2, HeaderFits (le (image m a) 32 8) size t ∧
            ∀ phys, t.frames = some phys → SegmentFits size t.phdr := by
        simp only [List.forall_mem_flatMap]
        exact forall₂_congr fun t ht => accesses_inside (hall t ht)
      have hloaded : (∀ p ∈ loaded (loadImage m a).2, SegmentFits size p) ↔
          ∀ t ∈ (loadImage m a).2, ∀ phys, t.frames = some phys → SegmentFits size t.phdr := by
        simp only [loaded, List.mem_filterMap, Option.map_eq_some_iff]
        exact ⟨fun h t ht phys hf => h _ ⟨t, ht, phys, hf, rfl⟩,
          fun h p ⟨t, ht, phys, hf, he⟩ => he ▸ h t ht phys hf⟩
      simp only [if_true, List.forall_mem_cons, hhead, true_and, hturns, hloaded,
        Bool.true_eq_false, false_or]
      exact forall₂_and

/-! ## Images in memory after `mm_init` -/

/-- What `mm_init` finds below the pool is an image at its own address. -/
lemma imageAt_mmInit (phys : ℕ → UInt8) (oob : ℕ → Bool) (h : a + n ≤ physMemoryBase) :
    ImageAt (mmInit phys oob) (tables (mmInit phys oob)) a n fun x => phys (a + x) := by
  obtain ⟨hok, -, hwalk⟩ := mmInit_spec phys oob
  intro x hx
  have hlow : a + x < 0x2000000 := by
    unfold physMemoryBase at h
    omega
  have hu : u64 (a + x) = a + x := Nat.mod_eq_of_lt (by omega)
  have hcan : Canonical (a + x) := Or.inl (by omega)
  refine ⟨a + x, ?_, hok.outOfReach_low (by omega) (by unfold physMemoryBase; omega),
    mmInit_low phys oob (by unfold physMemoryBase; omega)⟩
  rw [hu]
  unfold physOf Mm.translate
  rw [if_pos hcan, hwalk _ (by omega), Option.map_some]
  unfold frameOf
  congr 1
  dsimp only
  omega

/-- Memory with an image at `a` with one segment, whose file part starts with the image itself. -/
def segmentImage (a vaddr filesz memsz : ℕ) : ℕ → UInt8 :=
  putFields (fun _ => 0) a
    [(4, 0x464C457F), (1, 2), (1, 1), (10, 1), (2, 2), (2, 0x3E), (4, 1), (8, vaddr), (8, 64),
      (8, 0), (4, 0), (2, 64), (2, 56), (2, 1), (6, 0),
      (4, 1), (4, 7), (8, 0), (8, vaddr), (8, vaddr), (8, filesz), (8, memsz), (8, 0x1000)]

/-- The first turn for an image whose first header is a segment of one page. -/
lemma loadImage_first {d : ℕ → UInt8} (himage : ImageAt m (tables m) a size d) (hsize : 120 ≤ size)
    (hfree : 0 < freeFrames m) (hphnum : 0 < le d 56 2) (hphoff : le d 32 8 = 64)
    (hp : phdrAt d 64 = p) (hl : p.isLoad = true) (hn : p.numPages = 1) :
    ∃ phys m1, allocPages m p.numPages = (some phys, m1) ∧
      loadImage m a = ((loadSegments (placeSegment m1 a p phys) a 64
          ((initInfo m a).addSegment p phys) 65535 1).1,
        ⟨0, p, some phys⟩ :: (loadSegments (placeSegment m1 a p phys) a 64
          ((initInfo m a).addSegment p phys) 65535 1).2) := by
  have hnum : (0 : ℕ) < le (image m a) 56 2 := by
    rw [himage.le_image (by omega)]
    exact hphnum
  have hturn : turnPhdr m a 64 0 = p := by
    rw [turnPhdr, Nat.zero_mul, himage.phdrAt_image (by omega), hp]
  obtain ⟨phys, m1, ha⟩ := allocPage_isSome (m := m) hfree
  have ha' : allocPages m p.numPages = (some phys, m1) := by
    rw [hn]
    exact ha
  have hstart : loadImage m a = loadSegments m a 64 (initInfo m a) (65535 + 1) 0 := by
    rw [loadImage, himage.le_image (by omega), hphoff]
    rfl
  refine ⟨phys, m1, ha', ?_⟩
  rw [hstart, loadSegments_of_some hnum (by rw [hturn]; exact hl) (by rw [hturn]; exact ha'), hturn,
    Nat.zero_mul]

/-- A segment of one page needs no more than three tables. -/
lemma room_of_four (hfree : 4 ≤ freeFrames m) (hn : p.numPages = 1) :
    (missing (tables m) p.tables).card + p.numPages ≤ freeFrames m := by
  have hcard := (missing_card_le (tables m) p.tables).trans (card_userTables_le p.pageVaddr p.numPages)
  rw [hn] at hcard ⊢
  omega

/-- An image with one segment of one page, elsewhere than the image, is loaded in one turn. -/
lemma loadImage_one {d : ℕ → UInt8} (hok : TablesOk m) (himage : ImageAt m (tables m) a 120 d)
    (hfree : 4 ≤ freeFrames m) (hphnum : le d 56 2 = 1) (hphoff : le d 32 8 = 64)
    (hp : phdrAt d 64 = p) (hl : p.isLoad = true) (hn : p.numPages = 1) (hfit : p.Fits)
    (hout : ∀ x < 120, ¬ p.OnPage (pageKey (u64 (a + x)))) :
    ∃ m' phys, loadImage m a =
      ((some ((initInfo m a).addSegment p phys), m'), [⟨0, p, some phys⟩]) := by
  obtain ⟨phys, m1, ha, hload⟩ := loadImage_first himage le_rfl (by omega) (by omega) hphoff hp hl hn
  have hroom := room_of_four hfree hn
  obtain ⟨T', hr, -⟩ := loadSegment_remaps (a := a) hok hfit hroom ha
  have hkept := himage.kept hr (fun b hb => placeSegment_keepsPage hok hfit hroom ha hb) hout
  rw [loadSegments_done (by rw [hkept.le_image (by norm_num), hphnum]; omega)] at hload
  exact ⟨_, phys, hload⟩

/-- **A segment with 5000 bytes in the file and one in memory** gets one frame, and the loader copies
the 5000 bytes there.  When the image ends with its ELF header, the program header is read behind
its end, and the loader returns 0. -/
theorem overlong_image :
    ¬ LoadsSafely (mmInit (segmentImage 0x10000 0x400000 5000 1) fun _ => false) 0x10000 5120 ∧
      ¬ LoadsSafely (mmInit (segmentImage 0x10000 0x400000 100 300) fun _ => false) 0x10000 64 ∧
      (elfLoadBinary (mmInit (segmentImage 0x10000 0x400000 100 300) fun _ => false) 0x10000
        64).1 ≠ none := by
  have hfree : ∀ phys, 4 ≤ freeFrames (mmInit phys fun _ => false) := fun phys => by
    have hcount := (mmInit_spec phys fun _ => false).2.1
    unfold maxPages at hcount
    omega
  -- the image with 5000 bytes in the file
  have hlong := imageAt_mmInit (segmentImage 0x10000 0x400000 5000 1) (fun _ => false)
    (a := 0x10000) (n := 120) (by decide)
  -- the image that ends with its ELF header
  have hshort := imageAt_mmInit (segmentImage 0x10000 0x400000 100 300) (fun _ => false)
    (a := 0x10000) (n := 120) (by decide)
  refine ⟨fun hs => ?_, fun hs => ?_, ?_⟩
  · obtain ⟨phys, m1, -, hload⟩ := loadImage_first (p := ⟨1, 0, 0x400000, 5000, 1⟩) hlong
      le_rfl (Nat.zero_lt_of_lt (hfree _)) (by decide +kernel) (by decide +kernel) rfl rfl rfl
    rcases (loadsSafely_iff _ _ _).mp hs with hbad | ⟨-, hsegments⟩
    · rw [hlong.elfHeaderOk_image (by norm_num)] at hbad
      exact absurd hbad (by decide +kernel)
    · rw [hload] at hsegments
      -- the file part is larger than the frame
      exact absurd (hsegments ⟨1, 0, 0x400000, 5000, 1⟩ List.mem_cons_self).2.contents (by decide)
  · obtain ⟨phys, m1, -, hload⟩ := loadImage_first (p := ⟨1, 0, 0x400000, 100, 300⟩) hshort
      le_rfl (Nat.zero_lt_of_lt (hfree _)) (by decide +kernel) (by decide +kernel) rfl rfl rfl
    rcases (loadsSafely_iff _ _ _).mp hs with hbad | ⟨hheaders, -⟩
    · rw [hshort.elfHeaderOk_image (by norm_num)] at hbad
      exact absurd hbad (by decide +kernel)
    · have hphoff : le (fun x => segmentImage 0x10000 0x400000 100 300 (0x10000 + x)) 32 8 = 64 := by
        decide +kernel
      rw [hload, hshort.le_image (by norm_num), hphoff] at hheaders
      -- the program header starts where the image ends
      have hin : 64 + 0 + 48 ≤ 64 := (hheaders _ List.mem_cons_self).2
      exact absurd hin (by decide)
  · have hout : ∀ x < 120, ¬ Phdr.OnPage ⟨1, 0, 0x400000, 100, 300⟩ (pageKey (u64 (0x10000 + x))) := by
      rintro x hx ⟨j, hj, he⟩
      obtain rfl : j = 0 := Nat.lt_one_iff.mp hj
      have hpage : pageAt (Phdr.pageVaddr ⟨1, 0, 0x400000, 100, 300⟩) 0 = 0x400000 := by decide
      rw [hpage] at he
      unfold pageKey u64 at he
      omega
    obtain ⟨m', phys, hload⟩ := loadImage_one (mmInit_spec _ _).1 hshort (hfree _)
      (by decide +kernel) (by decide +kernel) rfl rfl rfl ⟨by decide, by decide⟩ hout
    rw [elfLoadBinary, hshort.elfHeaderOk_image (by norm_num), if_pos (by decide +kernel), hload]
    exact Option.some_ne_none _

end Bangos.Loader
