import Bangos.Loader.Elf
import Bangos.Mm.DataFrames

/-!
# What loading an image does to the page tables

`elf_load_binary` maps each `PT_LOAD` segment as soon as it has frames for it, so that the
pages of the segments loaded so far are mapped anew whatever happens to the next one.  The
pages come from frames that were free before the call.

The image is read through the same tables.  It stays what it is while a segment is loaded that is
not mapped over it, if it lies in memory out of the reach of the allocator (`ImageAt`).
-/

namespace Bangos.Loader

open Bangos.Mm ByteMem

variable {m m' : Mem} {T : List ℕ → Option ℕ} {p : Phdr} {ps : List Phdr} {a i phys : ℕ}

/-- The tables on the way to the pages of a segment. -/
def Phdr.tables (p : Phdr) : Finset (List ℕ) := userTables p.pageVaddr p.numPages

/-- The pages of a segment, by their keys. -/
def Phdr.OnPage (p : Phdr) (key : ℕ) : Prop := OnRun p.pageVaddr p.numPages key

/-- What the file and the zeros after it fill lies in the frames of the segment, which are
not more than there are. -/
structure Phdr.Fits (p : Phdr) : Prop where
  contents : p.vaddrOffset + max p.pFilesz p.pMemsz ≤ p.numPages * pageSize
  numPages : p.numPages ≤ maxPages

/-- The segments that have got their frames. -/
def loaded (ts : List Turn) : List Phdr := ts.filterMap fun t => t.frames.map fun _ => t.phdr

/-- The tables on the way to the pages of the segments. -/
def segTables (ps : List Phdr) : Finset (List ℕ) := ps.foldr (fun p F => p.tables ∪ F) ∅

/-- The frames that the segments take. -/
def segFrames (ps : List Phdr) : ℕ := (ps.map Phdr.numPages).sum

/-- The pages of the segments, by their keys. -/
def OnSegments (ps : List Phdr) (key : ℕ) : Prop := ∃ p ∈ ps, p.OnPage key

lemma onSegments_cons {key : ℕ} :
    OnSegments (p :: ps) key ↔ p.OnPage key ∨ OnSegments ps key := by
  simp [OnSegments]

/-! ## One segment -/

/-- Only the bytes that are copied change. -/
lemma copyImage_eq (m : Mem) (a dst off n : ℕ) :
    copyImage m a dst off n = { m with phys := (copyImage m a dst off n).phys } ∧
      ∀ x, x < dst ∨ dst + n ≤ x → (copyImage m a dst off n).phys x = m.phys x := by
  induction n generalizing m dst off with
  | zero => exact ⟨rfl, fun _ _ => rfl⟩
  | succ n ih =>
    obtain ⟨he, hx⟩ := ih { m with phys := Function.update m.phys dst (image m a off) } (dst + 1)
      (off + 1)
    refine ⟨he, fun x hne => ?_⟩
    rw [copyImage, hx x (by omega)]
    exact Function.update_of_ne (by omega) _ _

lemma fillSegment_remaps (h : Shape m T) (hfit : p.Fits)
    (hdata : ∀ k, i ≤ k → k < i + p.numPages → Data m T k) :
    Remaps m T (fillSegment m a p (frameAddr i)) T ∅ 0 noPage := by
  have hoff : ∀ x n, frameAddr i ≤ x →
      x + n ≤ frameAddr i + p.vaddrOffset + max p.pFilesz p.pMemsz → Off T x n := by
    intro x n h1 h2
    refine h.off_data hdata h1 (h2.trans ?_)
    have := hfit.contents
    unfold frameAddr
    rw [Nat.add_mul]
    omega
  -- first the bytes of the file, then the zeros
  obtain ⟨he, hx⟩ := copyImage_eq m a (frameAddr i + p.vaddrOffset) p.pOffset p.pFilesz
  have hfile : Remaps m T (copyImage m a (frameAddr i + p.vaddrOffset) p.pOffset p.pFilesz) T ∅ 0
      noPage := by
    rw [he]
    exact h.write_remaps (hoff _ p.pFilesz (Nat.le_add_right _ _)
      (Nat.add_le_add_left (le_max_left _ _) _)) _ hx
  unfold fillSegment
  dsimp only
  generalize copyImage m a (frameAddr i + p.vaddrOffset) p.pOffset p.pFilesz = m1 at hfile ⊢
  split_ifs with hz
  · refine hfile.quiet (hfile.grows.shape.write_remaps (hoff (frameAddr i + p.vaddrOffset +
      p.pFilesz) (p.pMemsz - p.pFilesz) (by omega) ?_) _ fun x hx => fill_apply_of_not_mem hx)
    have := le_max_right p.pFilesz p.pMemsz
    omega
  · exact hfile

lemma fillSegment_pageBitmap (m : Mem) (a : ℕ) (p : Phdr) (phys : ℕ) :
    (fillSegment m a p phys).pageBitmap = m.pageBitmap := by
  have hcopy : (copyImage m a (phys + p.vaddrOffset) p.pOffset p.pFilesz).pageBitmap =
      m.pageBitmap := by rw [(copyImage_eq ..).1]
  unfold fillSegment
  dsimp only
  split_ifs <;> exact hcopy

/-- A segment that gets its frames, in three steps: the frames were free and hold data, they are
filled, and the pages are laid over the translation. -/
lemma loadSegment_steps (h : Shape m T) (hfit : p.Fits)
    (hroom : (missing T p.tables).card + p.numPages ≤ freeFrames m)
    (halloc : allocPages m p.numPages = (some phys, m')) :
    ∃ i T', phys = frameAddr i ∧ i + p.numPages ≤ maxPages ∧ FreeRun m.pageBitmap i p.numPages ∧
      (∀ k, i ≤ k → k < i + p.numPages → Data m' T k) ∧ Shape m' T ∧
      Remaps m T (fillSegment m' a p phys) T ∅ p.numPages noPage ∧
      (missing T p.tables).card ≤ freeFrames (fillSegment m' a p phys) ∧
      Remaps (fillSegment m' a p phys) T (placeSegment m' a p phys) T' p.tables 0 p.OnPage ∧
      ∀ v, walk (placeSegment m' a p phys) v =
        (userMap p.pageVaddr phys p.numPages v).or (walk (fillSegment m' a p phys) v) := by
  obtain ⟨i, rfl, hi, hrun, hdata⟩ := h.allocPages_data hfit.numPages halloc
  have h1 := h.allocPages_remaps hfit.numPages
  rw [halloc] at h1
  have h2 := h1.quiet (fillSegment_remaps (a := a) h1.grows.shape hfit hdata)
  have hroom' : (missing T p.tables).card ≤ freeFrames (fillSegment m' a p (frameAddr i)) := by
    refine h2.grows.fits_tables ?_
    rw [Finset.empty_union]
    exact hroom
  obtain ⟨T', h3, hw⟩ := mapUserPages_remaps h2.grows.shape p.pageVaddr (frameAddr i) p.numPages
    hroom'
  exact ⟨i, T', rfl, hi, hrun, hdata, h1.grows.shape, h2, hroom', h3, hw⟩

/-- A segment that gets its frames: its pages are mapped to frames that were free. -/
lemma loadSegment_remaps (h : Shape m T) (hfit : p.Fits)
    (hroom : (missing T p.tables).card + p.numPages ≤ freeFrames m)
    (halloc : allocPages m p.numPages = (some phys, m')) :
    ∃ T', Remaps m T (placeSegment m' a p phys) T'
        p.tables p.numPages p.OnPage ∧
      ∀ v, p.OnPage (pageKey v) → ∃ k < maxPages, m.pageBitmap k = false ∧
        (placeSegment m' a p phys).pageBitmap k = true ∧
        walk (placeSegment m' a p phys) v =
          some ⟨frameAddr k, true, true⟩ := by
  obtain ⟨i, T', rfl, hi, hrun, hdata, -, h2, -, h3, hw⟩ :=
    loadSegment_steps (a := a) h hfit hroom halloc
  refine ⟨T', h2.after h3, fun v hv => ?_⟩
  obtain ⟨x, hx⟩ := Option.ne_none_iff_exists'.mp (userMap_ne_none.mpr hv)
  obtain ⟨j, hj, -, rfl⟩ := userMap_frameAddr hi hx
  refine ⟨i + j, by omega, hrun _ (by omega) (by omega), ?_, ?_⟩
  · refine h3.grows.held ?_
    rw [fillSegment_pageBitmap]
    exact (hdata _ (by omega) (by omega)).1
  · rw [hw v, hx, Option.some_or]

/-! ## The image while a segment is loaded -/

lemma fillSegment_phys_of_not_mem {x : ℕ} (hx : x < phys + p.vaddrOffset ∨
      phys + p.vaddrOffset + max p.pFilesz p.pMemsz ≤ x) :
    (fillSegment m a p phys).phys x = m.phys x := by
  have hf := le_max_left p.pFilesz p.pMemsz
  have hm := le_max_right p.pFilesz p.pMemsz
  have hcopy := (copyImage_eq m a (phys + p.vaddrOffset) p.pOffset p.pFilesz).2 x (by omega)
  unfold fillSegment
  dsimp only
  split_ifs
  · exact (fill_apply_of_not_mem (by omega)).trans hcopy
  · exact hcopy

/-- Loading a segment keeps the pages out of the reach of the allocator. -/
lemma placeSegment_keepsPage {b : ℕ} (h : Shape m T) (hfit : p.Fits)
    (hroom : (missing T p.tables).card + p.numPages ≤ freeFrames m)
    (halloc : allocPages m p.numPages = (some phys, m')) (hb : OutOfReach m T b) :
    KeepsPage m (placeSegment m' a p phys) b := by
  obtain ⟨i, T', rfl, hi, hrun, -, -, h2, htables, -, -⟩ :=
    loadSegment_steps (a := a) h hfit hroom halloc
  have hapart := hb.toUnfree.apart hi hrun
  have hcontents := hfit.contents
  have hfill : KeepsPage m' (fillSegment m' a p (frameAddr i)) b :=
    fun x h1 h2 => fillSegment_phys_of_not_mem (by omega)
  exact ((allocPages_keepsPage hfit.numPages halloc hb.toUnfree).trans hfill).trans
    (mapUserPages_keepsPage h2.grows.shape (h2.grows.outOfReach hb) htables)

/-- The `size` bytes at address `a` are `d`, and lie in memory out of the reach of the allocator and
of `map_page`. -/
def ImageAt (m : Mem) (T : List ℕ → Option ℕ) (a size : ℕ) (d : ℕ → UInt8) : Prop :=
  ∀ x < size, ∃ ph, physOf m (u64 (a + x)) = some ph ∧ OutOfReach m T (ph / 4096 * 4096) ∧
    m.phys ph = d x

variable {size : ℕ} {d : ℕ → UInt8}

lemma ImageAt.image_eq {x : ℕ} (h : ImageAt m T a size d) (hx : x < size) : image m a x = d x := by
  obtain ⟨ph, hph, -, hd⟩ := h x hx
  rw [image, byteAt, hph, Option.map_some, Option.getD_some, hd]

lemma ImageAt.le_image {x n : ℕ} (h : ImageAt m T a size d) (hx : x + n ≤ size) :
    le (image m a) x n = le d x n :=
  le_congr fun y _ hy => h.image_eq (by omega)

lemma ImageAt.phdrAt_image {x : ℕ} (h : ImageAt m T a size d) (hx : x + 56 ≤ size) :
    phdrAt (image m a) x = phdrAt d x := by
  unfold phdrAt
  simp only [h.le_image (show x + 4 ≤ size by omega), h.le_image (show x + 8 + 8 ≤ size by omega),
    h.le_image (show x + 16 + 8 ≤ size by omega), h.le_image (show x + 32 + 8 ≤ size by omega),
    h.le_image (show x + 40 + 8 ≤ size by omega)]

lemma ImageAt.elfHeaderOk_image (h : ImageAt m T a size d) (h64 : 64 ≤ size) (n : ℕ) :
    elfHeaderOk (image m a) a n = elfHeaderOk d a n := by
  unfold elfHeaderOk
  simp only [h.le_image (show 0 + 4 ≤ size by omega), h.le_image (show 4 + 1 ≤ size by omega),
    h.le_image (show 18 + 2 ≤ size by omega)]

/-- A part of the image. -/
lemma ImageAt.part {n : ℕ} (h : ImageAt m T a size d) (off : ℕ) (hn : off + n ≤ size) :
    ImageAt m T (u64 (a + off)) n fun x => d (off + x) := by
  intro x hx
  have haddr : u64 (u64 (a + off) + x) = u64 (a + (off + x)) := by
    unfold u64
    rw [Nat.mod_add_mod, Nat.add_assoc]
  rw [haddr]
  exact h (off + x) (by omega)

/-- **The image stays what it is** in a step that keeps the pages out of reach and maps none of the
pages of the image. -/
lemma ImageAt.kept {T' : List ℕ → Option ℕ} {F : Finset (List ℕ)} {n : ℕ} {P : ℕ → Prop}
    (h : ImageAt m T a size d) (hr : Remaps m T m' T' F n P)
    (hkeep : ∀ b, OutOfReach m T b → KeepsPage m m' b)
    (hout : ∀ x < size, ¬ P (pageKey (u64 (a + x)))) : ImageAt m' T' a size d := by
  intro x hx
  obtain ⟨ph, hph, hreach, hd⟩ := h x hx
  refine ⟨ph, ?_, hr.grows.outOfReach hreach, ?_⟩
  · rw [← hph]
    unfold physOf Mm.translate
    rw [hr.walk _ (hout x hx)]
  · rw [hkeep _ hreach ph (by omega) (by omega), hd]

/-! ## All segments -/

section Loop

variable {phoff fuel : ℕ} {info : ElfInfo}

/-- The header that the loop reads in turn `i`. -/
def turnPhdr (m : Mem) (a phoff i : ℕ) : Phdr :=
  phdrAt (image m a) (phoff + i * le (image m a) 54 2)

/-- The loop ends when all headers have been looked at. -/
lemma loadSegments_done (hi : ¬ i < le (image m a) 56 2) :
    loadSegments m a phoff info fuel i = ((some info, m), []) := by
  cases fuel with
  | zero => rfl
  | succ fuel => rw [loadSegments, if_neg hi]

/-- A header that is not `PT_LOAD` is passed over. -/
lemma loadSegments_skip (hi : i < le (image m a) 56 2)
    (hl : ¬ (turnPhdr m a phoff i).isLoad = true) :
    loadSegments m a phoff info (fuel + 1) i =
      ((loadSegments m a phoff info fuel (i + 1)).1,
        ⟨i * le (image m a) 54 2, turnPhdr m a phoff i, none⟩ ::
          (loadSegments m a phoff info fuel (i + 1)).2) := by
  unfold turnPhdr at hl ⊢
  rw [loadSegments, if_pos hi]
  dsimp only
  rw [if_neg hl]

/-- The frames run out. -/
lemma loadSegments_of_none (hi : i < le (image m a) 56 2)
    (hl : (turnPhdr m a phoff i).isLoad = true)
    (ha : allocPages m (turnPhdr m a phoff i).numPages = (none, m')) :
    loadSegments m a phoff info (fuel + 1) i =
      ((none, m'), [⟨i * le (image m a) 54 2, turnPhdr m a phoff i, none⟩]) := by
  unfold turnPhdr at hl ha ⊢
  rw [loadSegments, if_pos hi]
  dsimp only
  rw [if_pos hl, ha]

/-- A segment gets its frames. -/
lemma loadSegments_of_some (hi : i < le (image m a) 56 2)
    (hl : (turnPhdr m a phoff i).isLoad = true)
    (ha : allocPages m (turnPhdr m a phoff i).numPages = (some phys, m')) :
    loadSegments m a phoff info (fuel + 1) i =
      ((loadSegments (placeSegment m' a (turnPhdr m a phoff i) phys) a phoff
          (info.addSegment (turnPhdr m a phoff i) phys) fuel (i + 1)).1,
        ⟨i * le (image m a) 54 2, turnPhdr m a phoff i, some phys⟩ ::
          (loadSegments (placeSegment m' a (turnPhdr m a phoff i) phys) a phoff
            (info.addSegment (turnPhdr m a phoff i) phys) fuel (i + 1)).2) := by
  unfold turnPhdr at hl ha ⊢
  rw [loadSegments, if_pos hi]
  dsimp only
  rw [if_pos hl, ha]

end Loop

/-- The condition on loading the image at `a`: the contents of the segments that get frames fit
into them, and there are frames also for the tables on the way to them. -/
structure LoadSafe (m : Mem) (a : ℕ) : Prop where
  fits : ∀ p ∈ loaded (loadImage m a).2, p.Fits
  room : (missing (Mm.tables m) (segTables (loaded (loadImage m a).2))).card +
    segFrames (loaded (loadImage m a).2) ≤ freeFrames m

/-- What a load `r` from the memory `m` has done: it has mapped the pages of the segments it has
loaded to frames that were free in `m`, and no other page, and it has kept the contents of the pages
out of the reach of the allocator. -/
def MapsLoaded (m : Mem) (T : List ℕ → Option ℕ) (r : (Option ElfInfo × Mem) × List Turn) : Prop :=
  ∃ T', Remaps m T r.1.2 T' (segTables (loaded r.2)) (segFrames (loaded r.2))
      (OnSegments (loaded r.2)) ∧
    (∀ v, OnSegments (loaded r.2) (pageKey v) → ∃ k < maxPages, m.pageBitmap k = false ∧
      r.1.2.pageBitmap k = true ∧ walk r.1.2 v = some ⟨frameAddr k, true, true⟩) ∧
    ∀ b, OutOfReach m T b → KeepsPage m r.1.2 b

/-- The loop is over, or the first segment gets no frames. -/
lemma mapsLoaded_nothing {r : (Option ElfInfo × Mem) × List Turn} (h : Shape m T) (hm : r.1.2 = m)
    (hl : loaded r.2 = []) : MapsLoaded m T r := by
  unfold MapsLoaded
  rw [hm, hl]
  refine ⟨T, ⟨h.grows (by simp [segTables]) rfl, fun _ _ => rfl⟩, ?_, fun b _ => KeepsPage.refl m b⟩
  rintro v ⟨q, hq, -⟩
  cases hq

/-- A segment that gets its frames, and what is loaded after it. -/
lemma mapsLoaded_cons {r : (Option ElfInfo × Mem) × List Turn} {stride : ℕ} (h : Shape m T)
    (ha : allocPages m p.numPages = (some phys, m'))
    (hfit : ∀ q ∈ loaded (⟨stride, p, some phys⟩ :: r.2), q.Fits)
    (hroom : (missing T (segTables (loaded (⟨stride, p, some phys⟩ :: r.2)))).card +
      segFrames (loaded (⟨stride, p, some phys⟩ :: r.2)) ≤ freeFrames m)
    (hrest : ∀ T1, Shape (placeSegment m' a p phys) T1 → (∀ q ∈ loaded r.2, q.Fits) →
      (missing T1 (segTables (loaded r.2))).card + segFrames (loaded r.2) ≤
        freeFrames (placeSegment m' a p phys) → MapsLoaded (placeSegment m' a p phys) T1 r) :
    MapsLoaded m T (r.1, ⟨stride, p, some phys⟩ :: r.2) := by
  have hload : loaded (⟨stride, p, some phys⟩ :: r.2) = p :: loaded r.2 := rfl
  have hframes : segFrames (p :: loaded r.2) = p.numPages + segFrames (loaded r.2) := List.sum_cons
  have htables : segTables (p :: loaded r.2) = p.tables ∪ segTables (loaded r.2) := rfl
  unfold MapsLoaded
  rw [hload] at hfit hroom ⊢
  rw [hframes, htables] at hroom ⊢
  have hroom1 : (missing T p.tables).card + p.numPages ≤ freeFrames m := by
    have := missing_mono (T := T)
      (Finset.subset_union_left : p.tables ⊆ p.tables ∪ segTables (loaded r.2))
    omega
  have hfit1 := hfit p List.mem_cons_self
  obtain ⟨T1, hr1, hv1⟩ := loadSegment_remaps (a := a) h hfit1 hroom1 ha
  obtain ⟨T2, hr2, hv2, hkeep2⟩ := hrest T1 hr1.grows.shape
    (fun q hq => hfit q (List.mem_cons_of_mem p hq)) (hr1.grows.fits_rest hroom)
  refine ⟨T2, ⟨(hr1.trans hr2).grows, fun v hv => ?_⟩, fun v hv => ?_, fun b hb => ?_⟩
  · exact (hr1.trans hr2).walk v fun ho => hv (onSegments_cons.mpr ho)
  · by_cases hlater : OnSegments (loaded r.2) (pageKey v)
    · obtain ⟨k, hk, hfree, hheld, hwalk⟩ := hv2 v hlater
      refine ⟨k, hk, ?_, hheld, hwalk⟩
      by_contra hb
      rw [Bool.not_eq_false] at hb
      exact absurd (hfree.symm.trans (hr1.grows.held hb)) (by simp)
    · obtain ⟨k, hk, hfree, hheld, hwalk⟩ := hv1 v ((onSegments_cons.mp hv).resolve_right hlater)
      exact ⟨k, hk, hfree, hr2.grows.held hheld, (hr2.walk v hlater).trans hwalk⟩
  · exact (placeSegment_keepsPage h hfit1 hroom1 ha hb).trans (hkeep2 b (hr1.grows.outOfReach hb))

/-- **The loop of `elf_load_binary`**, whether it runs out of frames or not, maps the pages of
the segments it has loaded to frames that were free before, and no other page. -/
lemma loadSegments_remaps (phoff : ℕ) (info : ElfInfo) (fuel i : ℕ) (h : Shape m T)
    (hfit : ∀ p ∈ loaded (loadSegments m a phoff info fuel i).2, p.Fits)
    (hroom : (missing T (segTables (loaded (loadSegments m a phoff info fuel i).2))).card +
      segFrames (loaded (loadSegments m a phoff info fuel i).2) ≤ freeFrames m) :
    MapsLoaded m T (loadSegments m a phoff info fuel i) := by
  induction fuel generalizing m T info i with
  | zero => exact mapsLoaded_nothing h rfl rfl
  | succ fuel ih =>
    by_cases hi : i < le (image m a) 56 2
    · by_cases hl : (turnPhdr m a phoff i).isLoad = true
      · rcases ha : allocPages m (turnPhdr m a phoff i).numPages with ⟨r, m1⟩
        cases r with
        | none =>
          rw [loadSegments_of_none hi hl ha]
          exact mapsLoaded_nothing h (allocPages_eq_none ha) rfl
        | some phys =>
          rw [loadSegments_of_some hi hl ha] at hfit hroom ⊢
          exact mapsLoaded_cons h ha hfit hroom fun T1 hs hfit' hroom' => ih _ _ hs hfit' hroom'
      · rw [loadSegments_skip hi hl] at hfit hroom ⊢
        exact ih info (i + 1) h hfit hroom
    · rw [loadSegments_done hi]
      exact mapsLoaded_nothing h rfl rfl

/-- A load that meets its condition. -/
theorem loadImage_mapsLoaded (h : TablesOk m) (hs : LoadSafe m a) :
    MapsLoaded m (Mm.tables m) (loadImage m a) :=
  loadSegments_remaps _ _ _ _ h hs.fits hs.room

end Bangos.Loader
