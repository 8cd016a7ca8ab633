import Bangos.Mm.FramePool

/-!
# First fit, and the bounds of the search

`alloc_pages` is the plain scan that tries every start in turn: the skip over full words and the jump
behind the first frame in use leave out no start that would do.

The scan stays inside the bitmap as long as the request is for no more than `MAX_PAGES` frames.  A
larger request makes `MAX_PAGES - count` wrap around, and the scan always runs past the end of the
bitmap: it has no other way to end.  To state that, the loops are run with the list of the frames
whose bits they look at.
-/

namespace Bangos.Mm

open ByteMem

variable {bm : ℕ → Bool} {count i j n : ℕ}

/-! ## The plain scan -/

/-- The plain scan: the first of the starts 0, 1, 2, … with `count` free frames. -/
def plainScan (bm : ℕ → Bool) (count : ℕ) : Option ℕ :=
  (List.range (maxPages + 1 - count)).find? fun i => (List.range count).all fun j => !bm (i + j)

/-- The starts of free runs inside the pool. -/
def freeStarts (bm : ℕ → Bool) (count : ℕ) : Set ℕ := {i | i + count ≤ maxPages ∧ FreeRun bm i count}

lemma all_free_iff : ((List.range count).all fun j => !bm (i + j)) = true ↔ FreeRun bm i count := by
  simp only [List.all_eq_true, List.mem_range, Bool.not_eq_true']
  constructor
  · intro h k h1 h2
    have := h (k - i) (by omega)
    rwa [Nat.add_sub_cancel' h1] at this
  · intro h j hj
    exact h (i + j) (by omega) (by omega)

lemma plainScan_eq_some (hc : count ≤ maxPages) :
    plainScan bm count = some i ↔ IsLeast (freeStarts bm count) i := by
  unfold plainScan
  rw [List.find?_range_eq_some, all_free_iff, List.mem_range]
  constructor
  · rintro ⟨hfree, hi, hbefore⟩
    refine ⟨⟨by omega, hfree⟩, ?_⟩
    rintro j ⟨-, hj⟩
    by_contra hlt
    have := hbefore j (by omega)
    rw [all_free_iff.mpr hj] at this
    cases this
  · rintro ⟨⟨hi, hfree⟩, hleast⟩
    refine ⟨hfree, by omega, fun j hj => ?_⟩
    rw [Bool.not_eq_true']
    by_contra hne
    have hmem : j ∈ freeStarts bm count :=
      ⟨by omega, all_free_iff.mp (by simpa using hne)⟩
    have := hleast hmem
    omega

lemma plainScan_eq_none : plainScan bm count = none ↔ ∀ i, i + count ≤ maxPages → ¬ FreeRun bm i count := by
  unfold plainScan
  rw [List.find?_range_eq_none]
  refine forall_congr' fun i => ?_
  rw [Bool.not_eq_true', ← Bool.not_eq_true, all_free_iff]
  exact ⟨fun h hi => h (by omega), fun h hi => h (by omega)⟩

/-- The search of `alloc_pages` finds what the plain scan finds. -/
lemma allocSearch_eq_plainScan (h0 : 0 < count) (hc : count ≤ maxPages) :
    allocSearch bm count (lastStart count + 1) 0 = plainScan bm count := by
  have hl := lastStart_eq h0 hc
  cases hs : allocSearch bm count (lastStart count + 1) 0 with
  | none =>
    refine (plainScan_eq_none.mpr fun i hi hfree => ?_).symm
    obtain ⟨r, -, hr⟩ := allocSearch_complete h0 hfree (by omega) (lastStart count + 1)
      (Nat.zero_le i) (by omega)
    rw [hs] at hr
    cases hr
  | some r =>
    obtain ⟨hr, hfree⟩ := allocSearch_sound _ hs
    refine ((plainScan_eq_some hc).mpr ⟨⟨by omega, hfree⟩, ?_⟩).symm
    rintro i ⟨hi, hrun⟩
    obtain ⟨r', hle, hr'⟩ := allocSearch_complete h0 hrun (by omega) (lastStart count + 1)
      (Nat.zero_le i) (by omega)
    rw [hs] at hr'
    cases hr'
    exact hle

namespace Pool

/-- The plain scan on the packed bitmap: mark the first run and clear its frames. -/
def scanAlloc (p : Pool) (count : ℕ) : Option ℕ × Pool :=
  match plainScan (bitAt p.bytes) count with
  | none => (none, p)
  | some i => (some (frameAddr i),
      ⟨markRun p.bytes i count, fill p.phys (frameAddr i) (count * pageSize) 0⟩)

lemma allocPages_eq_scanAlloc (p : Pool) (h0 : 0 < count) (hc : count ≤ maxPages) :
    p.allocPages count = p.scanAlloc count := by
  have hlen : u64 (count * pageSize) = count * pageSize := by
    unfold u64 pageSize maxPages at *
    omega
  unfold allocPages scanAlloc
  rw [if_neg (by omega), allocSearch_eq, allocSearch_eq_plainScan h0 hc, hlen]
  cases hs : plainScan (bitAt p.bytes) count with
  | none => rfl
  | some i =>
    have hi := ((plainScan_eq_some hc).mp hs).1.1
    have haddr : u64 (physMemoryBase + i * pageSize) = frameAddr i := by
      unfold u64 frameAddr physMemoryBase pageSize maxPages at *
      omega
    dsimp only
    rw [haddr]

/-- **`alloc_pages` is first fit**: for every bitmap it does what the plain scan does.  It returns the
lowest run of free frames and sets exactly its bits, and null, with nothing changed, exactly if there
is none. -/
theorem alloc_first_fit (p : Pool) (count : ℕ) (h0 : 1 ≤ count) (hc : count ≤ maxPages) :
    p.allocPages count = p.scanAlloc count ∧
      (∀ i, IsLeast (freeStarts (bitAt p.bytes) count) i →
        (p.allocPages count).1 = some (frameAddr i) ∧
          ∀ k, bitAt (p.allocPages count).2.bytes k =
            if i ≤ k ∧ k < i + count then true else bitAt p.bytes k) ∧
      ((p.allocPages count).1 = none ↔ freeStarts (bitAt p.bytes) count = ∅) ∧
      ((p.allocPages count).1 = none → (p.allocPages count).2 = p) := by
  rw [allocPages_eq_scanAlloc p h0 hc]
  refine ⟨rfl, fun i hi => ?_, ?_, ?_⟩
  · rw [scanAlloc, (plainScan_eq_some hc).mpr hi]
    exact ⟨rfl, fun k => congrFun (bitAt_markRun p.bytes i count) k⟩
  · have hnone : (p.scanAlloc count).1 = none ↔ plainScan (bitAt p.bytes) count = none := by
      unfold scanAlloc
      cases plainScan (bitAt p.bytes) count <;> simp
    rw [hnone, plainScan_eq_none, Set.eq_empty_iff_forall_notMem]
    exact ⟨fun h i hi => h i hi.1 hi.2, fun h i hi hfree => h i ⟨hi, hfree⟩⟩
  · unfold scanAlloc
    cases plainScan (bitAt p.bytes) count with
    | none => exact fun _ => rfl
    | some i =>
      intro h
      cases h

/-- Two frames are asked for when every other frame is in use, up to frame 8. -/
theorem alloc_first_fit_fragmented :
    ((⟨fun x => if x = 0 then 0x55 else 0, fun _ => 0⟩ : Pool).allocPages 2).1 =
      some (frameAddr 7) := by
  refine ((alloc_first_fit _ 2 (by decide) (by decide)).2.1 7 ⟨⟨by decide, ?_⟩, ?_⟩).1
  · intro k h1 h2
    have hk : k = 7 ∨ k = 8 := by omega
    rcases hk with rfl | rfl <;> rfl
  · rintro i ⟨-, hfree⟩
    by_contra hlt
    have hused : ∀ i < 7, bitAt (fun x => if x = 0 then 0x55 else 0) i = true ∨
        bitAt (fun x => if x = 0 then 0x55 else 0) (i + 1) = true := by decide
    rcases hused i (by omega) with h | h
    · exact Bool.false_ne_true ((hfree i le_rfl (by omega)).symm.trans h)
    · exact Bool.false_ne_true ((hfree (i + 1) (by omega) (by omega)).symm.trans h)

/-! ## The bits that the search looks at -/

/-- The frames whose bits `alloc_pages` looks at. -/
def examined (p : Pool) (count : ℕ) : List ℕ :=
  if count = 0 then [] else (allocSearchLog p.bytes count (lastStart count + 1) 0).2

/-- The frames whose bits `alloc_pages` sets. -/
def marked (p : Pool) (count : ℕ) : List ℕ :=
  if count = 0 then []
  else match allocSearch p.bytes count (lastStart count + 1) 0 with
    | none => []
    | some i => (List.range count).map fun k => i + k

/-- **The request stays inside the bitmap**: `alloc_pages` looks at bits of the pool and sets bits of
the pool, its loop ends by itself, and a request for more than the pool gets null. -/
structure StaysInside (p : Pool) (count : ℕ) : Prop where
  examined : ∀ k ∈ p.examined count, k < maxPages
  marked : ∀ k ∈ p.marked count, k < maxPages
  ends : ∀ f, lastStart count + 1 ≤ f →
    allocSearch p.bytes count f 0 = allocSearch p.bytes count (lastStart count + 1) 0
  refused : maxPages < count → (p.allocPages count).1 = none

section Log

variable {b : ℕ → UInt8} {k f : ℕ}

lemma mem_skipFullLog (h : k ∈ (skipFullLog b f i).2) : k < maxPages := by
  induction f generalizing i with
  | zero => cases h
  | succ f ih =>
    rw [skipFullLog] at h
    have hword : i ≤ maxPages - 64 → k ∈ (List.range 64).map (fun x => i + x) → k < maxPages := by
      intro hi hk
      obtain ⟨x, hx, rfl⟩ := List.mem_map.mp hk
      rw [List.mem_range] at hx
      unfold maxPages at *
      omega
    split_ifs at h with hi hw
    · rcases List.mem_append.mp h with h | h
      · exact hword hi h
      · exact ih h
    · exact hword hi h
    · cases h

lemma mem_firstUsedLog (h : k ∈ (firstUsedLog b i j n).2) : k < i + j + n := by
  induction n generalizing j with
  | zero => cases h
  | succ n ih =>
    rw [firstUsedLog] at h
    split_ifs at h
    · rw [List.mem_singleton.mp h]
      omega
    · rcases List.mem_cons.mp h with rfl | h
      · omega
      · have := ih h
        omega

lemma mem_allocSearchLog (h0 : 0 < count) (hc : count ≤ maxPages)
    (h : k ∈ (allocSearchLog b count f i).2) : k < maxPages := by
  have hl := lastStart_eq h0 hc
  induction f generalizing i with
  | zero => cases h
  | succ f ih =>
    rw [allocSearchLog] at h
    by_cases hi : i ≤ lastStart count
    swap
    · rw [if_neg hi] at h
      cases h
    rw [if_pos hi] at h
    dsimp only at h
    -- the inner loop starts no later than `MAX_PAGES - count`
    have hinner : ∀ s, s ≤ lastStart count → k ∈ (firstUsedLog b s 0 count).2 → k < maxPages := by
      intro s hs hk
      have := mem_firstUsedLog hk
      omega
    split_ifs at h with hfast hpast
    · exact mem_skipFullLog h
    · have hs : (skipFullLog b (maxPages / 64 + 1) i).1 ≤ lastStart count :=
        not_lt.mp fun hlt => hpast ⟨hfast, hlt⟩
      split at h
      · rcases List.mem_append.mp h with h | h
        · exact mem_skipFullLog h
        · exact hinner _ hs h
      · rcases List.mem_append.mp h with h | h
        · rcases List.mem_append.mp h with h | h
          · exact mem_skipFullLog h
          · exact hinner _ hs h
        · exact ih h
    · cases h
    · split at h
      · exact hinner i hi h
      · rcases List.mem_append.mp h with h | h
        · exact hinner i hi h
        · exact ih h

lemma allocSearch_turns {f' : ℕ} (hf : lastStart count + 1 - i ≤ f)
    (hf' : lastStart count + 1 - i ≤ f') :
    Mm.allocSearch bm count f i = Mm.allocSearch bm count f' i := by
  induction f generalizing i f' with
  | zero =>
    cases f' with
    | zero => rfl
    | succ f' => rw [Mm.allocSearch, Mm.allocSearch, if_neg (by omega)]
  | succ f ih =>
    cases f' with
    | zero => rw [Mm.allocSearch, Mm.allocSearch, if_neg (by omega)]
    | succ f' =>
      rw [Mm.allocSearch, Mm.allocSearch]
      by_cases hi : i ≤ lastStart count
      · have hle : i ≤ if i % 64 = 0 ∧ count ≤ 64 then Mm.skipFull bm (maxPages / 64 + 1) i else i := by
          split_ifs
          · exact le_skipFull bm _ i
          · exact le_rfl
        rw [if_pos hi, if_pos hi]
        dsimp only
        generalize (if i % 64 = 0 ∧ count ≤ 64 then Mm.skipFull bm (maxPages / 64 + 1) i else i) = s
          at hle
        cases Mm.firstUsed bm s 0 count with
        | none => rfl
        | some j => exact if_congr Iff.rfl rfl (ih (by omega) (by omega))
      · rw [if_neg hi, if_neg hi]

/-! ## Requests for more than the pool -/

/-- An inner loop that is longer than what is left of the pool leaves it, or meets a frame in use
before. -/
lemma firstUsedLog_leaves (hij : i + j ≤ maxPages) (hn : maxPages < i + j + n) :
    (∃ k ∈ (firstUsedLog b i j n).2, maxPages ≤ k) ∨
      ∃ x, (firstUsedLog b i j n).1 = some x ∧ i + x < maxPages := by
  induction n generalizing j with
  | zero => omega
  | succ n ih =>
    rw [firstUsedLog]
    by_cases hend : i + j = maxPages
    · left
      split_ifs
      · exact ⟨i + j, List.mem_singleton_self _, hend.ge⟩
      · exact ⟨i + j, List.mem_cons_self, hend.ge⟩
    · split_ifs with hb
      · exact Or.inr ⟨j, rfl, by omega⟩
      · rcases ih (j := j + 1) (by omega) (by omega) with ⟨k, hk, hlt⟩ | hx
        · exact Or.inl ⟨k, List.mem_cons_of_mem _ hk, hlt⟩
        · exact Or.inr hx

/-- Every turn of the loop has its inner loop run past the end of the pool, or ends at a frame of the
pool that is in use; the last of these is not the end. -/
lemma allocSearchLog_leaves (hc : maxPages < count) (hl : maxPages < lastStart count)
    (hi : i ≤ maxPages) (hf : maxPages < i + f) :
    ∃ k ∈ (allocSearchLog b count f i).2, maxPages ≤ k := by
  induction f generalizing i with
  | zero => omega
  | succ f ih =>
    have hslow : ¬ (i % 64 = 0 ∧ count ≤ 64) := by
      unfold maxPages at hc
      omega
    rw [allocSearchLog, if_pos (by omega)]
    dsimp only
    rw [if_neg hslow, if_neg (fun h => hslow h.1)]
    dsimp only
    rcases firstUsedLog_leaves (b := b) (i := i) (j := 0) (n := count) (by omega) (by omega) with
      ⟨k, hk, hlt⟩ | ⟨x, hx, hlt⟩
    · cases (firstUsedLog b i 0 count).1 with
      | none => exact ⟨k, by simpa using hk, hlt⟩
      | some x => exact ⟨k, List.mem_append_left _ (by simpa using hk), hlt⟩
    · rw [hx]
      obtain ⟨k, hk, hle⟩ := ih (i := i + x + 1) (by omega) (by omega)
      exact ⟨k, List.mem_append_right _ hk, hle⟩

lemma lastStart_wraps (hc : maxPages < count) (h64 : count < 2 ^ 64) :
    maxPages < lastStart count := by
  unfold lastStart u64 maxPages at *
  omega

lemma examined_leaves (p : Pool) (hc : maxPages < count) (h64 : count < 2 ^ 64) :
    ∃ k ∈ p.examined count, maxPages ≤ k := by
  have hl := lastStart_wraps hc h64
  unfold examined
  rw [if_neg (by omega)]
  exact allocSearchLog_leaves hc hl (Nat.zero_le _) (by omega)

/-- **The requests that stay inside the bitmap** are those for at most `MAX_PAGES` frames, whatever
the bitmap holds. -/
theorem staysInside_iff (p : Pool) (count : ℕ) (h64 : count < 2 ^ 64) :
    StaysInside p count ↔ count ≤ maxPages := by
  constructor
  · intro h
    by_contra hlt
    obtain ⟨k, hk, hle⟩ := examined_leaves p (not_le.mp hlt) h64
    exact absurd (h.examined k hk) (not_lt.mpr hle)
  · intro hc
    refine ⟨fun k hk => ?_, fun k hk => ?_, fun f hf => ?_, fun hlt => absurd hc (not_le.mpr hlt)⟩
    · unfold examined at hk
      split_ifs at hk with h0
      · cases hk
      · exact mem_allocSearchLog (by omega) hc hk
    · unfold marked at hk
      split_ifs at hk with h0
      · cases hk
      · have hl := lastStart_eq (show 0 < count by omega) hc
        rw [allocSearch_eq] at hk
        split at hk
        · cases hk
        · rename_i r hr
          obtain ⟨hle, -⟩ := allocSearch_sound _ hr
          obtain ⟨x, hx, rfl⟩ := List.mem_map.mp hk
          rw [List.mem_range] at hx
          omega
    · rw [allocSearch_eq, allocSearch_eq]
      exact allocSearch_turns (by omega) (by omega)

theorem staysInside_iff_stacks : StaysInside ⟨fun _ => 0, fun _ => 0⟩ 16 :=
  (staysInside_iff _ 16 (by norm_num)).mpr (by decide)

lemma allocPages_fst (p : Pool) (hc : count ≠ 0)
    (h : allocSearch p.bytes count (lastStart count + 1) 0 = some i) :
    (p.allocPages count).1 = some (u64 (physMemoryBase + i * pageSize)) := by
  rw [allocPages, if_neg hc, h]

/-- **A request for one frame too many**, with no frame in use: the search looks at bit 32768, which is
not in the bitmap, and the call returns the start of the pool. -/
theorem search_leaves_bitmap :
    ¬ StaysInside ⟨fun _ => 0, fun _ => 0⟩ 32769 ∧
      (∃ k ∈ (⟨fun _ => 0, fun _ => 0⟩ : Pool).examined 32769, maxPages ≤ k) ∧
      ((⟨fun _ => 0, fun _ => 0⟩ : Pool).allocPages 32769).1 = some physMemoryBase := by
  have hleaves := examined_leaves ⟨fun _ => 0, fun _ => 0⟩ (show maxPages < 32769 by decide)
    (by norm_num)
  refine ⟨fun h => ?_, hleaves, ?_⟩
  · obtain ⟨k, hk, hle⟩ := hleaves
    exact absurd (h.examined k hk) (not_lt.mpr hle)
  · have hfree : ∀ j n, (firstUsedLog (fun _ => 0) 0 j n).1 = none := by
      intro j n
      induction n generalizing j with
      | zero => rfl
      | succ n ih =>
        have hbit : bitAt (fun _ => 0) (0 + j) = false := by simp [bitAt]
        rw [firstUsedLog, hbit]
        exact ih (j + 1)
    have hfound : ∀ f, allocSearch (fun _ => 0) 32769 (f + 1) 0 = some 0 := by
      intro f
      rw [allocSearch, allocSearchLog, if_pos (Nat.zero_le _)]
      simp [hfree]
    exact allocPages_fst ⟨fun _ => 0, fun _ => 0⟩ (by decide) (hfound _)

end Log

end Pool

end Bangos.Mm
