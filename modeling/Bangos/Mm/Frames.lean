import Bangos.Mm.Memory

/-!
# What the frame allocator does

`alloc_pages` on a request of at most `MAX_PAGES` frames: which frames it can return, that it
returns some whenever a long enough run is free, and how the number of free frames changes.
The 64-frame skip never passes a free frame, and the jump behind the first frame in use never
passes the start of a free run.
-/

namespace Bangos.Mm

open ByteMem

variable {m m' : Mem} {bm : ℕ → Bool} {count i j n r : ℕ}

/-- The address of frame `i` of the pool. -/
def frameAddr (i : ℕ) : ℕ := physMemoryBase + i * pageSize

/-- The `count` frames from `i` on are free. -/
def FreeRun (bm : ℕ → Bool) (i count : ℕ) : Prop := ∀ k, i ≤ k → k < i + count → bm k = false

/-- The frames of the pool that are free. -/
def freeSet (m : Mem) : Finset ℕ := (Finset.range maxPages).filter fun k => m.pageBitmap k = false

/-- The number of free frames. -/
def freeFrames (m : Mem) : ℕ := (freeSet m).card

lemma mem_freeSet {k : ℕ} : k ∈ freeSet m ↔ k < maxPages ∧ m.pageBitmap k = false := by
  simp [freeSet]

lemma freeFrames_le (m : Mem) : freeFrames m ≤ maxPages :=
  (Finset.card_filter_le _ _).trans (Finset.card_range _).le

lemma mmGetFreeBytes_eq (m : Mem) : mmGetFreeBytes m = freeFrames m * pageSize := by
  have hset : freeSet m = ((List.range maxPages).filter fun i => !m.pageBitmap i).toFinset := by
    ext k
    simp [mem_freeSet]
  rw [mmGetFreeBytes, freeFrames, hset,
    List.toFinset_card_of_nodup (List.nodup_range.filter _), List.countP_eq_length_filter]

/-! ## The search -/

lemma lastStart_eq (h0 : 0 < count) (hc : count ≤ maxPages) : lastStart count = maxPages - count := by
  unfold lastStart u64 maxPages at *
  omega

lemma firstUsed_eq_none (h : firstUsed bm i j n = none) : FreeRun bm (i + j) n := by
  induction n generalizing j with
  | zero => exact fun k h1 h2 => absurd h1 (by omega)
  | succ n ih =>
    rw [firstUsed] at h
    split_ifs at h with hb
    intro k h1 h2
    by_cases hk : k = i + j
    · simpa [hk] using hb
    · exact ih h k (by omega) (by omega)

lemma firstUsed_eq_some (h : firstUsed bm i j n = some r) :
    j ≤ r ∧ r < j + n ∧ bm (i + r) = true := by
  induction n generalizing j with
  | zero => cases h
  | succ n ih =>
    rw [firstUsed] at h
    split_ifs at h with hb
    · cases h
      exact ⟨le_rfl, by omega, hb⟩
    · obtain ⟨h1, h2, h3⟩ := ih h
      exact ⟨by omega, by omega, h3⟩

lemma le_skipFull (bm : ℕ → Bool) (f i : ℕ) : i ≤ skipFull bm f i := by
  induction f generalizing i with
  | zero => exact le_rfl
  | succ f ih =>
    rw [skipFull]
    split_ifs
    · exact (Nat.le_add_right i 64).trans (ih _)
    · exact le_rfl

lemma skipFull_le (hr : bm r = false) (f : ℕ) (hi : i ≤ r) : skipFull bm f i ≤ r := by
  induction f generalizing i with
  | zero => exact hi
  | succ f ih =>
    rw [skipFull]
    split_ifs with hfull
    · refine ih ?_
      by_contra hlt
      have := List.all_eq_true.mp hfull.2 (r - i) (List.mem_range.mpr (by omega))
      rw [Nat.add_sub_cancel' hi, hr] at this
      exact absurd this (by simp)
    · exact hi

lemma allocSearch_sound (f : ℕ) (h : allocSearch bm count f i = some r) :
    r ≤ lastStart count ∧ FreeRun bm r count := by
  induction f generalizing i with
  | zero => cases h
  | succ f ih =>
    rw [allocSearch] at h
    split_ifs at h with hi
    dsimp only at h
    split_ifs at h with hfast hpast
    · split at h
      · cases h
        exact ⟨not_lt.mp fun hlt => hpast ⟨hfast, hlt⟩, firstUsed_eq_none ‹_›⟩
      · exact ih h
    · split at h
      · cases h
        exact ⟨hi, firstUsed_eq_none ‹_›⟩
      · exact ih h

lemma FreeRun.lt_of_used {k : ℕ} (h : FreeRun bm r count) (hk : bm k = true)
    (hlt : k < r + count) : k < r := by
  by_contra hle
  have := h k (by omega) hlt
  exact absurd (this.symm.trans hk) (by simp)

lemma allocSearch_complete (h0 : 0 < count) (hr : FreeRun bm r count)
    (hlast : r ≤ lastStart count) (f : ℕ) (hi : i ≤ r) (hf : lastStart count + 1 - i ≤ f) :
    ∃ r' ≤ r, allocSearch bm count f i = some r' := by
  induction f generalizing i with
  | zero => omega
  | succ f ih =>
    -- the turn starts its inner loop at some `s` between `i` and the run
    have hturn : ∀ s j, i ≤ s → s ≤ r → firstUsed bm s 0 count = some j →
        ∃ r' ≤ r, allocSearch bm count f (s + j + 1) = some r' := by
      intro s j his hsr hj
      obtain ⟨-, hjc, hused⟩ := firstUsed_eq_some hj
      have := hr.lt_of_used hused (by omega)
      exact ih (by omega) (by omega)
    rw [allocSearch, if_pos (hi.trans hlast)]
    dsimp only
    have hfree : bm r = false := hr r le_rfl (by omega)
    have hskip := skipFull_le hfree (maxPages / 64 + 1) hi
    split_ifs with hfast hpast
    · omega
    · cases hj : firstUsed bm (skipFull bm (maxPages / 64 + 1) i) 0 count with
      | none => exact ⟨_, hskip, rfl⟩
      | some j => exact hturn _ j (le_skipFull ..) hskip hj
    · exact absurd ‹_ ∧ _›.1 hfast
    · cases hj : firstUsed bm i 0 count with
      | none => exact ⟨i, hi, rfl⟩
      | some j => exact hturn i j le_rfl hi hj

/-! ## The allocator -/

/-- **The frames returned.**  A request of at most `MAX_PAGES` frames that succeeds returns a
run of frames of the pool that were free; it marks exactly these and clears them. -/
theorem allocPages_eq_some {a : ℕ} (hc : count ≤ maxPages) (h : allocPages m count = (some a, m')) :
    ∃ i, 0 < count ∧ i + count ≤ maxPages ∧ FreeRun m.pageBitmap i count ∧ a = frameAddr i ∧
      m' = { m with
        pageBitmap := fun k => if i ≤ k ∧ k < i + count then true else m.pageBitmap k
        phys := fill m.phys (frameAddr i) (count * pageSize) 0 } := by
  unfold allocPages at h
  split_ifs at h with h0
  · cases h
  split at h
  · cases h
  · rename_i i hi
    obtain ⟨hlast, hrun⟩ := allocSearch_sound _ hi
    rw [lastStart_eq (by omega) hc] at hlast
    have haddr : u64 (physMemoryBase + i * pageSize) = frameAddr i := by
      unfold u64 frameAddr physMemoryBase pageSize maxPages at *
      omega
    have hlen : u64 (count * pageSize) = count * pageSize := by
      unfold u64 pageSize maxPages at *
      omega
    simp only [haddr, hlen, Prod.mk.injEq, Option.some.injEq] at h
    exact ⟨i, by omega, by omega, hrun, h.1.symm, h.2.symm⟩

lemma allocPages_eq_none (h : allocPages m count = (none, m')) : m' = m := by
  unfold allocPages at h
  split_ifs at h with h0
  · cases h; rfl
  split at h
  · cases h; rfl
  · cases h

lemma allocPages_kernelPml4 (m : Mem) (count : ℕ) :
    (allocPages m count).2.kernelPml4 = m.kernelPml4 := by
  unfold allocPages
  split_ifs
  · rfl
  split <;> rfl

/-- A request that fits into a free run succeeds, with that run or one before it. -/
theorem allocPages_isSome (h0 : 0 < count) (hr : FreeRun m.pageBitmap r count)
    (hlast : r + count ≤ maxPages) :
    ∃ i ≤ r, ∃ m', allocPages m count = (some (frameAddr i), m') := by
  have hl := lastStart_eq h0 (by omega : count ≤ maxPages)
  obtain ⟨i, hir, hi⟩ := allocSearch_complete h0 hr (by omega) (lastStart count + 1)
    (Nat.zero_le r) (by omega)
  have haddr : u64 (physMemoryBase + i * pageSize) = frameAddr i := by
    unfold u64 frameAddr physMemoryBase pageSize maxPages at *
    omega
  refine ⟨i, hir, ?_⟩
  unfold allocPages
  rw [if_neg (by omega), hi]
  exact ⟨_, by rw [← haddr]⟩

lemma allocPage_isSome (h : 0 < freeFrames m) : ∃ a m', allocPage m = (some a, m') := by
  obtain ⟨r, hr⟩ := Finset.card_pos.mp h
  obtain ⟨hlt, hfree⟩ := mem_freeSet.mp hr
  obtain ⟨i, -, m', hi⟩ := allocPages_isSome Nat.one_pos (r := r)
    (fun k h1 h2 => (show k = r by omega) ▸ hfree) (by omega)
  exact ⟨_, m', hi⟩

/-- A request succeeds exactly if enough frames in a row are free. -/
lemma allocPages_ne_none_iff (h0 : 0 < count) (hc : count ≤ maxPages) :
    (allocPages m count).1 ≠ none ↔ ∃ r, r + count ≤ maxPages ∧ FreeRun m.pageBitmap r count := by
  constructor
  · intro h
    obtain ⟨a, ha⟩ := Option.ne_none_iff_exists'.mp h
    obtain ⟨i, -, hi, hrun, -⟩ := allocPages_eq_some hc (Prod.ext ha rfl)
    exact ⟨i, hi, hrun⟩
  · rintro ⟨r, hr, hrun⟩
    obtain ⟨i, -, m', hi⟩ := allocPages_isSome h0 hrun hr
    rw [hi]
    exact Option.some_ne_none _

/-- The frames returned are the first ones that are free in a row. -/
lemma allocPages_isLeast (h0 : 0 < count) (hc : count ≤ maxPages)
    (h : (allocPages m count).1 ≠ none) :
    ∃ r, IsLeast {r | r + count ≤ maxPages ∧ FreeRun m.pageBitmap r count} r ∧
      (allocPages m count).2.pageBitmap =
        fun k => if r ≤ k ∧ k < r + count then true else m.pageBitmap k := by
  obtain ⟨a, ha⟩ := Option.ne_none_iff_exists'.mp h
  obtain ⟨i, -, hi, hrun, rfl, hm⟩ := allocPages_eq_some hc (Prod.ext ha rfl)
  refine ⟨i, ⟨⟨hi, hrun⟩, ?_⟩, congrArg Mem.pageBitmap hm⟩
  rintro r ⟨hr, hfree⟩
  obtain ⟨i', hle, m', hi'⟩ := allocPages_isSome h0 hfree hr
  rw [hi'] at ha
  have haddr := Option.some.inj ha
  unfold frameAddr pageSize at haddr
  omega

/-! ## Counting free frames -/

lemma freeFrames_of_marked (hi : i + count ≤ maxPages) (hrun : FreeRun m.pageBitmap i count)
    (hm : m'.pageBitmap = fun k => if i ≤ k ∧ k < i + count then true else m.pageBitmap k) :
    freeFrames m' + count = freeFrames m := by
  have hsplit : freeSet m = freeSet m' ∪ Finset.Ico i (i + count) := by
    ext k
    rw [Finset.mem_union, mem_freeSet, mem_freeSet, Finset.mem_Ico, hm]
    by_cases hk : i ≤ k ∧ k < i + count
    · simp [hk, hrun k hk.1 hk.2]
      omega
    · simp [hk]
  have hdisj : Disjoint (freeSet m') (Finset.Ico i (i + count)) := by
    rw [Finset.disjoint_left]
    intro k hk hico
    rw [mem_freeSet, hm] at hk
    rw [Finset.mem_Ico] at hico
    simp [hico] at hk
  rw [freeFrames, freeFrames, hsplit, Finset.card_union_of_disjoint hdisj, Nat.card_Ico]
  omega

lemma freeFrames_allocPages {a : ℕ} (hc : count ≤ maxPages)
    (h : allocPages m count = (some a, m')) : freeFrames m' + count = freeFrames m := by
  obtain ⟨i, -, hi, hrun, -, rfl⟩ := allocPages_eq_some hc h
  exact freeFrames_of_marked hi hrun rfl

lemma freeFrames_allocPages_ge (hc : count ≤ maxPages) :
    freeFrames m ≤ freeFrames (allocPages m count).2 + count := by
  rcases h : allocPages m count with ⟨a, m'⟩
  cases a with
  | none =>
    rw [allocPages_eq_none h]
    exact Nat.le_add_right _ _
  | some a => exact (freeFrames_allocPages hc h).ge

lemma freeFrames_congr (h : m'.pageBitmap = m.pageBitmap) : freeFrames m' = freeFrames m := by
  rw [freeFrames, freeFrames, freeSet, freeSet, h]

lemma exists_freeRun {n : ℕ} (h : maxPages < freeFrames m + maxPages / n) :
    ∃ r, r + n ≤ maxPages ∧ FreeRun m.pageBitmap r n := by
  by_contra hno
  push Not at hno
  -- otherwise each block of `n` frames has a frame in use
  have hused : ∀ j < maxPages / n, ∃ x, n * j ≤ x ∧ x < n * j + n ∧ m.pageBitmap x = true := by
    intro j hj
    have hle : n * j + n ≤ maxPages := by
      calc n * j + n = n * (j + 1) := by ring
        _ ≤ n * (maxPages / n) := Nat.mul_le_mul_left n hj
        _ ≤ maxPages := Nat.mul_div_le _ _
    by_contra hall
    push Not at hall
    exact hno (n * j) hle fun x h1 h2 => by simpa using hall x h1 h2
  choose! f hlo hhi hbit using hused
  have hinj : Set.InjOn f (Finset.range (maxPages / n)) := by
    intro i hi j hj hij
    rw [Finset.coe_range, Set.mem_Iio] at hi hj
    have hdiv : ∀ l < maxPages / n, f l / n = l := fun l hl =>
      Nat.div_eq_of_lt_le (by rw [mul_comm]; exact hlo l hl)
        (by rw [Nat.succ_mul, mul_comm]; exact hhi l hl)
    rw [← hdiv i hi, ← hdiv j hj, hij]
  have hmaps : ∀ j ∈ Finset.range (maxPages / n), f j ∈ Finset.range maxPages \ freeSet m := by
    intro j hj
    rw [Finset.mem_range] at hj
    have hlt : f j < maxPages := by
      have := hhi j hj
      calc f j < n * j + n := this
        _ = n * (j + 1) := by ring
        _ ≤ n * (maxPages / n) := Nat.mul_le_mul_left n hj
        _ ≤ maxPages := Nat.mul_div_le _ _
    rw [Finset.mem_sdiff, Finset.mem_range, mem_freeSet, hbit j hj]
    simp [hlt]
  have hcard := Finset.card_le_card_of_injOn f hmaps hinj
  have hsub : freeSet m ⊆ Finset.range maxPages := by
    intro x hx
    exact Finset.mem_range.mpr (mem_freeSet.mp hx).1
  have hle := Finset.card_le_card hsub
  rw [Finset.card_range] at hle
  rw [Finset.card_range, Finset.card_sdiff_of_subset hsub, Finset.card_range] at hcard
  unfold freeFrames at h
  omega

/-- All that `free_page` can do: nothing, or clear the bit of its frame. -/
lemma freePage_cases (m : Mem) (a : ℕ) :
    freePage m a = m ∨ ∃ k, physMemoryBase ≤ a ∧ k = (a - physMemoryBase) / pageSize ∧ k < maxPages ∧
      freePage m a = { m with pageBitmap := Function.update m.pageBitmap k false } := by
  by_cases h1 : a < physMemoryBase
  · exact Or.inl (if_pos h1)
  by_cases h2 : (a - physMemoryBase) / pageSize < maxPages
  · exact Or.inr ⟨_, not_lt.mp h1, rfl, h2, (if_neg h1).trans (if_pos h2)⟩
  · exact Or.inl ((if_neg h1).trans (if_neg h2))

lemma freePage_phys (m : Mem) (a : ℕ) : (freePage m a).phys = m.phys := by
  rcases freePage_cases m a with h | ⟨k, -, -, -, h⟩ <;> rw [h]

lemma freePage_kernelPml4 (m : Mem) (a : ℕ) : (freePage m a).kernelPml4 = m.kernelPml4 := by
  rcases freePage_cases m a with h | ⟨k, -, -, -, h⟩ <;> rw [h]

lemma freePage_pageBitmap_of_true {a k : ℕ} (h : (freePage m a).pageBitmap k = true) :
    m.pageBitmap k = true := by
  rcases freePage_cases m a with he | ⟨i, -, -, -, he⟩
  · rwa [he] at h
  · rw [he] at h
    dsimp only at h
    by_cases hk : k = i
    · simp [hk] at h
    · rwa [Function.update_of_ne hk] at h

lemma freePage_pageBitmap_of_ne {a k : ℕ} (hk : frameOf a ≠ frameAddr k) (h : m.pageBitmap k = true) :
    (freePage m a).pageBitmap k = true := by
  rcases freePage_cases m a with he | ⟨i, hbase, hi, -, he⟩
  · rwa [he]
  · rw [he]
    dsimp only
    rw [Function.update_of_ne _ false m.pageBitmap]
    · exact h
    · rintro rfl
      refine hk ?_
      rw [hi]
      unfold frameOf frameAddr physMemoryBase pageSize at *
      omega

lemma freeFrames_freePage_ge (a : ℕ) : freeFrames m ≤ freeFrames (freePage m a) := by
  rw [freeFrames, freeFrames]
  refine Finset.card_le_card fun k hk => ?_
  rw [mem_freeSet] at hk ⊢
  refine ⟨hk.1, ?_⟩
  by_contra hb
  rw [Bool.not_eq_false] at hb
  exact absurd (hk.2.symm.trans (freePage_pageBitmap_of_true hb)) (by simp)

end Bangos.Mm
