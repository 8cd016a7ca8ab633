import Mathlib

/-!
# Ring buffers

A buffer of `cap` cells with a read index, a write index and a count, as drivers and
protocol stacks keep them.  `push` drops what does not fit; `take` reads a given number of
cells.  A ring is a bounded queue: `contents` lists what it holds, in order, and the two
operations are an append at the back and a cut at the front of that list.
-/

/-- A ring buffer of capacity `cap`. -/
structure RingBuf (α : Type*) (cap : ℕ) where
  /-- The cells; only the indices below `cap` are in the buffer. -/
  buf : ℕ → α
  /-- The index of the oldest element. -/
  head : ℕ
  /-- The index of the next free cell. -/
  tail : ℕ
  /-- The number of elements. -/
  len : ℕ

namespace RingBuf

variable {α : Type*} {cap : ℕ}

/-- An empty ring, its cells all holding `x`. -/
def empty (x : α) : RingBuf α cap := ⟨fun _ => x, 0, 0, 0⟩

/-- Store one element at the back; a full ring is left as it is. -/
def push (r : RingBuf α cap) (x : α) : RingBuf α cap :=
  if r.len < cap then
    { r with buf := Function.update r.buf r.tail x, tail := (r.tail + 1) % cap, len := r.len + 1 }
  else r

/-- Store the elements of a list, one after the other. -/
def pushAll (r : RingBuf α cap) (xs : List α) : RingBuf α cap := xs.foldl push r

/-- The elements of a list that are stored: those met while the ring is not full. -/
def accepted (r : RingBuf α cap) : List α → List α
  | [] => []
  | x :: xs => if r.len < cap then x :: (r.push x).accepted xs else (r.push x).accepted xs

/-- Read `n` cells from the front, advancing the read index cell by cell. -/
def readCells (r : RingBuf α cap) : ℕ → ℕ → List α
  | _, 0 => []
  | h, n + 1 => r.buf h :: r.readCells ((h + 1) % cap) n

/-- The read index after `n` cells. -/
def advance (cap : ℕ) : ℕ → ℕ → ℕ
  | h, 0 => h
  | h, n + 1 => advance cap ((h + 1) % cap) n

/-- Read `n` elements and remove them. -/
def take (r : RingBuf α cap) (n : ℕ) : List α × RingBuf α cap :=
  (r.readCells r.head n, { r with head := advance cap r.head n, len := r.len - n })

/-- The indices of the ring are in range and agree with the count. -/
structure Wf (r : RingBuf α cap) : Prop where
  head_lt : r.head < cap
  len_le : r.len ≤ cap
  tail_eq : r.tail = (r.head + r.len) % cap

/-- What the ring holds, oldest element first. -/
def contents (r : RingBuf α cap) : List α :=
  (List.range r.len).map fun i => r.buf ((r.head + i) % cap)

@[simp] lemma length_contents (r : RingBuf α cap) : r.contents.length = r.len := by
  simp [contents]

@[simp] lemma contents_empty (x : α) : (empty x : RingBuf α cap).contents = [] := rfl

lemma wf_empty (x : α) (h : 0 < cap) : (empty x : RingBuf α cap).Wf :=
  ⟨h, Nat.zero_le _, by simp [empty]⟩

/-! ## Storing -/

lemma push_of_full {r : RingBuf α cap} (h : ¬ r.len < cap) (x : α) : r.push x = r := by
  simp [push, h]

lemma len_push_of_lt {r : RingBuf α cap} (h : r.len < cap) (x : α) :
    (r.push x).len = r.len + 1 := by
  simp [push, h]

lemma Wf.push {r : RingBuf α cap} (h : r.Wf) (x : α) : (r.push x).Wf := by
  by_cases hlt : r.len < cap
  · refine ⟨?_, ?_, ?_⟩
    · simpa [RingBuf.push, hlt] using h.head_lt
    · simp [RingBuf.push, hlt]
    · have ht := h.tail_eq
      simp only [RingBuf.push, hlt, if_true, ht]
      rw [Nat.mod_add_mod, Nat.add_assoc]
  · rw [push_of_full hlt]
    exact h

lemma Wf.tail_ne {r : RingBuf α cap} (h : r.Wf) (hlt : r.len < cap) {i : ℕ} (hi : i < r.len) :
    (r.head + i) % cap ≠ r.tail := by
  rw [h.tail_eq]
  intro heq
  have hhead := h.head_lt
  have h1 := Nat.div_add_mod (r.head + i) cap
  have h2 := Nat.div_add_mod (r.head + r.len) cap
  have hq1 : (r.head + i) / cap < 2 := Nat.div_lt_of_lt_mul (by omega)
  have hq2 : (r.head + r.len) / cap < 2 := Nat.div_lt_of_lt_mul (by omega)
  interval_cases hq : (r.head + i) / cap <;> interval_cases hq' : (r.head + r.len) / cap <;> omega

lemma contents_push {r : RingBuf α cap} (h : r.Wf) (hlt : r.len < cap) (x : α) :
    (r.push x).contents = r.contents ++ [x] := by
  have hold : ∀ i ∈ List.range r.len,
      Function.update r.buf r.tail x ((r.head + i) % cap) = r.buf ((r.head + i) % cap) := by
    intro i hi
    rw [Function.update_of_ne (h.tail_ne hlt (List.mem_range.mp hi))]
  have hnew : Function.update r.buf r.tail x ((r.head + r.len) % cap) = x := by
    rw [← h.tail_eq, Function.update_self]
  simp only [contents, push, hlt, if_true, List.range_succ, List.map_append, List.map_cons,
    List.map_nil, hnew]
  rw [List.map_congr_left hold]

/-- **Storing a list** appends as much of it as fits, and drops the rest. -/
theorem pushAll_spec {r : RingBuf α cap} (h : r.Wf) (xs : List α) :
    (r.pushAll xs).Wf ∧ (r.pushAll xs).contents = r.contents ++ xs.take (cap - r.len) := by
  induction xs generalizing r with
  | nil => simpa [pushAll] using h
  | cons x xs ih =>
    by_cases hlt : r.len < cap
    · obtain ⟨hwf, hc⟩ := ih (h.push x)
      refine ⟨hwf, ?_⟩
      have hroom : cap - r.len = (cap - (r.push x).len) + 1 := by
        rw [len_push_of_lt hlt]; omega
      rw [show r.pushAll (x :: xs) = (r.push x).pushAll xs from rfl, hc, contents_push h hlt,
        hroom, List.take_succ_cons]
      simp
    · have hroom : cap - r.len = 0 := by omega
      obtain ⟨hwf, hc⟩ := ih h
      rw [show r.pushAll (x :: xs) = (r.push x).pushAll xs from rfl, push_of_full hlt]
      exact ⟨hwf, by simpa [hroom] using hc⟩

lemma accepted_eq_take (r : RingBuf α cap) (xs : List α) :
    r.accepted xs = xs.take (cap - r.len) := by
  induction xs generalizing r with
  | nil => simp [accepted]
  | cons x xs ih =>
    by_cases hlt : r.len < cap
    · have hroom : cap - r.len = (cap - (r.push x).len) + 1 := by
        rw [len_push_of_lt hlt]; omega
      rw [accepted, if_pos hlt, ih, hroom, List.take_succ_cons]
    · have hroom : cap - r.len = 0 := by omega
      rw [accepted, if_neg hlt, push_of_full hlt, ih, hroom, List.take_zero, List.take_zero]

/-! ## Reading -/

lemma advance_eq (h n : ℕ) (hh : h < cap) : advance cap h n = (h + n) % cap := by
  induction n generalizing h with
  | zero => simp [advance, Nat.mod_eq_of_lt hh]
  | succ n ih =>
    rw [advance, ih _ (Nat.mod_lt _ (by omega)), Nat.mod_add_mod]
    congr 1
    omega

lemma readCells_eq (r : RingBuf α cap) (h n : ℕ) (hh : h < cap) :
    r.readCells h n = (List.range n).map fun i => r.buf ((h + i) % cap) := by
  induction n generalizing h with
  | zero => rfl
  | succ n ih =>
    rw [readCells, ih _ (Nat.mod_lt _ (by omega)), List.range_succ_eq_map]
    simp only [List.map_cons, List.map_map, Nat.add_zero, Nat.mod_eq_of_lt hh, List.cons.injEq,
      true_and]
    apply List.map_congr_left
    intro i _
    simp only [Function.comp_apply, Nat.mod_add_mod]
    congr 2
    omega

/-- **Reading** at most as many elements as there are cuts them off the front. -/
theorem take_spec {r : RingBuf α cap} (h : r.Wf) {n : ℕ} (hn : n ≤ r.len) :
    (r.take n).1 = r.contents.take n ∧ (r.take n).2.Wf ∧
      (r.take n).2.contents = r.contents.drop n := by
  have hcap : 0 < cap := Nat.lt_of_le_of_lt (Nat.zero_le _) h.head_lt
  refine ⟨?_, ⟨?_, ?_, ?_⟩, ?_⟩
  · rw [take, readCells_eq _ _ _ h.head_lt, contents, ← List.map_take, List.take_range,
      Nat.min_eq_left hn]
  · simp only [take, advance_eq _ _ h.head_lt]
    exact Nat.mod_lt _ hcap
  · have := h.len_le
    simp only [take]
    omega
  · simp only [take, advance_eq _ _ h.head_lt, h.tail_eq, Nat.mod_add_mod]
    congr 1
    omega
  · simp only [take, contents, advance_eq _ _ h.head_lt, ← List.map_drop]
    apply List.ext_getElem
    · simp
    · intro i h1 h2
      simp only [List.getElem_map, List.getElem_range, List.getElem_drop, Nat.mod_add_mod]
      congr 2
      omega

end RingBuf
