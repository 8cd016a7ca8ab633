import Mathlib

/-!
# Rings with free-running indices

A ring shared by a producer and a consumer, each with an index of its own that only counts
up, modulo `2 ^ 16`; an entry stands in the slot given by its index modulo the size of the
ring.  Where the size divides `2 ^ 16`, the slots of consecutive indices follow one another
across the wrap of the indices, and the entries between the two indices are a queue: `push`
appends to it and `pop` cuts off its front, whatever the two indices are.
-/

/-- A ring of entries, with the index of the producer and that of the consumer. -/
structure IndexRing (α : Type*) where
  ring : ℕ → α
  prod : UInt16
  cons : UInt16

namespace IndexRing

variable {α : Type*} {size : ℕ}

/-- The slot of an index. -/
def slot (size : ℕ) (i : UInt16) : ℕ := i.toNat % size

/-- The producer writes an entry and counts up. -/
def push (r : IndexRing α) (size : ℕ) (x : α) : IndexRing α :=
  { r with ring := Function.update r.ring (slot size r.prod) x, prod := r.prod + 1 }

/-- The entry the consumer reads next. -/
def front (r : IndexRing α) (size : ℕ) : α := r.ring (slot size r.cons)

/-- The consumer counts up. -/
def pop (r : IndexRing α) : IndexRing α := { r with cons := r.cons + 1 }

/-- The number of entries between the two indices. -/
def count (r : IndexRing α) : ℕ := (r.prod - r.cons).toNat

/-- The entries between the two indices, in the order in which the consumer reads them. -/
def pending (r : IndexRing α) (size : ℕ) : List α :=
  (List.range r.count).map fun k => r.ring (slot size (r.cons + UInt16.ofNat k))

/-- The slot holds an entry that the consumer has not read. -/
def Unread (r : IndexRing α) (size j : ℕ) : Prop :=
  ∃ k < r.count, slot size (r.cons + UInt16.ofNat k) = j

@[simp] lemma length_pending (r : IndexRing α) (size : ℕ) :
    (r.pending size).length = r.count := by
  simp [pending]

/-! ## Indices -/

lemma slot_add (hd : size ∣ 65536) (i : UInt16) (k : ℕ) :
    slot size (i + UInt16.ofNat k) = (i.toNat + k) % size := by
  rw [slot, UInt16.toNat_add, UInt16.toNat_ofNat', Nat.add_mod_mod, Nat.mod_mod_of_dvd _ hd]

lemma slot_add_ne (hd : size ∣ 65536) (i : UInt16) {j k : ℕ} (hjk : j < k)
    (hlt : k < j + size) : slot size (i + UInt16.ofNat j) ≠ slot size (i + UInt16.ofNat k) := by
  rw [slot_add hd, slot_add hd]
  intro h
  have hdvd := (Nat.modEq_iff_dvd' (by omega : i.toNat + j ≤ i.toNat + k)).mp h
  have hle := Nat.le_of_dvd (by omega) hdvd
  omega

lemma cons_add_count (r : IndexRing α) : r.cons + UInt16.ofNat r.count = r.prod := by
  rw [count, UInt16.ofNat_toNat, UInt16.add_comm, UInt16.sub_add_cancel]

lemma count_push {r : IndexRing α} (h : r.count < 65535) (size : ℕ) (x : α) :
    (r.push size x).count = r.count + 1 := by
  have hone : (1 : UInt16).toNat = 1 := rfl
  have h1 := r.prod.toNat_lt
  have h2 := r.cons.toNat_lt
  simp only [count, push, UInt16.toNat_sub, UInt16.toNat_add, hone] at h ⊢
  omega

lemma count_pop {r : IndexRing α} (h : r.cons ≠ r.prod) : r.pop.count + 1 = r.count := by
  have hone : (1 : UInt16).toNat = 1 := rfl
  have hne : r.cons.toNat ≠ r.prod.toNat := fun he => h (UInt16.toNat_inj.mp he)
  have h1 := r.prod.toNat_lt
  have h2 := r.cons.toNat_lt
  simp only [count, pop, UInt16.toNat_sub, UInt16.toNat_add, hone]
  omega

/-! ## The queue between the indices -/

/-- As long as the ring is not full, a push writes no slot with an unread entry. -/
lemma push_ring_of_unread {r : IndexRing α} (hd : size ∣ 65536) (hroom : r.count < size)
    (x : α) {j : ℕ} (hj : r.Unread size j) : (r.push size x).ring j = r.ring j := by
  obtain ⟨k, hk, rfl⟩ := hj
  have hne := slot_add_ne hd r.cons hk (by omega : r.count < k + size)
  rw [cons_add_count] at hne
  exact Function.update_of_ne hne _ _

/-- **A push** into a ring that is not full appends to the queue. -/
lemma pending_push {r : IndexRing α} (hd : size ∣ 65536) (hroom : r.count < size)
    (hc : r.count < 65535) (x : α) :
    (r.push size x).pending size = r.pending size ++ [x] := by
  have hold : ∀ k ∈ List.range r.count,
      (r.push size x).ring (slot size (r.cons + UInt16.ofNat k)) =
        r.ring (slot size (r.cons + UInt16.ofNat k)) := fun k hk =>
    push_ring_of_unread hd hroom x ⟨k, List.mem_range.mp hk, rfl⟩
  have hnew : (r.push size x).ring (slot size (r.cons + UInt16.ofNat r.count)) = x := by
    rw [cons_add_count]
    exact Function.update_self _ _ _
  simp only [pending, count_push hc, List.range_succ, List.map_append, List.map_cons,
    List.map_nil]
  change List.map (fun k => (r.push size x).ring (slot size (r.cons + UInt16.ofNat k))) _ ++
    [(r.push size x).ring (slot size (r.cons + UInt16.ofNat r.count))] = _
  rw [List.map_congr_left hold, hnew]

/-- **A pop** of a ring that is not empty cuts off the front of the queue. -/
lemma pending_pop {r : IndexRing α} (h : r.cons ≠ r.prod) :
    r.pending size = r.front size :: r.pop.pending size := by
  have hshift : ∀ k, r.cons + UInt16.ofNat (k + 1) = r.cons + 1 + UInt16.ofNat k := by
    intro k
    rw [Nat.add_comm k 1, UInt16.ofNat_add, ← UInt16.add_assoc]
    rfl
  rw [pending, ← count_pop h, List.range_succ_eq_map, List.map_cons, List.map_map]
  congr 1
  · rw [front, show r.cons + UInt16.ofNat 0 = r.cons from UInt16.add_zero _]
  · apply List.map_congr_left
    intro k _
    simp only [Function.comp_apply, hshift]
    rfl

end IndexRing
