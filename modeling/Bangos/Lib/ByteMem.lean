import Mathlib

/-!
# Byte-addressed memories

A memory, a disk or a buffer is a function from addresses to bytes.  This file gives
little-endian fields of it (`le`, `putLe`), filling and copying of ranges, and how each of
these acts on the fields it meets and on those it does not.
-/

namespace ByteMem

/-- The little-endian number in the `n` bytes from address `a`. -/
def le (m : ℕ → UInt8) (a : ℕ) : ℕ → ℕ
  | 0 => 0
  | n + 1 => (m a).toNat + 256 * le m (a + 1) n

/-- Store `v` as a little-endian number in the `n` bytes from address `a`. -/
def putLe (m : ℕ → UInt8) (a n v : ℕ) : ℕ → UInt8 := fun x =>
  if a ≤ x ∧ x < a + n then UInt8.ofNat (v / 256 ^ (x - a)) else m x

/-- Little-endian fields, one after the other from address `a` on, each a width and a value. -/
def putFields (b : ℕ → UInt8) (a : ℕ) : List (ℕ × ℕ) → ℕ → UInt8
  | [] => b
  | (n, v) :: fs => putFields (putLe b a n v) (a + n) fs

/-- Set the `n` bytes from address `a` to `c`. -/
def fill (m : ℕ → UInt8) (a n : ℕ) (c : UInt8) : ℕ → UInt8 := fun x =>
  if a ≤ x ∧ x < a + n then c else m x

/-- Copy the `n` bytes of `src` from address `s` to address `d`. -/
def copy (m : ℕ → UInt8) (d : ℕ) (src : ℕ → UInt8) (s n : ℕ) : ℕ → UInt8 := fun x =>
  if d ≤ x ∧ x < d + n then src (s + (x - d)) else m x

variable {m m' src : ℕ → UInt8} {a b d s n k v : ℕ} {c : UInt8}

lemma le_lt (m : ℕ → UInt8) (a n : ℕ) : le m a n < 256 ^ n := by
  induction n generalizing a with
  | zero => simp [le]
  | succ n ih =>
    have h1 := ih (a + 1)
    have h2 := (m a).toNat_lt
    rw [le, pow_succ]
    omega

lemma le_congr (h : ∀ x, a ≤ x → x < a + n → m x = m' x) : le m a n = le m' a n := by
  induction n generalizing a with
  | zero => rfl
  | succ n ih =>
    rw [le, le, h a le_rfl (by omega), ih fun x h1 h2 => h x (by omega) (by omega)]

lemma le_shift (h : ∀ x < n, m (a + x) = m' (b + x)) : le m a n = le m' b n := by
  induction n generalizing a b with
  | zero => rfl
  | succ n ih =>
    have h0 := h 0 (by omega)
    simp only [Nat.add_zero] at h0
    rw [le, le, h0, ih fun x hx => ?_]
    have := h (x + 1) (by omega)
    rwa [show a + 1 + x = a + (x + 1) by omega, show b + 1 + x = b + (x + 1) by omega]

lemma le_zero (h : ∀ x, a ≤ x → x < a + n → m x = 0) : le m a n = 0 := by
  induction n generalizing a with
  | zero => rfl
  | succ n ih =>
    rw [le, h a le_rfl (by omega), ih fun x h1 h2 => h x (by omega) (by omega)]
    rfl

/-! ## Fields after a store -/

lemma putLe_apply_of_not_mem {x : ℕ} (h : x < a ∨ a + n ≤ x) : putLe m a n v x = m x := by
  rw [putLe, if_neg (by omega)]

lemma le_putLe_of_disjoint (h : b + k ≤ a ∨ a + n ≤ b) : le (putLe m a n v) b k = le m b k :=
  le_congr fun x _ _ => putLe_apply_of_not_mem (by omega)

private lemma le_digits (w : ℕ) (h : ∀ x < n, m (a + x) = UInt8.ofNat (w / 256 ^ x)) :
    le m a n = w % 256 ^ n := by
  induction n generalizing a w with
  | zero => simp [le, Nat.mod_one]
  | succ n ih =>
    have h0 := h 0 (by omega)
    have hrest : le m (a + 1) n = w / 256 % 256 ^ n := by
      refine ih (w / 256) fun x hx => ?_
      have := h (x + 1) (by omega)
      rw [show a + 1 + x = a + (x + 1) by omega, this, pow_succ, Nat.div_div_eq_div_mul,
        Nat.mul_comm]
    simp only [Nat.add_zero, pow_zero, Nat.div_one] at h0
    have hsplit : w % 256 ^ (n + 1) = w % 256 + 256 * (w / 256 % 256 ^ n) := by
      rw [Nat.pow_succ', Nat.mod_mul]
    rw [le, hrest, h0, hsplit, UInt8.toNat_ofNat']

/-- **Reading a field back** gives the number stored, as far as it fits. -/
theorem le_putLe_self (m : ℕ → UInt8) (a n v : ℕ) : le (putLe m a n v) a n = v % 256 ^ n := by
  refine le_digits v fun x hx => ?_
  rw [putLe, if_pos (by omega), Nat.add_sub_cancel_left]

/-! ## Fields after filling and copying -/

lemma fill_apply_of_not_mem {x : ℕ} (h : x < a ∨ a + n ≤ x) : fill m a n c x = m x := by
  rw [fill, if_neg (by omega)]

lemma fill_apply_of_mem {x : ℕ} (h1 : a ≤ x) (h2 : x < a + n) : fill m a n c x = c := by
  rw [fill, if_pos ⟨h1, h2⟩]

lemma le_fill_zero (h1 : a ≤ b) (h2 : b + k ≤ a + n) : le (fill m a n 0) b k = 0 :=
  le_zero fun x _ _ => fill_apply_of_mem (by omega) (by omega)

lemma fill_fill (m : ℕ → UInt8) (a n : ℕ) (c : UInt8) : fill (fill m a n c) a n c = fill m a n c := by
  funext x
  unfold fill
  split_ifs <;> rfl

lemma copy_apply_of_not_mem {x : ℕ} (h : x < d ∨ d + n ≤ x) : copy m d src s n x = m x := by
  rw [copy, if_neg (by omega)]

lemma copy_apply_of_mem {x : ℕ} (h : x < n) : copy m d src s n (d + x) = src (s + x) := by
  rw [copy, if_pos (by omega), Nat.add_sub_cancel_left]

lemma copy_zero_apply {x : ℕ} (h : x < n) : copy m 0 src 0 n x = src x := by
  rw [← Nat.zero_add x, copy_apply_of_mem h]

lemma copy_congr {src' : ℕ → UInt8} (h : ∀ x < n, src (s + x) = src' (s + x)) :
    copy m d src s n = copy m d src' s n := by
  funext x
  unfold copy
  split_ifs with hx
  · exact h _ (by omega)
  · rfl

lemma copy_copy (m m' src : ℕ → UInt8) (d s n : ℕ) :
    copy m d (copy m' 0 src s n) 0 n = copy m d src s n := by
  funext x
  unfold copy
  split_ifs with h1 h2
  · rw [Nat.zero_add, Nat.sub_zero]
  · omega
  · rfl

lemma le_copy_of_disjoint (h : b + k ≤ d ∨ d + n ≤ b) :
    le (copy m d src s n) b k = le m b k :=
  le_congr fun x _ _ => copy_apply_of_not_mem (by omega)

/-! ## Lists of bytes -/

/-- Store the bytes of a list from address `a` on. -/
def store (m : ℕ → UInt8) (a : ℕ) (l : List UInt8) : ℕ → UInt8 := fun x =>
  if a ≤ x ∧ x < a + l.length then l.getD (x - a) 0 else m x

/-- The `n` bytes from address `a` on. -/
def load (m : ℕ → UInt8) (a n : ℕ) : List UInt8 := (List.range n).map fun i => m (a + i)

@[simp] lemma length_load (m : ℕ → UInt8) (a n : ℕ) : (load m a n).length = n := by
  simp [load]

lemma load_add (m : ℕ → UInt8) (a n k : ℕ) : load m a (n + k) = load m a n ++ load m (a + n) k := by
  simp [load, List.range_add, Nat.add_assoc]

lemma load_congr (h : ∀ x, a ≤ x → x < a + n → m x = m' x) : load m a n = load m' a n :=
  List.map_congr_left fun i hi => h _ (by omega) (by have := List.mem_range.mp hi; omega)

lemma load_store_self (m : ℕ → UInt8) (a : ℕ) (l : List UInt8) :
    load (store m a l) a l.length = l := by
  refine List.ext_getElem (by simp) fun i h1 h2 => ?_
  simp only [load, List.getElem_map, List.getElem_range, store]
  rw [if_pos (by omega), Nat.add_sub_cancel_left, List.getD_eq_getElem _ _ h2]

lemma load_store_of_disjoint {l : List UInt8} (h : b + k ≤ a ∨ a + l.length ≤ b) :
    load (store m a l) b k = load m b k :=
  load_congr fun x _ _ => if_neg (by omega)

end ByteMem
