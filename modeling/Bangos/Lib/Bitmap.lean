import Bangos.Lib.ByteMem

/-!
# Bitmaps in a byte memory

Bit `i` is bit `i % 8` of byte `i / 8`.  Setting and clearing a bit touch that bit alone, and a
little-endian word is all ones exactly when all its bits are set.
-/

namespace ByteMem

variable {b : ℕ → UInt8} {i j : ℕ}

/-- Bit `i` of a bitmap. -/
def bitAt (b : ℕ → UInt8) (i : ℕ) : Bool := (b (i / 8)).toNat.testBit (i % 8)

/-- Set bit `i` of a bitmap. -/
def setBitAt (b : ℕ → UInt8) (i : ℕ) : ℕ → UInt8 :=
  Function.update b (i / 8) (UInt8.ofNat ((b (i / 8)).toNat ||| 2 ^ (i % 8)))

lemma setBitAt_of_ne {x : ℕ} (h : x ≠ i / 8) : setBitAt b i x = b x := Function.update_of_ne h _ _

/-- **Setting a bit** sets that bit and no other. -/
theorem bitAt_setBitAt (b : ℕ → UInt8) (i j : ℕ) :
    bitAt (setBitAt b i) j = (decide (j = i) || bitAt b j) := by
  unfold bitAt
  by_cases hbyte : j / 8 = i / 8
  · have hlt : (b (i / 8)).toNat ||| 2 ^ (i % 8) < 2 ^ 8 :=
      Nat.or_lt_two_pow (b (i / 8)).toNat_lt (Nat.pow_lt_pow_right (by norm_num) (by omega))
    have hval : (setBitAt b i (i / 8)).toNat = (b (i / 8)).toNat ||| 2 ^ (i % 8) := by
      rw [setBitAt, Function.update_self, UInt8.toNat_ofNat', Nat.mod_eq_of_lt hlt]
    rw [hbyte, hval, Nat.testBit_or, Nat.testBit_two_pow, Bool.or_comm]
    congr 1
    rw [decide_eq_decide]
    omega
  · rw [setBitAt_of_ne hbyte, decide_eq_false (fun h => hbyte (by rw [h])), Bool.false_or]

/-- Clear bit `i` of a bitmap. -/
def clearBitAt (b : ℕ → UInt8) (i : ℕ) : ℕ → UInt8 :=
  Function.update b (i / 8) (UInt8.ofNat ((b (i / 8)).toNat &&& ((2 ^ 8 - 1) ^^^ 2 ^ (i % 8))))

/-- **Clearing a bit** clears that bit and no other. -/
theorem bitAt_clearBitAt (b : ℕ → UInt8) (i j : ℕ) :
    bitAt (clearBitAt b i) j = (decide (j ≠ i) && bitAt b j) := by
  unfold bitAt clearBitAt
  by_cases hbyte : j / 8 = i / 8
  · have hlt : (b (i / 8)).toNat &&& ((2 ^ 8 - 1) ^^^ 2 ^ (i % 8)) < 2 ^ 8 :=
      lt_of_le_of_lt Nat.and_le_left (b (i / 8)).toNat_lt
    rw [hbyte, Function.update_self, UInt8.toNat_ofNat', Nat.mod_eq_of_lt hlt, Nat.testBit_and,
      Nat.testBit_xor, Nat.testBit_two_pow_sub_one, Nat.testBit_two_pow, Bool.and_comm,
      decide_eq_true (show j % 8 < 8 by omega), Bool.true_xor, ← decide_not]
    congr 1
    rw [decide_eq_decide]
    omega
  · rw [Function.update_of_ne hbyte, decide_eq_true (show j ≠ i from fun h => hbyte (by rw [h])),
      Bool.true_and]

/-! ## Words of a bitmap -/

lemma byte_eq_ones_iff (b : ℕ → UInt8) (x : ℕ) :
    (b x).toNat = 255 ↔ ∀ k < 8, bitAt b (8 * x + k) = true := by
  have hbit : ∀ k < 8, bitAt b (8 * x + k) = (b x).toNat.testBit k := by
    intro k hk
    rw [bitAt, show (8 * x + k) / 8 = x by omega, show (8 * x + k) % 8 = k by omega]
  constructor
  · intro h k hk
    rw [hbit k hk, h, show 255 = 2 ^ 8 - 1 from rfl, Nat.testBit_two_pow_sub_one]
    exact decide_eq_true hk
  · intro h
    rw [show 255 = 2 ^ 8 - 1 from rfl]
    refine Nat.eq_of_testBit_eq fun k => ?_
    rw [Nat.testBit_two_pow_sub_one]
    by_cases hk : k < 8
    · rw [← hbit k hk, h k hk, decide_eq_true hk]
    · have hlt : (b x).toNat < 2 ^ k :=
        (b x).toNat_lt.trans_le (Nat.pow_le_pow_right (by norm_num) (not_lt.mp hk))
      rw [Nat.testBit_lt_two_pow hlt, decide_eq_false hk]

/-- **A word of all ones** has all its bits set. -/
theorem le_eq_ones_iff (b : ℕ → UInt8) (a n : ℕ) :
    le b a n = 256 ^ n - 1 ↔ ∀ k < 8 * n, bitAt b (8 * a + k) = true := by
  induction n generalizing a with
  | zero => simp [le]
  | succ n ih =>
    have hlt := le_lt b (a + 1) n
    have hbyte := (b a).toNat_lt
    -- the low byte and the rest are both all ones
    have hsplit : le b a (n + 1) = 256 ^ (n + 1) - 1 ↔
        (b a).toNat = 255 ∧ le b (a + 1) n = 256 ^ n - 1 := by
      rw [le, pow_succ]
      omega
    rw [hsplit, byte_eq_ones_iff, ih]
    constructor
    · rintro ⟨hlow, hhigh⟩ k hk
      by_cases hk8 : k < 8
      · exact hlow k hk8
      · have := hhigh (k - 8) (by omega)
        rwa [show 8 * (a + 1) + (k - 8) = 8 * a + k by omega] at this
    · intro h
      refine ⟨fun k hk => h k (by omega), fun k hk => ?_⟩
      rw [show 8 * (a + 1) + k = 8 * a + (8 + k) by ring]
      exact h (8 + k) (by omega)

lemma bitAt_congr {b' : ℕ → UInt8} (h : b' (i / 8) = b (i / 8)) : bitAt b' i = bitAt b i := by
  rw [bitAt, bitAt, h]

end ByteMem
