import Mathlib

/-!
# One's complement sums

A checksum of this kind adds the 16-bit words of a buffer and folds the carries back in.  The folded
sum is the sum modulo `65535`, with `65535` in place of `0` unless the sum itself is `0`; so adding
its complement to the buffer makes the folded sum `65535`.
-/

namespace OnesComplement

/-- The sum of the little-endian 16-bit words of a buffer; a last odd byte counts as a word. -/
def wordSum : List UInt8 → ℕ
  | [] => 0
  | [a] => a.toNat
  | a :: b :: p => a.toNat + 256 * b.toNat + wordSum p

/-- Fold the carries of a sum back into 16 bits, at most `fuel` times. -/
def foldCarry : ℕ → ℕ → ℕ
  | 0, sum => sum
  | fuel + 1, sum => if sum / 65536 = 0 then sum else foldCarry fuel (sum % 65536 + sum / 65536)

variable {p q : List UInt8} {fuel sum : ℕ}

lemma wordSum_append (h : Even p.length) (q : List UInt8) :
    wordSum (p ++ q) = wordSum p + wordSum q := by
  induction p using wordSum.induct with
  | case1 => simp [wordSum]
  | case2 a => simp at h
  | case3 a b p ih =>
    have hp : Even p.length := by
      rw [List.length_cons, List.length_cons, Nat.even_add_one, Nat.even_add_one, not_not] at h
      exact h
    rw [List.cons_append, List.cons_append, wordSum, wordSum, ih hp]
    omega

lemma wordSum_le (p : List UInt8) : wordSum p ≤ 65535 * ((p.length + 1) / 2) := by
  induction p using wordSum.induct with
  | case1 => simp [wordSum]
  | case2 a =>
    have := a.toNat_lt
    simp only [wordSum, List.length_singleton]
    omega
  | case3 a b p ih =>
    have ha := a.toNat_lt
    have hb := b.toNat_lt
    simp only [wordSum, List.length_cons]
    omega

lemma foldCarry_lt (h : sum < 2 ^ 32) : foldCarry 2 sum < 65536 := by
  simp only [foldCarry]
  split_ifs <;> omega

lemma foldCarry_mod (fuel sum : ℕ) : foldCarry fuel sum % 65535 = sum % 65535 := by
  induction fuel generalizing sum with
  | zero => rfl
  | succ fuel ih =>
    rw [foldCarry]
    split_ifs with h
    · rfl
    · rw [ih]
      omega

lemma foldCarry_pos (h : 0 < sum) : 0 < foldCarry fuel sum := by
  induction fuel generalizing sum with
  | zero => exact h
  | succ fuel ih =>
    rw [foldCarry]
    split_ifs with h0
    · exact h
    · exact ih (by omega)

/-- **Adding the complement**: the folded sum of a sum and its complement is all ones. -/
theorem foldCarry_add_complement (h : sum + 65535 < 2 ^ 32) :
    foldCarry 2 (sum + (65535 - foldCarry 2 sum)) = 65535 := by
  have hlt := foldCarry_lt (show sum < 2 ^ 32 by omega)
  have hmod := foldCarry_mod 2 sum
  have hpos : 0 < sum → 0 < foldCarry 2 sum := foldCarry_pos
  have hlt' := foldCarry_lt (show sum + (65535 - foldCarry 2 sum) < 2 ^ 32 by omega)
  have hmod' := foldCarry_mod 2 (sum + (65535 - foldCarry 2 sum))
  have hpos' : 0 < foldCarry 2 (sum + (65535 - foldCarry 2 sum)) := by
    refine foldCarry_pos ?_
    by_cases h0 : sum = 0
    · subst h0
      decide
    · omega
  omega

/-! ## The sum of RFC 1071 -/

/-- One's complement addition of 16-bit numbers: the carry is added back in. -/
def onesAdd (a b : ℕ) : ℕ := (a + b) % 65536 + (a + b) / 65536

/-- The one's complement sum of 16-bit numbers. -/
def onesSum (ws : List ℕ) : ℕ := ws.foldl onesAdd 0

/-- The 16-bit words of a buffer as a little-endian machine reads them; a last odd byte is padded
with zero. -/
def hostWords : List UInt8 → List ℕ
  | [] => []
  | [a] => [a.toNat]
  | a :: b :: p => (a.toNat + 256 * b.toNat) :: hostWords p

/-- The same words in network order. -/
def netWords : List UInt8 → List ℕ
  | [] => []
  | [a] => [256 * a.toNat]
  | a :: b :: p => (256 * a.toNat + b.toNat) :: netWords p

/-- `r` is the 16-bit one's complement form of a sum: the residue modulo `65535`, where `0` stands
for the sum `0` only. -/
structure Folded (sum r : ℕ) : Prop where
  lt : r < 65536
  mod : r % 65535 = sum % 65535
  zero : r = 0 ↔ sum = 0

lemma Folded.unique {r r' : ℕ} (h : Folded sum r) (h' : Folded sum r') : r = r' := by
  obtain ⟨hlt, hmod, hzero⟩ := h
  obtain ⟨hlt', hmod', hzero'⟩ := h'
  omega

lemma Folded.onesAdd {r w : ℕ} (h : Folded sum r) (hw : w < 65536) :
    Folded (sum + w) (onesAdd r w) := by
  obtain ⟨hlt, hmod, hzero⟩ := h
  unfold OnesComplement.onesAdd
  refine ⟨?_, ?_, ?_⟩ <;> omega

/-- **Adding with the carry at once or at the end** gives the same. -/
lemma onesSum_folded {ws : List ℕ} (hws : ∀ w ∈ ws, w < 65536) : Folded ws.sum (onesSum ws) := by
  have hrun : ∀ (ws : List ℕ) (sum r : ℕ), (∀ w ∈ ws, w < 65536) → Folded sum r →
      Folded (sum + ws.sum) (ws.foldl OnesComplement.onesAdd r) := by
    intro ws
    induction ws with
    | nil => exact fun sum r _ h => h
    | cons w ws ih =>
      intro sum r hws h
      rw [List.sum_cons, ← Nat.add_assoc, List.foldl_cons]
      exact ih _ _ (fun x hx => hws x (List.mem_cons_of_mem w hx))
        (h.onesAdd (hws w List.mem_cons_self))
  have h := hrun ws 0 0 hws ⟨by omega, rfl, Iff.rfl⟩
  rwa [Nat.zero_add] at h

lemma foldCarry_folded (h : sum < 2 ^ 32) : Folded sum (foldCarry 2 sum) := by
  refine ⟨foldCarry_lt h, foldCarry_mod 2 sum, fun h0 => ?_, ?_⟩
  · by_contra hne
    exact absurd h0 (foldCarry_pos (Nat.pos_of_ne_zero hne)).ne'
  · rintro rfl
    rfl

/-- The two bytes of a 16-bit number, exchanged. -/
def swap16 (r : ℕ) : ℕ := r % 256 * 256 + r / 256

/-- **Byte order does not matter**: exchanging the bytes of every word exchanges those of the sum. -/
lemma Folded.swap {r sum' : ℕ} (h : Folded sum r) (hmod : sum' % 65535 = 256 * sum % 65535)
    (hzero : sum' = 0 ↔ sum = 0) : Folded sum' (swap16 r) := by
  obtain ⟨hlt, hr, hr0⟩ := h
  unfold swap16
  refine ⟨?_, ?_, ?_⟩ <;> omega

lemma hostWords_sum (p : List UInt8) : (hostWords p).sum = wordSum p := by
  induction p using wordSum.induct with
  | case1 => rfl
  | case2 a => rfl
  | case3 a b p ih => rw [hostWords, wordSum, List.sum_cons, ih]

lemma hostWords_lt (p : List UInt8) : ∀ w ∈ hostWords p, w < 65536 := by
  induction p using wordSum.induct with
  | case1 => simp [hostWords]
  | case2 a =>
    have := a.toNat_lt
    simp only [hostWords, List.mem_singleton, forall_eq]
    omega
  | case3 a b p ih =>
    have := a.toNat_lt
    have := b.toNat_lt
    simp only [hostWords, List.mem_cons, forall_eq_or_imp]
    exact ⟨by omega, ih⟩

lemma netWords_lt (p : List UInt8) : ∀ w ∈ netWords p, w < 65536 := by
  induction p using wordSum.induct with
  | case1 => simp [netWords]
  | case2 a =>
    have := a.toNat_lt
    simp only [netWords, List.mem_singleton, forall_eq]
    omega
  | case3 a b p ih =>
    have := a.toNat_lt
    have := b.toNat_lt
    simp only [netWords, List.mem_cons, forall_eq_or_imp]
    exact ⟨by omega, ih⟩

lemma netWords_sum (p : List UInt8) :
    (netWords p).sum % 65535 = 256 * (hostWords p).sum % 65535 ∧
      ((netWords p).sum = 0 ↔ (hostWords p).sum = 0) := by
  induction p using wordSum.induct with
  | case1 => exact ⟨rfl, Iff.rfl⟩
  | case2 a => simp [netWords, hostWords]
  | case3 a b p ih =>
    rw [netWords, hostWords, List.sum_cons, List.sum_cons]
    omega

/-- The sum in network order is the sum of the machine's words with its bytes exchanged. -/
lemma onesSum_netWords (p : List UInt8) : onesSum (netWords p) = swap16 (onesSum (hostWords p)) :=
  (onesSum_folded (netWords_lt p)).unique
    ((onesSum_folded (hostWords_lt p)).swap (netWords_sum p).1 (netWords_sum p).2)

end OnesComplement
