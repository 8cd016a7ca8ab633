import Bangos.Lib.OnesComplement
import Bangos.Net.Tcp

/-!
# Byte order and checksums (`kernel/net/net.h`, `kernel/net/net.c`)

Packets are lists of bytes.  Ports, lengths and identifiers are stored in network byte order; an
IPv4 address is kept in the order of its bytes, so its first byte is the lowest one.
-/

namespace Bangos.Net

open OnesComplement

/-! ## Fields -/

/-- A 16-bit field in network byte order (`htons`). -/
def be16Bytes (x : UInt16) : List UInt8 := [UInt8.ofNat (x.toNat / 256), UInt8.ofNat x.toNat]

/-- A 32-bit field in network byte order (`htonl`). -/
def be32Bytes (x : UInt32) : List UInt8 :=
  [UInt8.ofNat (x.toNat / 16777216), UInt8.ofNat (x.toNat / 65536), UInt8.ofNat (x.toNat / 256),
    UInt8.ofNat x.toNat]

/-- A 16-bit field as the machine stores it. -/
def le16Bytes (x : UInt16) : List UInt8 := [UInt8.ofNat x.toNat, UInt8.ofNat (x.toNat / 256)]

/-- A 32-bit field as the machine stores it. -/
def le32Bytes (x : UInt32) : List UInt8 :=
  [UInt8.ofNat x.toNat, UInt8.ofNat (x.toNat / 256), UInt8.ofNat (x.toNat / 65536),
    UInt8.ofNat (x.toNat / 16777216)]

/-- A 32-bit field of a packet, read as the machine reads it. -/
def le32 (p : List UInt8) (off : ℕ) : UInt32 :=
  UInt32.ofNat ((p.getD off 0).toNat + 256 * (p.getD (off + 1) 0).toNat +
    65536 * (p.getD (off + 2) 0).toNat + 16777216 * (p.getD (off + 3) 0).toNat)

lemma le32_le32Bytes (x : UInt32) (p : List UInt8) : le32 (le32Bytes x ++ p) 0 = x := by
  have hx := x.toNat_lt
  apply UInt32.toNat_inj.mp
  simp only [le32, le32Bytes, List.cons_append, List.getD_cons_zero, List.getD_cons_succ,
    Nat.zero_add, UInt8.toNat_ofNat', UInt32.toNat_ofNat']
  omega

lemma le32_drop (p : List UInt8) (off : ℕ) : le32 p off = le32 (p.drop off) 0 := by
  simp [le32, List.getD_eq_getElem?_getD, List.getElem?_drop]

lemma be16_be16Bytes (x : UInt16) (p : List UInt8) : be16 (be16Bytes x ++ p) 0 = x := by
  have hx := x.toNat_lt
  have hor : ∀ a b : ℕ, b < 2 ^ 8 → a * 2 ^ 8 ||| b = a * 2 ^ 8 + b := by
    intro a b hb
    rw [← Nat.shiftLeft_eq, Nat.shiftLeft_add_eq_or_of_lt hb]
  have hshift : x.toNat / 256 % 2 ^ 8 * 2 ^ (UInt16.toNat 8 % 16) % 2 ^ 16 =
      x.toNat / 256 * 2 ^ 8 := by
    have h8 : UInt16.toNat 8 % 16 = 8 := by decide
    rw [h8]
    omega
  apply UInt16.toNat_inj.mp
  simp only [be16, be16Bytes, List.cons_append, List.getD_cons_zero, List.getD_cons_succ,
    Nat.zero_add, UInt16.toNat_or, UInt16.toNat_shiftLeft, UInt8.toNat_toUInt16,
    UInt8.toNat_ofNat', Nat.shiftLeft_eq]
  rw [hshift, hor _ _ (Nat.mod_lt _ (by decide))]
  omega

lemma be16_drop (p : List UInt8) (off : ℕ) : be16 p off = be16 (p.drop off) 0 := by
  simp [be16, List.getD_eq_getElem?_getD, List.getElem?_drop]

/-! ## The checksum -/

/-- The sum that `net_checksum` folds, a 32-bit number. -/
def checksumSum (p : List UInt8) : ℕ := wordSum p % 2 ^ 32

/-- `net_checksum`. -/
def netChecksum (p : List UInt8) : UInt16 := ~~~ UInt16.ofNat (foldCarry 2 (checksumSum p))

lemma toNat_netChecksum (p : List UInt8) :
    (netChecksum p).toNat = 65535 - foldCarry 2 (checksumSum p) := by
  have hlt := foldCarry_lt (show checksumSum p < 2 ^ 32 from Nat.mod_lt _ (by decide))
  rw [netChecksum, UInt16.toNat_not, UInt16.toNat_ofNat', Nat.mod_eq_of_lt (by omega)]
  rfl

lemma wordSum_le16Bytes (x : UInt16) : wordSum (le16Bytes x) = x.toNat := by
  have hx := x.toNat_lt
  simp only [le16Bytes, wordSum, UInt8.toNat_ofNat']
  omega

/-- **A buffer with its checksum verifies**: the field lies at an even offset, and the checksum was
computed with zeros in its place. -/
theorem netChecksum_stored {p q : List UInt8} (hp : Even p.length)
    (hlen : p.length + q.length ≤ 131070) :
    netChecksum (p ++ le16Bytes (netChecksum (p ++ [0, 0] ++ q)) ++ q) = 0 := by
  have hle1 := wordSum_le p
  have hle2 := wordSum_le q
  have hsum : ∀ c : List UInt8, c.length = 2 →
      wordSum (p ++ c ++ q) = wordSum p + wordSum c + wordSum q := by
    intro c hc
    rw [wordSum_append (by rw [List.length_append, hc]; exact hp.add (by decide)),
      wordSum_append hp]
  have hzero : checksumSum (p ++ [0, 0] ++ q) = wordSum p + wordSum q := by
    rw [checksumSum, hsum _ rfl, Nat.mod_eq_of_lt]
    · simp [wordSum]
    · simp only [wordSum]
      simp
      omega
  have hval := toNat_netChecksum (p ++ [0, 0] ++ q)
  rw [hzero] at hval
  generalize hc : netChecksum (p ++ [0, 0] ++ q) = c at hval
  have hcheck : checksumSum (p ++ le16Bytes c ++ q) =
      wordSum p + wordSum q + (65535 - foldCarry 2 (wordSum p + wordSum q)) := by
    rw [checksumSum, hsum _ rfl, wordSum_le16Bytes, hval, Nat.mod_eq_of_lt (by omega)]
    omega
  apply UInt16.toNat_inj.mp
  rw [toNat_netChecksum, hcheck, foldCarry_add_complement (by omega)]
  rfl

end Bangos.Net
