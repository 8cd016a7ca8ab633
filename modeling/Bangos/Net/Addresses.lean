import Bangos.Net.Packet

/-!
# The text of an address (`kernel/net/net.c`)

`ip_to_str` writes the four octets in decimal, `str_to_ip` reads them back.  The canonical text is
taken from `Nat.toDigits`, which writes no leading zeros.
-/

namespace Bangos.Net

/-- The character `.`. -/
def dot : UInt8 := 0x2E

/-! ## The functions -/

/-- What the body of the loop of `ip_to_str` writes for an octet, without the dot. -/
def octetText (val : UInt8) : List UInt8 :=
  if val ≥ 100 then [0x30 + val / 100, 0x30 + val % 100 / 10, 0x30 + val % 100 % 10]
  else if val ≥ 10 then [0x30 + val / 10, 0x30 + val % 10]
  else [0x30 + val]

/-- The loop of `ip_to_str`: what it writes after `buf`.  A dot follows every octet but the last. -/
def ipToStrLoop : List UInt8 → List UInt8 → List UInt8
  | buf, [] => buf
  | buf, [val] => buf ++ octetText val
  | buf, val :: octets => ipToStrLoop (buf ++ octetText val ++ [dot]) octets

/-- `ip_to_str`: the bytes it writes to the buffer, from the first on; `none` when the buffer is too
small. -/
def ipToStr (ip : UInt32) (bufSz : ℕ) : Option (List UInt8) :=
  if bufSz < 16 then none
  else
    let octets := [((ip >>> 0) &&& 0xFF).toUInt8, ((ip >>> 8) &&& 0xFF).toUInt8,
      ((ip >>> 16) &&& 0xFF).toUInt8, ((ip >>> 24) &&& 0xFF).toUInt8]
    some (ipToStrLoop [] octets ++ [0])

/-- A decimal digit. -/
def isDigit (c : UInt8) : Bool := 0x30 ≤ c && c ≤ 0x39

/-- The loop of `str_to_ip`, on the four octets and the index of the current one. -/
def strToIpLoop : List UInt8 → (ℕ → UInt32) → ℕ → ℕ → UInt32
  | [], octets, _ => octets
  | c :: str, octets, octetIdx =>
    if octetIdx < 4 then
      if isDigit c then
        strToIpLoop str
          (Function.update octets octetIdx (octets octetIdx * 10 + (c - 0x30).toUInt32)) octetIdx
      else if c = dot then strToIpLoop str octets (octetIdx + 1)
      else octets
    else octets

/-- `str_to_ip`. -/
def strToIp (str : List UInt8) : UInt32 :=
  let octets := strToIpLoop str (fun _ => 0) 0
  ipAddr (octets 0).toUInt8 (octets 1).toUInt8 (octets 2).toUInt8 (octets 3).toUInt8

/-! ## The canonical text -/

/-- A number in decimal, without leading zeros. -/
def decimal (n : ℕ) : List UInt8 := (Nat.toDigits 10 n).map fun c => UInt8.ofNat c.toNat

/-- The dotted decimal text of an address. -/
def dottedQuad (ip : UInt32) : List UInt8 :=
  [dot].intercalate ((le32Bytes ip).map fun octet => decimal octet.toNat)

/-- The value of a text of digits, continuing the value `val`. -/
def digitsValue (val : UInt32) (text : List UInt8) : UInt32 :=
  text.foldl (fun val c => val * 10 + (c - 0x30).toUInt32) val

lemma octetText_eq (val : UInt8) : octetText val = decimal val.toNat := by
  have hall : ∀ n < 256, octetText (UInt8.ofNat n) = decimal n := by decide +kernel
  have hval := hall val.toNat val.toNat_lt
  rwa [UInt8.ofNat_toNat] at hval

lemma decimal_octet (val : UInt8) :
    (∀ c ∈ decimal val.toNat, isDigit c = true) ∧ (decimal val.toNat).length ≤ 3 ∧
      digitsValue 0 (decimal val.toNat) = val.toUInt32 := by
  have hdigits : ∀ n < 256, (decimal n).all isDigit = true := by decide +kernel
  have hlen : ∀ n < 256, (decimal n).length ≤ 3 := by decide +kernel
  have hvalue : ∀ n < 256, digitsValue 0 (decimal n) = (UInt8.ofNat n).toUInt32 := by
    decide +kernel
  have hlt : val.toNat < 256 := val.toNat_lt
  refine ⟨List.all_eq_true.mp (hdigits _ hlt), hlen _ hlt, ?_⟩
  rw [hvalue _ hlt, UInt8.ofNat_toNat]

lemma octets_eq (ip : UInt32) :
    [((ip >>> 0) &&& 0xFF).toUInt8, ((ip >>> 8) &&& 0xFF).toUInt8,
      ((ip >>> 16) &&& 0xFF).toUInt8, ((ip >>> 24) &&& 0xFF).toUInt8] = le32Bytes ip := by
  have hbyte : ∀ x : UInt32, (x &&& 0xFF).toUInt8 = UInt8.ofNat x.toNat := by
    intro x
    apply UInt8.toNat_inj.mp
    rw [UInt32.toNat_toUInt8, UInt32.toNat_and, UInt8.toNat_ofNat']
    have hmask : x.toNat &&& 255 = x.toNat % 2 ^ 8 := Nat.and_two_pow_sub_one_eq_mod _ 8
    exact (congrArg (· % 2 ^ 8) hmask).trans (Nat.mod_mod _ _)
  have hshift : ∀ k : UInt32, (ip >>> k).toNat = ip.toNat / 2 ^ (k.toNat % 32) := by
    intro k
    rw [UInt32.toNat_shiftRight, Nat.shiftRight_eq_div_pow]
  simp [hbyte, hshift, le32Bytes]

lemma intercalate_octets (a b c d : UInt8) :
    [dot].intercalate ([a, b, c, d].map fun octet => decimal octet.toNat) =
      decimal a.toNat ++ dot :: (decimal b.toNat ++ dot :: (decimal c.toNat ++ dot ::
        (decimal d.toNat ++ []))) := by
  simp [List.intercalate, List.intersperse]

/-! ## Writing -/

lemma ipToStrLoop_eq (buf : List UInt8) (a b c d : UInt8) :
    ipToStrLoop buf [a, b, c, d] =
      buf ++ [dot].intercalate ([a, b, c, d].map fun octet => decimal octet.toNat) := by
  rw [intercalate_octets]
  simp [ipToStrLoop, octetText_eq]

/-- **`ip_to_str` writes the canonical text** with its NUL, in at most 16 bytes. -/
lemma ipToStr_eq {bufSz : ℕ} (ip : UInt32) (h : 16 ≤ bufSz) :
    ipToStr ip bufSz = some (dottedQuad ip ++ [0]) ∧ (dottedQuad ip ++ [0]).length ≤ 16 := by
  have hlen : ∀ val : UInt8, (decimal val.toNat).length ≤ 3 := fun val => (decimal_octet val).2.1
  constructor
  · rw [ipToStr, if_neg (by omega), octets_eq, le32Bytes]
    dsimp only
    rw [ipToStrLoop_eq, List.nil_append]
    rfl
  · rw [dottedQuad, le32Bytes]
    generalize UInt8.ofNat ip.toNat = a, UInt8.ofNat (ip.toNat / 256) = b,
      UInt8.ofNat (ip.toNat / 65536) = c, UInt8.ofNat (ip.toNat / 16777216) = d
    have ha := hlen a
    have hb := hlen b
    have hc := hlen c
    have hd := hlen d
    rw [intercalate_octets]
    simp only [List.length_append, List.length_cons, List.length_nil]
    omega

/-! ## Reading -/

lemma strToIpLoop_digits {text : List UInt8} (h : ∀ c ∈ text, isDigit c = true) (str : List UInt8)
    (octets : ℕ → UInt32) {idx : ℕ} (hidx : idx < 4) :
    strToIpLoop (text ++ str) octets idx =
      strToIpLoop str (Function.update octets idx (digitsValue (octets idx) text)) idx := by
  induction text generalizing octets with
  | nil => rw [digitsValue, List.foldl_nil, Function.update_eq_self, List.nil_append]
  | cons c text ih =>
    rw [List.cons_append, strToIpLoop, if_pos hidx, if_pos (h c List.mem_cons_self),
      ih (fun d hd => h d (List.mem_cons_of_mem c hd)), Function.update_self,
      Function.update_idem, digitsValue, digitsValue, List.foldl_cons]

lemma strToIpLoop_octet (val : UInt8) (str : List UInt8) {octets : ℕ → UInt32} {idx : ℕ}
    (hidx : idx < 4) (hzero : octets idx = 0) :
    strToIpLoop (decimal val.toNat ++ str) octets idx =
      strToIpLoop str (Function.update octets idx val.toUInt32) idx := by
  obtain ⟨hdigits, -, hvalue⟩ := decimal_octet val
  rw [strToIpLoop_digits hdigits str octets hidx, hzero, hvalue]

lemma strToIpLoop_dot (str : List UInt8) (octets : ℕ → UInt32) {idx : ℕ} (hidx : idx < 4) :
    strToIpLoop (dot :: str) octets idx = strToIpLoop str octets (idx + 1) := by
  rw [strToIpLoop, if_pos hidx, if_neg (by decide), if_pos rfl]

lemma strToIp_octets (a b c d : UInt8) :
    strToIp ([dot].intercalate ([a, b, c, d].map fun octet => decimal octet.toNat)) =
      ipAddr a b c d := by
  rw [intercalate_octets, strToIp, strToIpLoop_octet a _ (by omega) rfl, strToIpLoop_dot _ _ (by omega),
    strToIpLoop_octet b _ (by omega) rfl, strToIpLoop_dot _ _ (by omega),
    strToIpLoop_octet c _ (by omega) rfl, strToIpLoop_dot _ _ (by omega),
    strToIpLoop_octet d _ (by omega) rfl, strToIpLoop]
  simp

/-- **`str_to_ip` reads the text of an address back.** -/
lemma strToIp_dottedQuad (ip : UInt32) : strToIp (dottedQuad ip) = ip := by
  rw [dottedQuad, le32Bytes, strToIp_octets, ipAddr]
  have hread := le32_le32Bytes ip []
  rwa [List.append_nil, le32Bytes] at hread

lemma dottedQuad_chars (ip : UInt32) :
    ∀ c ∈ dottedQuad ip, isDigit c = true ∨ c = dot := by
  have hdigit : ∀ val : UInt8, ∀ c ∈ decimal val.toNat, isDigit c = true ∨ c = dot :=
    fun val c hc => Or.inl ((decimal_octet val).1 c hc)
  rw [dottedQuad, le32Bytes, intercalate_octets, List.append_nil]
  simp only [List.forall_mem_append, List.forall_mem_cons, or_true, true_and]
  exact ⟨hdigit _, hdigit _, hdigit _, hdigit _⟩

end Bangos.Net
