import Bangos.Net.Dns

/-!
# Building a DNS query (`kernel/net/dns.c`)

`encode_qname` replaces every dot of the name by the length of the label after it, in one pass that
writes a label when it sees its end.  It checks its own room in the buffer, but not the room for the
four bytes that `dns_resolve` appends.
-/

namespace Bangos.Net

/-! ## Names as lists of labels -/

/-- The name cut at its dots: the labels that end with a dot, and the rest.  The first label starts
with the characters `label`. -/
def cutDots : List UInt8 → List UInt8 → List (List UInt8) × List UInt8
  | label, [] => ([], label)
  | label, c :: hostname =>
    if c = dot then (label :: (cutDots [] hostname).1, (cutDots [] hostname).2)
    else cutDots (label ++ [c]) hostname

/-- Labels with their lengths in front. -/
def wire (labels : List (List UInt8)) : List UInt8 :=
  labels.flatMap fun label => UInt8.ofNat label.length :: label

/-- The labels of a name; an empty one after the last dot does not count. -/
def labelsOf (hostname : List UInt8) : List (List UInt8) :=
  (cutDots [] hostname).1 ++
    if (cutDots [] hostname).2 = [] then [] else [(cutDots [] hostname).2]

/-- The encoding of a name: its labels and a zero byte. -/
def qname (hostname : List UInt8) : List UInt8 := wire (labelsOf hostname) ++ [0]

lemma cutDots_dot (label hostname : List UInt8) :
    cutDots label (dot :: hostname) =
      (label :: (cutDots [] hostname).1, (cutDots [] hostname).2) := by
  rw [cutDots, if_pos rfl]

lemma cutDots_of_ne {c : UInt8} (hc : c ≠ dot) (label hostname : List UInt8) :
    cutDots label (c :: hostname) = cutDots (label ++ [c]) hostname := by
  rw [cutDots, if_neg hc]

lemma wire_cons (label : List UInt8) (labels : List (List UInt8)) :
    wire (label :: labels) = UInt8.ofNat label.length :: label ++ wire labels := by
  rw [wire, List.flatMap_cons]
  rfl

lemma wire_append (labels labels' : List (List UInt8)) :
    wire (labels ++ labels') = wire labels ++ wire labels' :=
  List.flatMap_append

lemma wire_singleton (label : List UInt8) :
    wire [label] = UInt8.ofNat label.length :: label := by
  rw [wire, List.flatMap_singleton]

lemma length_cutDots (label hostname : List UInt8) :
    (wire (cutDots label hostname).1).length + (cutDots label hostname).2.length =
      label.length + hostname.length := by
  induction hostname generalizing label with
  | nil => simp [cutDots, wire]
  | cons c hostname ih =>
    by_cases hc : c = dot
    · have hrest := ih []
      rw [hc, cutDots_dot, wire_cons]
      simp only [List.length_append, List.length_cons, List.length_nil] at hrest ⊢
      omega
    · rw [cutDots_of_ne hc, ih, List.length_append, List.length_cons, List.length_cons, List.length_nil]
      omega

/-! ## What `encode_qname` writes -/

section Encode

variable {bufSz : ℕ} {hostname label out : List UInt8}

lemma encodeLoop_ok (hlabels : ∀ l ∈ (cutDots label hostname).1, l.length ≤ 63)
    (hfits : out.length + (wire (cutDots label hostname).1).length < bufSz) :
    encodeLoop bufSz hostname label out =
      .ok ((cutDots label hostname).2, out ++ wire (cutDots label hostname).1) := by
  induction hostname generalizing label out with
  | nil => simp [encodeLoop, cutDots, wire]
  | cons c hostname ih =>
    rw [encodeLoop]
    by_cases hc : c = dot
    · rw [hc, cutDots_dot] at hlabels hfits ⊢
      rw [List.forall_mem_cons] at hlabels
      rw [wire_cons, List.length_append, List.length_cons] at hfits
      have hroom : ¬ (label.length > 63 ∨ out.length + label.length + 1 ≥ bufSz) := by omega
      have hnext : (out ++ UInt8.ofNat label.length :: label).length +
          (wire (cutDots [] hostname).1).length < bufSz := by
        rw [List.length_append, List.length_cons]
        omega
      rw [if_pos rfl, if_neg hroom, ih hlabels.2 hnext, wire_cons, List.append_assoc]
    · rw [cutDots_of_ne hc] at hlabels hfits ⊢
      rw [if_neg hc]
      exact ih hlabels hfits

lemma encodeLoop_error (hout : out.length < bufSz)
    (h : (∃ l ∈ (cutDots label hostname).1, 63 < l.length) ∨
      bufSz ≤ out.length + (wire (cutDots label hostname).1).length) :
    ∃ out', encodeLoop bufSz hostname label out = .error out' ∧ out'.length < bufSz := by
  induction hostname generalizing label out with
  | nil =>
    rcases h with ⟨l, hl, -⟩ | hbig
    · cases hl
    · simp [cutDots, wire] at hbig
      omega
  | cons c hostname ih =>
    rw [encodeLoop]
    by_cases hc : c = dot
    · rw [hc, cutDots_dot] at h
      rw [if_pos hc]
      by_cases hroom : label.length > 63 ∨ out.length + label.length + 1 ≥ bufSz
      · rw [if_pos hroom]
        exact ⟨out, rfl, hout⟩
      · rw [if_neg hroom]
        have hlen : (out ++ UInt8.ofNat label.length :: label).length =
            out.length + label.length + 1 := by
          rw [List.length_append, List.length_cons, Nat.add_assoc]
        apply ih (by omega)
        rcases h with ⟨l, hl, hlong⟩ | hbig
        · rcases List.mem_cons.mp hl with rfl | hl
          · exact absurd (Or.inl hlong) hroom
          · exact Or.inl ⟨l, hl, hlong⟩
        · right
          rw [wire_cons, List.length_append, List.length_cons] at hbig
          omega
    · rw [cutDots_of_ne hc] at h
      rw [if_neg hc]
      exact ih hout h

/-- `encode_qname` accepts the name for a buffer of this size: no label is too long, and there is
room.  The last label is checked with one byte more than it takes. -/
def Encodable (bufSz : ℕ) (hostname : List UInt8) : Prop :=
  (∀ l ∈ labelsOf hostname, l.length ≤ 63) ∧
    if (cutDots [] hostname).2 = [] then hostname.length < bufSz else hostname.length + 2 < bufSz

lemma length_qname (hostname : List UInt8) :
    (qname hostname).length =
      hostname.length + if (cutDots [] hostname).2 = [] then 1 else 2 := by
  have hlen := length_cutDots [] hostname
  rw [List.length_nil, Nat.zero_add] at hlen
  rw [qname, labelsOf, List.length_append, wire_append, List.length_append, List.length_singleton]
  by_cases hlast : (cutDots [] hostname).2 = []
  · rw [hlast, List.length_nil] at hlen
    rw [if_pos hlast, if_pos hlast, ← hlen]
    rfl
  · rw [if_neg hlast, if_neg hlast, wire_singleton, List.length_cons]
    omega

lemma encodeQname_of_encodable (h : Encodable bufSz hostname) :
    encodeQname hostname bufSz = (qname hostname, (qname hostname).length) := by
  obtain ⟨hlabels, hroom⟩ := h
  have hlen := length_cutDots [] hostname
  rw [List.length_nil, Nat.zero_add] at hlen
  rw [labelsOf, List.forall_mem_append] at hlabels
  have hfits : ([] : List UInt8).length + (wire (cutDots [] hostname).1).length < bufSz := by
    rw [List.length_nil]
    split at hroom <;> omega
  rw [encodeQname, encodeLoop_ok hlabels.1 hfits, List.nil_append]
  dsimp only
  rw [qname, labelsOf, wire_append, encodeLast]
  by_cases hlast : (cutDots [] hostname).2 = []
  · have hnil : ¬ ([] : List UInt8).length > 0 := lt_irrefl 0
    rw [hlast, if_neg hnil, if_pos rfl]
    simp [wire]
  · rw [if_neg hlast] at hroom hlabels ⊢
    have hpos := List.length_pos_iff.mpr hlast
    have hshort := hlabels.2 _ List.mem_cons_self
    rw [if_pos hpos, if_neg (by omega), wire_singleton, List.length_append]
    rfl

lemma encodeQname_of_not_encodable (hsize : 0 < bufSz) (h : ¬ Encodable bufSz hostname) :
    ∃ out, encodeQname hostname bufSz = (out, 0) ∧ out.length < bufSz := by
  have hlen := length_cutDots [] hostname
  rw [List.length_nil, Nat.zero_add] at hlen
  by_cases hloop : (∀ l ∈ (cutDots [] hostname).1, l.length ≤ 63) ∧
      (wire (cutDots [] hostname).1).length < bufSz
  · have hfits : ([] : List UInt8).length + (wire (cutDots [] hostname).1).length < bufSz := by
      rw [List.length_nil]
      omega
    rw [encodeQname, encodeLoop_ok hloop.1 hfits, List.nil_append]
    dsimp only
    rw [encodeLast]
    by_cases hlast : (cutDots [] hostname).2 = []
    · -- nothing is left to be refused
      rw [hlast, List.length_nil] at hlen
      rw [Encodable, labelsOf, if_pos hlast, if_pos hlast, List.append_nil] at h
      exact absurd ⟨hloop.1, by omega⟩ h
    · have hpos := List.length_pos_iff.mpr hlast
      have hbad : (cutDots [] hostname).2.length > 63 ∨
          (wire (cutDots [] hostname).1).length + (cutDots [] hostname).2.length + 2 ≥ bufSz := by
        by_contra hgood
        rw [Encodable, labelsOf, if_neg hlast, if_neg hlast, List.forall_mem_append,
          List.forall_mem_singleton] at h
        exact h ⟨⟨hloop.1, by omega⟩, by omega⟩
      rw [if_pos hpos, if_pos hbad]
      exact ⟨_, rfl, hloop.2⟩
  · have hbad : (∃ l ∈ (cutDots [] hostname).1, 63 < l.length) ∨
        bufSz ≤ ([] : List UInt8).length + (wire (cutDots [] hostname).1).length := by
      by_contra hgood
      simp only [not_or, not_exists, not_and, not_lt, not_le, List.length_nil, Nat.zero_add]
        at hgood
      exact hloop hgood
    obtain ⟨out, herror, hout⟩ := encodeLoop_error hsize hbad
    rw [encodeQname, herror]
    exact ⟨out, rfl, hout⟩

end Encode

/-! ## Reading the labels back -/

/-- Labels up to the zero byte, and how many bytes they take. -/
def decodeName : ℕ → List UInt8 → Option (List (List UInt8) × ℕ)
  | 0, _ => none
  | _, [] => none
  | fuel + 1, c :: p =>
    if c = 0 then some ([], 1)
    else if p.length < c.toNat then none
    else (decodeName fuel (p.drop c.toNat)).map fun r =>
      (p.take c.toNat :: r.1, 1 + c.toNat + r.2)

/-- A label of a hostname. -/
structure ValidLabel (label : List UInt8) : Prop where
  pos : 1 ≤ label.length
  le : label.length ≤ 63
  no_nul : (0 : UInt8) ∉ label
  no_dot : dot ∉ label

/-- The labels with dots between them, and one after the last if wanted. -/
def hostnameOf (labels : List (List UInt8)) (trailing : Bool) : List UInt8 :=
  [dot].intercalate labels ++ if trailing then [dot] else []

section RoundTrip

variable {labels : List (List UInt8)} {label l hostname : List UInt8} {trailing : Bool}

lemma cutDots_of_no_dot (hl : dot ∉ l) : cutDots label l = ([], label ++ l) := by
  induction l generalizing label with
  | nil => rw [cutDots, List.append_nil]
  | cons c l ih =>
    rw [List.mem_cons, not_or] at hl
    rw [cutDots_of_ne fun hc => hl.1 hc.symm, ih hl.2, List.append_assoc]
    rfl

lemma cutDots_append_dot (hl : dot ∉ l) :
    cutDots label (l ++ dot :: hostname) =
      ((label ++ l) :: (cutDots [] hostname).1, (cutDots [] hostname).2) := by
  induction l generalizing label with
  | nil => rw [List.nil_append, cutDots_dot, List.append_nil]
  | cons c l ih =>
    rw [List.mem_cons, not_or] at hl
    rw [List.cons_append, cutDots_of_ne fun hc => hl.1 hc.symm, ih hl.2, List.append_assoc]
    rfl

lemma labelsOf_append_dot (hl : dot ∉ l) :
    labelsOf (l ++ dot :: hostname) = l :: labelsOf hostname := by
  rw [labelsOf, cutDots_append_dot hl, List.nil_append]
  rfl

lemma ValidLabel.labelsOf_eq (h : ValidLabel l) : labelsOf l = [l] := by
  have hne : l ≠ [] := List.length_pos_iff.mp h.pos
  rw [labelsOf, cutDots_of_no_dot h.no_dot, List.nil_append]
  exact if_neg hne

lemma labelsOf_hostnameOf (hv : ∀ l ∈ labels, ValidLabel l) (ht : trailing = true → labels ≠ []) :
    labelsOf (hostnameOf labels trailing) = labels := by
  induction labels with
  | nil =>
    cases trailing with
    | true => exact absurd rfl (ht rfl)
    | false => rfl
  | cons l labels ih =>
    rw [List.forall_mem_cons] at hv
    cases labels with
    | nil =>
      cases trailing with
      | true =>
        have hhost : hostnameOf [l] true = l ++ dot :: [] := by simp [hostnameOf, List.intercalate]
        rw [hhost, labelsOf_append_dot hv.1.no_dot]
        rfl
      | false =>
        have hhost : hostnameOf [l] false = l := by simp [hostnameOf, List.intercalate]
        rw [hhost, hv.1.labelsOf_eq]
    | cons l' labels =>
      have hhost : hostnameOf (l :: l' :: labels) trailing =
          l ++ dot :: hostnameOf (l' :: labels) trailing := by
        simp [hostnameOf, List.intercalate]
      rw [hhost, labelsOf_append_dot hv.1.no_dot, ih hv.2 fun _ => List.cons_ne_nil _ _]

lemma length_le_wire (labels : List (List UInt8)) : labels.length ≤ (wire labels).length := by
  induction labels with
  | nil => exact le_rfl
  | cons l labels ih =>
    rw [wire_cons, List.length_append, List.length_cons, List.length_cons]
    omega

/-- Decoding undoes the encoding, whatever follows. -/
lemma decodeName_wire {fuel : ℕ} (hv : ∀ l ∈ labels, ValidLabel l) (hfuel : labels.length < fuel)
    (rest : List UInt8) :
    decodeName fuel (wire labels ++ 0 :: rest) = some (labels, (wire labels).length + 1) := by
  induction labels generalizing fuel with
  | nil =>
    obtain ⟨fuel, rfl⟩ : ∃ k, fuel = k + 1 := ⟨fuel - 1, by omega⟩
    rfl
  | cons l labels ih =>
    rw [List.forall_mem_cons] at hv
    rw [List.length_cons] at hfuel
    obtain ⟨fuel, rfl⟩ : ∃ k, fuel = k + 1 := ⟨fuel - 1, by omega⟩
    have hpos := hv.1.pos
    have hle := hv.1.le
    have hlen : (UInt8.ofNat l.length).toNat = l.length := by
      rw [UInt8.toNat_ofNat', Nat.mod_eq_of_lt (by omega)]
    have hne : UInt8.ofNat l.length ≠ 0 := by
      intro h0
      rw [h0] at hlen
      change 0 = l.length at hlen
      omega
    rw [wire_cons, List.append_assoc, List.cons_append, decodeName, if_neg hne, hlen,
      List.length_append, if_neg (by omega), List.drop_left, List.take_left,
      ih hv.2 (by omega), Option.map_some, List.length_append, List.length_cons]
    simp only [Option.some.injEq, Prod.mk.injEq, true_and]
    omega

/-- **The encoding of a hostname can be read back**: for labels of 1 to 63 bytes, 253 bytes in all,
with or without a dot at the end. -/
theorem qname_roundTrip (labels : List (List UInt8)) (trailing : Bool)
    (hv : ∀ l ∈ labels, ValidLabel l) (ht : trailing = true → labels ≠ [])
    (hlen : (hostnameOf labels trailing).length ≤ 253) :
    0 < (encodeQname (hostnameOf labels trailing) 500).2 ∧
      decodeName (encodeQname (hostnameOf labels trailing) 500).2
          ((encodeQname (hostnameOf labels trailing) 500).1.take
            (encodeQname (hostnameOf labels trailing) 500).2) =
        some (labels, (encodeQname (hostnameOf labels trailing) 500).2) := by
  have hlabels := labelsOf_hostnameOf hv ht
  have henc : Encodable 500 (hostnameOf labels trailing) := by
    refine ⟨fun l hl => ?_, ?_⟩
    · rw [hlabels] at hl
      exact (hv l hl).le
    · split <;> omega
  have hqname : qname (hostnameOf labels trailing) = wire labels ++ [0] := by
    rw [qname, hlabels]
  have hcount := length_le_wire labels
  rw [encodeQname_of_encodable henc, hqname, List.take_length, List.length_append,
    List.length_singleton, decodeName_wire hv (by omega)]
  exact ⟨by omega, rfl⟩

/-- `ab.c.` takes five bytes and the zero byte. -/
theorem qname_roundTrip_short :
    (∀ l ∈ [[0x61, 0x62], [0x63]], ValidLabel l) ∧
      decodeName (encodeQname (hostnameOf [[0x61, 0x62], [0x63]] true) 500).2
          ((encodeQname (hostnameOf [[0x61, 0x62], [0x63]] true) 500).1.take
            (encodeQname (hostnameOf [[0x61, 0x62], [0x63]] true) 500).2) =
        some ([[0x61, 0x62], [0x63]], (encodeQname (hostnameOf [[0x61, 0x62], [0x63]] true) 500).2) := by
  have hv : ∀ l ∈ [[0x61, 0x62], [0x63]], ValidLabel l := by
    rw [List.forall_mem_cons, List.forall_mem_singleton]
    exact ⟨⟨by decide, by decide, by decide, by decide⟩,
      ⟨by decide, by decide, by decide, by decide⟩⟩
  exact ⟨hv, (qname_roundTrip _ true hv (fun _ => by decide) (by decide)).2⟩

end RoundTrip

/-! ## The room for the query -/

section Room

variable {hostname : List UInt8}

lemma cutDots_snd_eq_nil {label : List UInt8} :
    (cutDots label hostname).2 = [] ↔
      hostname = [] ∧ label = [] ∨ hostname.getLast? = some dot := by
  induction hostname generalizing label with
  | nil => simp [cutDots]
  | cons c hostname ih =>
    have hnil : ¬ (c :: hostname = [] ∧ label = []) := fun h => List.cons_ne_nil _ _ h.1
    rw [or_iff_right hnil]
    by_cases hc : c = dot
    · rw [hc, cutDots_dot, ih]
      cases hostname with
      | nil => simp
      | cons c' hostname => simp [List.getLast?_cons_cons]
    · rw [cutDots_of_ne hc, ih]
      cases hostname with
      | nil => simp [hc]
      | cons c' hostname => simp [List.getLast?_cons_cons]

/-- The size of the encoding by the length of the name. -/
lemma length_qname_of_ne_nil (hne : hostname ≠ []) :
    (qname hostname).length =
      hostname.length + if hostname.getLast? = some dot then 1 else 2 := by
  have hlast : (cutDots [] hostname).2 = [] ↔ hostname.getLast? = some dot := by
    rw [cutDots_snd_eq_nil, or_iff_right fun h => hne h.1]
  rw [length_qname]
  simp only [hlast]

lemma encodable_iff (bufSz : ℕ) (hne : hostname ≠ []) :
    Encodable bufSz hostname ↔ (∀ l ∈ labelsOf hostname, l.length ≤ 63) ∧
      if hostname.getLast? = some dot then hostname.length < bufSz
      else hostname.length + 2 < bufSz := by
  have hlast : (cutDots [] hostname).2 = [] ↔ hostname.getLast? = some dot := by
    rw [cutDots_snd_eq_nil, or_iff_right fun h => hne h.1]
  rw [Encodable]
  simp only [hlast]

/-- The building of a query writes inside `query_buf`, and a name whose query does not fit there is
refused.  No query is built for a numeric name. -/
def BuildsInside (s : Stack) (d : Dns) (hostname : List UInt8) (turns : ℕ) : Prop :=
  isNumeric hostname = false →
    (∀ w ∈ (queryWrites (d.queryId + 1) hostname).1, w.1 + w.2.length ≤ queryBufSize) ∧
      (queryBufSize < dnsHdrSize + (qname hostname).length + 4 →
        ∃ s' d', dnsResolve s d hostname turns = some (none, s', d'))

lemma start_inside (id : UInt16) (rest : List (ℕ × List UInt8)) :
    (∀ w ∈ [(0, List.replicate queryBufSize 0),
        (0, be16Bytes id ++ be16Bytes 0x0100 ++ be16Bytes 1)] ++ rest,
      w.1 + w.2.length ≤ queryBufSize) ↔ ∀ w ∈ rest, w.1 + w.2.length ≤ queryBufSize := by
  have hheader : (be16Bytes id ++ be16Bytes 0x0100 ++ be16Bytes 1).length = 6 := rfl
  rw [List.cons_append, List.cons_append, List.nil_append, List.forall_mem_cons,
    List.forall_mem_cons, List.length_replicate, hheader]
  exact (and_iff_right (by decide)).trans (and_iff_right (show 0 + 6 ≤ queryBufSize by decide))

lemma queryWrites_inside_iff (id : UInt16) (h : Encodable (queryBufSize - dnsHdrSize) hostname) :
    (∀ w ∈ (queryWrites id hostname).1, w.1 + w.2.length ≤ queryBufSize) ↔
      (qname hostname).length ≤ 496 := by
  have hpos : (qname hostname).length ≠ 0 := by
    rw [qname, List.length_append, List.length_singleton]
    omega
  rw [queryWrites]
  simp only [encodeQname_of_encodable h]
  rw [if_neg hpos, start_inside, List.forall_mem_cons, List.forall_mem_singleton, queryBufSize,
    dnsHdrSize]
  simp only [List.length_cons, List.length_nil]
  omega

lemma refused_inside (s : Stack) (d : Dns) (turns : ℕ) (hnum : isNumeric hostname = false)
    (h : ¬ Encodable (queryBufSize - dnsHdrSize) hostname) :
    (∀ w ∈ (queryWrites (d.queryId + 1) hostname).1, w.1 + w.2.length ≤ queryBufSize) ∧
      ∃ s' d', dnsResolve s d hostname turns = some (none, s', d') := by
  obtain ⟨out, henc, hout⟩ := encodeQname_of_not_encodable (by decide) h
  have hwrites : ∀ id, queryWrites id hostname =
      ([(0, List.replicate queryBufSize 0), (0, be16Bytes id ++ be16Bytes 0x0100 ++ be16Bytes 1)] ++
        [(dnsHdrSize, out)], none) := by
    intro id
    rw [queryWrites]
    simp only [henc]
    rfl
  constructor
  · rw [hwrites, start_inside, List.forall_mem_singleton]
    rw [queryBufSize, dnsHdrSize] at hout ⊢
    dsimp only
    omega
  · have hquery : dnsQuery (d.queryId + 1) hostname = none := by
      rw [dnsQuery, hwrites]
      rfl
    rw [dnsResolve, if_neg (by rw [hnum]; exact Bool.false_ne_true)]
    dsimp only
    rw [hquery]
    exact ⟨_, _, rfl⟩

/-- **The query stays inside its buffer exactly if** none is built, or a label is too long, or the
length of the name is not one of the few for which `encode_qname` leaves no room for the four bytes
after the name. -/
theorem buildsInside_iff (s : Stack) (d : Dns) (hostname : List UInt8) (turns : ℕ) :
    BuildsInside s d hostname turns ↔
      isNumeric hostname = true ∨ (∃ l ∈ labelsOf hostname, 63 < l.length) ∨
        if hostname.getLast? = some dot then ¬ (496 ≤ hostname.length ∧ hostname.length ≤ 499)
        else ¬ (495 ≤ hostname.length ∧ hostname.length ≤ 497) := by
  by_cases hnum : isNumeric hostname = true
  · exact iff_of_true (fun h => absurd hnum (by rw [h]; exact Bool.false_ne_true)) (Or.inl hnum)
  have hfalse := Bool.eq_false_of_not_eq_true hnum
  have hne : hostname ≠ [] := by
    rintro rfl
    exact hnum rfl
  have hlen := length_qname_of_ne_nil hne
  have henc := encodable_iff (queryBufSize - dnsHdrSize) hne
  have hsize : queryBufSize - dnsHdrSize = 500 := rfl
  rw [or_iff_right hnum]
  by_cases hok : Encodable (queryBufSize - dnsHdrSize) hostname
  · -- an accepted name has to leave room for the type and the class
    have hwrites := queryWrites_inside_iff (d.queryId + 1) hok
    obtain ⟨hlabels, hroom⟩ := henc.mp hok
    have hshort : ¬ ∃ l ∈ labelsOf hostname, 63 < l.length := by
      rintro ⟨l, hl, hlong⟩
      exact absurd (hlabels l hl) (by omega)
    have hiff : BuildsInside s d hostname turns ↔ (qname hostname).length ≤ 496 := by
      refine ⟨fun h => hwrites.mp (h hfalse).1, fun h _ => ⟨hwrites.mpr h, fun hbig => ?_⟩⟩
      rw [queryBufSize, dnsHdrSize] at hbig
      omega
    rw [hiff, or_iff_right hshort, hlen]
    rw [hsize] at hroom
    split_ifs at hroom ⊢ <;> omega
  · -- a refused name writes inside
    obtain ⟨hwrites, hrefused⟩ := refused_inside s d turns hfalse hok
    refine iff_of_true (fun _ => ⟨hwrites, fun _ => hrefused⟩) ?_
    by_contra hbad
    rw [not_or] at hbad
    apply hok
    rw [henc]
    refine ⟨fun l hl => not_lt.mp fun hlong => hbad.1 ⟨l, hl, hlong⟩, ?_⟩
    have hrange := hbad.2
    rw [hsize]
    split_ifs at hrange ⊢ <;> omega

/-- Eight labels of 61 letters: 495 characters. -/
def longName : List UInt8 :=
  (List.replicate 7 (List.replicate 61 0x61 ++ [dot])).flatten ++ List.replicate 61 0x61

/-- The query for a name of 495 characters writes the byte behind its buffer. -/
theorem query_overflows :
    (509, [0x00, 0x01, 0x00, 0x01]) ∈ (queryWrites 0x5433 longName).1 ∧
      ¬ BuildsInside (Stack.initial []) ⟨false, 0, 0x5432⟩ longName 0 := by
  have hwrite : (509, [0x00, 0x01, 0x00, 0x01]) ∈ (queryWrites 0x5433 longName).1 := by
    decide +kernel
  refine ⟨hwrite, fun h => ?_⟩
  have hle := (h (by decide +kernel)).1 _ hwrite
  exact absurd hle (by decide)

/-! ## Numeric names -/

/-- **Addresses survive their text**: `ip_to_str` writes the canonical text in at most 16 bytes,
`str_to_ip` reads it back, and `dns_resolve` answers it at once, without touching the network. -/
theorem dottedQuad_roundTrip (ip : UInt32) (bufSz : ℕ) (hbuf : 16 ≤ bufSz) (s : Stack) (d : Dns)
    (turns : ℕ) :
    ipToStr ip bufSz = some (dottedQuad ip ++ [0]) ∧ (dottedQuad ip ++ [0]).length ≤ 16 ∧
      (0 : UInt8) ∉ dottedQuad ip ∧ strToIp (dottedQuad ip) = ip ∧
      dnsResolve s d (dottedQuad ip) turns = some (some ip, s, d) := by
  obtain ⟨hwritten, hlen⟩ := ipToStr_eq ip hbuf
  have hnumeric : isNumeric (dottedQuad ip) = true := by
    rw [isNumeric, List.all_eq_true]
    intro c hc
    rw [Bool.or_eq_true, beq_iff_eq]
    exact dottedQuad_chars ip c hc
  refine ⟨hwritten, hlen, fun h0 => ?_, strToIp_dottedQuad ip, ?_⟩
  · exact absurd (dottedQuad_chars ip 0 h0) (by decide)
  · rw [dnsResolve, if_pos hnumeric, strToIp_dottedQuad]

/-- The longest text just fits. -/
theorem dottedQuad_roundTrip_broadcast :
    ipToStr broadcastIp 16 = some (dottedQuad broadcastIp ++ [0]) ∧
      strToIp (dottedQuad broadcastIp) = broadcastIp :=
  have h := dottedQuad_roundTrip broadcastIp 16 le_rfl (Stack.initial []) ⟨false, 0, 0x5432⟩ 0
  ⟨h.1, h.2.2.2.1⟩

end Room

end Bangos.Net
