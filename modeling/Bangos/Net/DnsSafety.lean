import Bangos.Net.Dns

/-!
# Reading a DNS reply is safe (`kernel/net/dns.c`)

The cursor of `dns_udp_callback` moves by lengths that the sender chooses, so it can pass the end of
the payload by any number of labels, questions and records.  Every read is guarded all the same, and
every turn of an inner loop moves the cursor forward.
-/

namespace Bangos.Net

section Total

variable {p : List UInt8} {ptr fuel : ℕ}

lemma exists_byte (h : ptr < p.length) : ∃ c, p[ptr]? = some c :=
  ⟨p[ptr], List.getElem?_eq_getElem h⟩

lemma exists_readBe16 (h : ptr + 1 < p.length) : ∃ x, readBe16 p ptr = some x := by
  obtain ⟨hi, hhi⟩ := exists_byte (show ptr < p.length by omega)
  obtain ⟨lo, hlo⟩ := exists_byte h
  exact ⟨be16 [hi, lo] 0, by rw [readBe16, hhi, Option.bind_some, hlo, Option.map_some]⟩

lemma exists_readIp (h : ptr + 3 < p.length) : ∃ ip, readIp p ptr = some ip := by
  obtain ⟨a, ha⟩ := exists_byte (show ptr < p.length by omega)
  obtain ⟨b, hb⟩ := exists_byte (show ptr + 1 < p.length by omega)
  obtain ⟨c, hc⟩ := exists_byte (show ptr + 2 < p.length by omega)
  obtain ⟨d, hd⟩ := exists_byte h
  exact ⟨ipAddr a b c d, by
    rw [readIp, ha, Option.bind_some, hb, Option.bind_some, hc, Option.bind_some, hd,
      Option.map_some]⟩

/-- Each turn moves the cursor forward, so the loop over a name in the question section ends. -/
lemma skipQuestionName_total (h : p.length ≤ ptr + fuel) :
    ∃ ptr', skipQuestionName p (fuel + 1) ptr = some ptr' := by
  induction fuel generalizing ptr with
  | zero => exact ⟨ptr, by rw [skipQuestionName, if_neg (by omega)]⟩
  | succ fuel ih =>
    rw [skipQuestionName]
    by_cases hin : ptr < p.length
    · obtain ⟨c, hc⟩ := exists_byte hin
      rw [if_pos hin, hc, Option.bind_some]
      split_ifs
      · exact ⟨_, rfl⟩
      · exact ⟨_, rfl⟩
      · exact ih (by omega)
    · exact ⟨ptr, if_neg hin⟩

lemma skipLabels_total (h : p.length ≤ ptr + fuel) :
    ∃ ptr', skipLabels p (fuel + 1) ptr = some ptr' := by
  induction fuel generalizing ptr with
  | zero => exact ⟨ptr, by rw [skipLabels, if_neg (by omega)]⟩
  | succ fuel ih =>
    rw [skipLabels]
    by_cases hin : ptr < p.length
    · obtain ⟨c, hc⟩ := exists_byte hin
      rw [if_pos hin, hc, Option.bind_some]
      split_ifs
      · exact ⟨_, rfl⟩
      · exact ih (by omega)
    · exact ⟨ptr, if_neg hin⟩

lemma skipZero_total (p : List UInt8) (ptr : ℕ) : ∃ ptr', skipZero p ptr = some ptr' := by
  rw [skipZero]
  by_cases hin : ptr < p.length
  · obtain ⟨c, hc⟩ := exists_byte hin
    rw [if_pos hin, hc]
    exact ⟨_, rfl⟩
  · exact ⟨ptr, if_neg hin⟩

lemma skipQuestions_total (n : ℕ) : ∃ ptr', skipQuestions p n ptr = some ptr' := by
  induction n generalizing ptr with
  | zero => exact ⟨ptr, rfl⟩
  | succ n ih =>
    obtain ⟨ptr₁, h₁⟩ := skipQuestionName_total (Nat.le_add_left p.length ptr)
    obtain ⟨ptr₂, h₂⟩ := skipZero_total p ptr₁
    rw [skipQuestions, h₁, Option.bind_some, h₂, Option.bind_some]
    exact ih

lemma skipAnswerName_total (h : ptr < p.length) : ∃ ptr', skipAnswerName p ptr = some ptr' := by
  obtain ⟨c, hc⟩ := exists_byte h
  obtain ⟨ptr₁, h₁⟩ := skipLabels_total (Nat.le_add_left p.length ptr)
  rw [skipAnswerName, hc, Option.bind_some]
  split_ifs
  · exact ⟨_, rfl⟩
  · rw [h₁, Option.bind_some]
    exact skipZero_total p ptr₁

/-- The loop over the answers reads ten bytes after a check for ten, and four after one for four. -/
lemma findAddress_total (n : ℕ) : ∃ found, findAddress p n ptr = some found := by
  induction n generalizing ptr with
  | zero => exact ⟨none, rfl⟩
  | succ n ih =>
    rw [findAddress]
    by_cases hin : p.length ≤ ptr
    · exact ⟨none, if_pos hin⟩
    obtain ⟨ptr₁, h₁⟩ := skipAnswerName_total (not_le.mp hin)
    rw [if_neg hin, h₁, Option.bind_some]
    by_cases hten : ptr₁ + 10 > p.length
    · exact ⟨none, if_pos hten⟩
    obtain ⟨type, htype⟩ := exists_readBe16 (show ptr₁ + 1 < p.length by omega)
    obtain ⟨rdlength, hrdlength⟩ := exists_readBe16 (show ptr₁ + 8 + 1 < p.length by omega)
    rw [if_neg hten, htype, Option.bind_some, hrdlength, Option.bind_some]
    by_cases hfound : type = dnsTypeA ∧ rdlength = 4 ∧ ptr₁ + 10 + 4 ≤ p.length
    · obtain ⟨ip, hip⟩ := exists_readIp (show ptr₁ + 10 + 3 < p.length by omega)
      rw [if_pos hfound, hip]
      exact ⟨_, rfl⟩
    · rw [if_neg hfound]
      exact ih

lemma dnsUdpCallback_total (d : Dns) (p : List UInt8) : ∃ d', dnsUdpCallback d p = some d' := by
  rw [dnsUdpCallback]
  by_cases hlen : p.length < dnsHdrSize
  · exact ⟨d, if_pos hlen⟩
  have hsize : 12 ≤ p.length := not_lt.mp hlen
  obtain ⟨id, hid⟩ := exists_readBe16 (show 0 + 1 < p.length by omega)
  obtain ⟨ancount, han⟩ := exists_readBe16 (show 6 + 1 < p.length by omega)
  obtain ⟨qdcount, hqd⟩ := exists_readBe16 (show 4 + 1 < p.length by omega)
  rw [if_neg hlen, hid, Option.bind_some]
  split_ifs with hother
  · exact ⟨d, rfl⟩
  rw [han, Option.bind_some, hqd, Option.bind_some]
  split_ifs
  · exact ⟨d, rfl⟩
  obtain ⟨ptr, hptr⟩ : ∃ ptr, skipQuestions p qdcount.toNat dnsHdrSize = some ptr :=
    skipQuestions_total _
  obtain ⟨found, hfound⟩ : ∃ found, findAddress p ancount.toNat ptr = some found :=
    findAddress_total _
  rw [hptr, Option.bind_some, hfound]
  exact ⟨_, rfl⟩

end Total

/-- A datagram whose length field exceeds the packet is dropped, so the payload lies in the packet. -/
lemma udpReceive_inside (s : Stack) (srcIp : UInt32) (packet : List UInt8) :
    (s.udpReceive srcIp packet).udpCalls = s.udpCalls ∨
      ∃ i srcPort data rest, packet = packet.take 8 ++ data ++ rest ∧
        data.length = (be16 packet 4).toNat - 8 ∧
        (s.udpReceive srcIp packet).udpCalls = s.udpCalls ++ [⟨i, srcIp, srcPort, data⟩] := by
  rw [Stack.udpReceive]
  by_cases hlen : packet.length < 8
  · rw [if_pos hlen]
    exact Or.inl rfl
  rw [if_neg hlen]
  by_cases hfield : (be16 packet 4).toNat > packet.length ∨ (be16 packet 4).toNat < 8
  · rw [if_pos hfield]
    exact Or.inl rfl
  rw [if_neg hfield]
  generalize (List.finRange maxUdpPorts).find? _ = found
  cases found with
  | none => exact Or.inl rfl
  | some i =>
    right
    refine ⟨i, be16 packet 0, (packet.drop 8).take ((be16 packet 4).toNat - 8),
      (packet.drop 8).drop ((be16 packet 4).toNat - 8), ?_, ?_, rfl⟩
    · rw [List.append_assoc, List.take_append_drop, List.take_append_drop]
    · rw [List.length_take, List.length_drop]
      omega

/-- **Reading a reply is safe**: for every payload `dns_udp_callback` ends, and it reads nothing outside
the payload; and the payload that `udp_receive` hands to it lies inside the packet. -/
theorem dns_safe (d : Dns) (p : List UInt8) (s : Stack) (srcIp : UInt32) (packet : List UInt8) :
    (∃ d', dnsUdpCallback d p = some d') ∧
      ((s.udpReceive srcIp packet).udpCalls = s.udpCalls ∨
        ∃ i srcPort data rest, packet = packet.take 8 ++ data ++ rest ∧
          data.length = (be16 packet 4).toNat - 8 ∧
          (s.udpReceive srcIp packet).udpCalls = s.udpCalls ++ [⟨i, srcIp, srcPort, data⟩]) :=
  ⟨dnsUdpCallback_total d p, udpReceive_inside s srcIp packet⟩

end Bangos.Net
