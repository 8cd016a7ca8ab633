import Bangos.Net.Transmit

/-!
# What the receiver of an IPv4 packet hands to its upper layers

`ipv4_receive` passes on every byte behind the header, and does not look at the total length in it.
A frame of less than 60 bytes has been padded by `ethernet_send`, so the payload arrives as it was
sent exactly when the frame needed no padding.
-/

namespace Bangos.Net

open ByteMem

/-! ## The header -/

@[simp] lemma length_ipv4Header (cfg : NetConfig) (id : UInt16) (dst : UInt32) (protocol : UInt8)
    (len : ℕ) : (ipv4Header cfg id dst protocol len).length = ipv4HdrSize := rfl

/-- The header carries a checksum that verifies. -/
lemma netChecksum_ipv4Header (cfg : NetConfig) (id : UInt16) (dst : UInt32) (protocol : UInt8)
    (len : ℕ) : netChecksum (ipv4Header cfg id dst protocol len) = 0 :=
  netChecksum_stored (p := ipv4HdrStart id protocol len) (q := ipv4HdrEnd cfg.localIp dst)
    ⟨5, rfl⟩ (show 10 + 8 ≤ 131070 by decide)

/-- **What a host that has the address makes of a packet**: all bytes behind the header go to the
handler of the protocol. -/
lemma ipv4Upcall_header {protocol : UInt8} {handler : IpHandler}
    (hh : ipHandler protocol = some handler) (cfg : NetConfig) (id : UInt16) (dst : UInt32) (len : ℕ)
    (rest : List UInt8) :
    ipv4Upcall dst (ipv4Header cfg id dst protocol len ++ rest) =
      some (handler, cfg.localIp, rest) := by
  have hlen := length_ipv4Header cfg id dst protocol len
  have hfirst : (ipv4Header cfg id dst protocol len ++ rest).getD 0 0 = 0x45 := rfl
  have hproto : (ipv4Header cfg id dst protocol len ++ rest).getD 9 0 = protocol := rfl
  have hsrc : le32 (ipv4Header cfg id dst protocol len ++ rest) 12 = cfg.localIp := by
    rw [le32_drop]
    exact le32_le32Bytes cfg.localIp (le32Bytes dst ++ rest)
  have hdst : le32 (ipv4Header cfg id dst protocol len ++ rest) 16 = dst := by
    rw [le32_drop]
    exact le32_le32Bytes dst rest
  have hihl : ((0x45 : UInt8) &&& 0x0F).toNat * 4 = ipv4HdrSize := by decide
  have htake : (ipv4Header cfg id dst protocol len ++ rest).take ipv4HdrSize =
      ipv4Header cfg id dst protocol len := by
    rw [← hlen, List.take_left]
  have hdrop : (ipv4Header cfg id dst protocol len ++ rest).drop ipv4HdrSize = rest := by
    rw [← hlen, List.drop_left]
  have hlong : ¬ (ipv4Header cfg id dst protocol len ++ rest).length < ipv4HdrSize := by
    rw [List.length_append, hlen]
    omega
  unfold ipv4Upcall
  dsimp only
  rw [hfirst, hproto, hsrc, hdst, hihl, htake, hdrop, if_neg hlong, if_neg (by decide),
    if_neg (by rw [not_or]; exact ⟨lt_irrefl _, hlong⟩), netChecksum_ipv4Header,
    if_neg (by simp), if_neg (by simp), hh]
  rfl

/-- The payload of a frame, with the padding behind it. -/
lemma frameUse_ethFrame_ipv4 (cfg : NetConfig) (mac : Mac) (packet : List UInt8) :
    frameUse (ethFrame cfg mac ethertypeIpv4 packet) =
      .ipv4 (packet ++ List.replicate (46 - packet.length) 0) := by
  have hhead : (mac.toList ++ cfg.mac.toList).length = 12 := by simp
  have hhead' : (mac.toList ++ cfg.mac.toList ++ be16Bytes ethertypeIpv4).length = ethHlen := by
    rw [List.length_append, hhead]
    rfl
  have hpad : 60 - (mac.toList ++ cfg.mac.toList ++ be16Bytes ethertypeIpv4 ++ packet).length =
      46 - packet.length := by
    rw [List.length_append, hhead', ethHlen]
    omega
  have hframe : ethFrame cfg mac ethertypeIpv4 packet = mac.toList ++ cfg.mac.toList ++
      be16Bytes ethertypeIpv4 ++ (packet ++ List.replicate (46 - packet.length) 0) := by
    rw [ethFrame, hpad, List.append_assoc _ packet]
  have htype : be16 (ethFrame cfg mac ethertypeIpv4 packet) 12 = ethertypeIpv4 := by
    rw [be16_drop, hframe, List.append_assoc, ← hhead, List.drop_left, be16_be16Bytes]
  have hdrop : (ethFrame cfg mac ethertypeIpv4 packet).drop ethHlen =
      packet ++ List.replicate (46 - packet.length) 0 := by
    rw [hframe, ← hhead', List.drop_left]
  unfold frameUse
  rw [htype, hdrop, if_neg, if_neg (by decide), if_pos rfl]
  rw [hframe, List.length_append, hhead']
  omega

/-- **What the destination makes of the frame.** -/
lemma ethernetUpcall_ethFrame {protocol : UInt8} {handler : IpHandler}
    (hh : ipHandler protocol = some handler) (cfg : NetConfig) (id : UInt16) (dst : UInt32)
    (mac : Mac) (payload : List UInt8) :
    ethernetUpcall dst (ethFrame cfg mac ethertypeIpv4
        (ipv4Header cfg id dst protocol payload.length ++ payload)) =
      some (handler, cfg.localIp, payload ++ List.replicate (26 - payload.length) 0) := by
  unfold ethernetUpcall
  rw [frameUse_ethFrame_ipv4, List.length_append, length_ipv4Header]
  dsimp only
  rw [List.append_assoc, ipv4Upcall_header hh, ipv4HdrSize, Nat.sub_add_eq]

namespace Stack

variable {s : Stack}

/-! ## The frame that is sent -/

/-- When no packet arrives, nothing is answered. -/
lemma quietWait_of_none (ip : UInt32) {n : ℕ} (h : ∀ p ∈ s.polls, p = none) :
    QuietWait ip n s := by
  induction n generalizing s with
  | zero => trivial
  | succ n ih =>
    have hquiet : pollAnswers s = false := by
      unfold pollAnswers
      rcases hp : s.polls with _ | ⟨_ | frame, ps⟩
      · rfl
      · rfl
      · have := h (some frame) (by rw [hp]; exact List.mem_cons_self)
        cases this
    refine ⟨hquiet, fun _ => ih fun p hp => ?_⟩
    unfold silentPoll netPoll at hp
    split_ifs at hp
    · exact h p hp
    · rcases hs : s.polls with _ | ⟨_ | frame, ps⟩ <;> rw [hs] at hp
      · cases hs ▸ hp
      · exact h p (by rw [hs]; exact List.mem_cons_of_mem _ hp)
      · have := h (some frame) (by rw [hs]; exact List.mem_cons_self)
        cases this

lemma quietResolve_of_none (ip : UInt32) (h : ∀ p ∈ s.polls, p = none) : QuietResolve s ip := by
  intro _ _
  refine quietWait_of_none ip fun p hp => h p ?_
  have hpolls : (s.arpRequest ip).polls = s.polls := by
    unfold arpRequest ethernetSend virtioNetSendPacket
    dsimp only
    split_ifs <;> rfl
  rwa [hpolls] at hp

/-- A call that succeeds has sent a frame with the packet it passed to `ethernet_send`. -/
lemma ipv4SendBody_frame (send : Send) {dst : UInt32} {protocol : UInt8} {payload : List UInt8}
    (h : (ipv4SendBody send s dst protocol payload).1 = true) :
    ∃ mac packet, (ipv4Handover send s dst protocol payload).1 = some (mac, packet) ∧
      (ipv4SendBody send s dst protocol payload).2.frames.getLast? =
        some (ethFrame (ipv4Handover send s dst protocol payload).2.cfg mac ethertypeIpv4 packet) := by
  unfold ipv4SendBody at h ⊢
  rcases hover : ipv4Handover send s dst protocol payload with ⟨_ | ⟨mac, packet⟩, s'⟩ <;>
    rw [hover] at h
  · cases h
  · refine ⟨mac, packet, rfl, ?_⟩
    dsimp only at h ⊢
    unfold ethernetSend virtioNetSendPacket at h ⊢
    split_ifs at h ⊢
    simp

/-- A call of `ipv4_send` that succeeds, with no packet arriving meanwhile, leaves the frame with its
packet as the last one sent. -/
lemma ipv4Send_frame {dst : UInt32} {protocol : UInt8} {payload : List UInt8}
    (hquiet : ∀ p ∈ s.polls, p = none) (hok : (ipv4Send s dst protocol payload).1 = true) :
    ∃ mac, (ipv4Send s dst protocol payload).2.frames.getLast? =
      some (ethFrame s.cfg mac ethertypeIpv4
        (ipv4Header s.cfg s.ipIdCounter dst protocol payload.length ++ payload)) := by
  have hres := quietResolve_of_none (s := s.buildPacket dst protocol payload) (nextHop s.cfg dst)
    hquiet
  obtain ⟨mac, packet, hover, hlast⟩ := ipv4SendBody_frame (ipv4SendDepth s.polls.length) hok
  have hcfg : (ipv4Handover (ipv4SendDepth s.polls.length) s dst protocol payload).2.cfg = s.cfg := by
    unfold ipv4Handover
    split_ifs
    · rfl
    · exact (arpResolve_sameBuffer hres).cfg
  rw [hcfg, handover_packet _ hres hover] at hlast
  exact ⟨mac, hlast⟩

/-- **IPv4 over Ethernet delivers the payload exactly when it has at least 26 bytes**: with no packet
arriving during a call of `ipv4_send` that succeeds, the handler of the protocol on the host with
the destination's address is called with the sender's address and the payload. -/
theorem ipv4_delivers_iff (s : Stack) (dst : UInt32) (protocol : UInt8) (payload : List UInt8)
    (handler : IpHandler) (hh : ipHandler protocol = some handler)
    (hquiet : ∀ p ∈ s.polls, p = none) (hok : (ipv4Send s dst protocol payload).1 = true) :
    (∃ frame, (ipv4Send s dst protocol payload).2.frames.getLast? = some frame ∧
      ethernetUpcall dst frame = some (handler, s.cfg.localIp, payload)) ↔ 26 ≤ payload.length := by
  obtain ⟨mac, hlast⟩ := ipv4Send_frame hquiet hok
  have hup := ethernetUpcall_ethFrame hh s.cfg s.ipIdCounter dst mac payload
  constructor
  · rintro ⟨frame, hframe, hcall⟩
    obtain rfl := Option.some.inj (hlast.symm.trans hframe)
    rw [hup] at hcall
    have hpay := congrArg List.length (Prod.mk.inj (Prod.mk.inj (Option.some.inj hcall)).2).2
    simp only [List.length_append, List.length_replicate] at hpay
    omega
  · intro hlen
    refine ⟨_, hlast, ?_⟩
    rw [hup, Nat.sub_eq_zero_of_le hlen, List.replicate_zero, List.append_nil]

theorem ipv4_delivers_iff_long :
    (∃ frame, (ipv4Send (initial []) defaultGatewayIp ipProtoTcp (List.replicate 26 1)).2.frames.getLast? =
        some frame ∧
      ethernetUpcall defaultGatewayIp frame = some (.tcp, defaultLocalIp, List.replicate 26 1)) ↔
      26 ≤ (List.replicate 26 (1 : UInt8)).length :=
  ipv4_delivers_iff (initial []) defaultGatewayIp ipProtoTcp (List.replicate 26 1) .tcp rfl
    (by simp [initial]) (by decide +kernel)

/-- **A short payload arrives padded.** -/
theorem short_payload_padded :
    (ipv4Send (initial []) defaultGatewayIp ipProtoUdp [1, 2, 3]).1 = true ∧
      (ipv4Send (initial []) defaultGatewayIp ipProtoUdp [1, 2, 3]).2.frames.getLast?.bind
          (ethernetUpcall defaultGatewayIp) =
        some (.udp, defaultLocalIp, [1, 2, 3] ++ List.replicate 23 0) := by
  constructor <;> decide +kernel

end Stack

end Bangos.Net
