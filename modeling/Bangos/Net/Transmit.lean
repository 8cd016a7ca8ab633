import Bangos.Net.Stack

/-!
# What `ipv4_send` puts on the wire

The packet is built in a static buffer before the next hop is resolved.  As long as no packet that
arrives meanwhile makes the stack send an IPv4 packet of its own, the buffer still holds this
call's packet when it is passed on.  The receiver takes all bytes behind the header for the
payload, the padding of a short frame included.
-/

namespace Bangos.Net

open ByteMem

namespace Stack

/-! ## Packets that are answered -/

/-- `tcp_receive` answers the segment. -/
def tcpAnswers (t : Tcp) (srcIp : UInt32) (p : List UInt8) : Bool :=
  match tcpTarget t srcIp p with
  | none => false
  | some i =>
    let flags := (tcpHdr p).flags
    if flags &&& tcpFlagRst ≠ 0 then false
    else match (t.sockets i).state with
      | .synSent => flags &&& (tcpFlagSyn ||| tcpFlagAck) = tcpFlagSyn ||| tcpFlagAck
      | .established => 0 < (tcpData p).length ∨ flags &&& tcpFlagFin ≠ 0
      | .finWait1 => flags &&& tcpFlagAck ≠ 0 ∧ flags &&& tcpFlagFin ≠ 0
      | .finWait2 => flags &&& tcpFlagFin ≠ 0
      | _ => false

/-- The frame makes its handler call `ipv4_send`: it is an echo request for this host, or a segment
that is answered. -/
def answersFrame (s : Stack) (frame : List UInt8) : Bool :=
  match ethernetUpcall s.cfg.localIp frame with
  | some (.icmp, _, q) => 8 ≤ q.length ∧ q.getD 0 0 = 8
  | some (.tcp, src, q) => tcpAnswers s.tcp src q
  | _ => false

/-- The next `net_poll` finds a frame that makes its handler call `ipv4_send`. -/
def pollAnswers (s : Stack) : Bool :=
  match s.polls with
  | some frame :: _ => s.present && answersFrame s frame
  | _ => false

/-- A `net_poll` that sends no IPv4 packet. -/
def silentPoll (s : Stack) : Stack := netPoll (fun s _ _ _ => (false, s)) s

/-- No poll of the loop of `arp_resolve`, with `n` turns left, finds a frame that makes its handler
call `ipv4_send`. -/
def QuietWait (ip : UInt32) : ℕ → Stack → Prop
  | 0, _ => True
  | n + 1, s => pollAnswers s = false ∧
      (arpLookup (silentPoll s).arpCache ip = none → QuietWait ip n (silentPoll s))

/-- The same for a call of `arp_resolve`, which polls only when the address is unknown. -/
def QuietResolve (s : Stack) (ip : UInt32) : Prop :=
  ip ≠ broadcastIp → arpLookup s.arpCache ip = none → QuietWait ip 1000 (s.arpRequest ip)

section

variable {s s' : Stack} {send : Send} {ip : UInt32} {frame : List UInt8}

/-- What the packets that are not answered leave alone. -/
structure SameBuffer (s s' : Stack) : Prop where
  cfg : s'.cfg = s.cfg
  buffer : s'.ipv4TxBuffer = s.ipv4TxBuffer

lemma SameBuffer.refl (s : Stack) : SameBuffer s s := ⟨rfl, rfl⟩

lemma SameBuffer.trans {s'' : Stack} (h : SameBuffer s s') (h' : SameBuffer s' s'') :
    SameBuffer s s'' :=
  ⟨h'.cfg.trans h.cfg, h'.buffer.trans h.buffer⟩

lemma ethernetSend_sameBuffer (s : Stack) (dst : Mac) (ethertype : UInt16) (payload : List UInt8) :
    SameBuffer s (s.ethernetSend dst ethertype payload).2 := by
  unfold ethernetSend virtioNetSendPacket
  split_ifs <;> exact ⟨rfl, rfl⟩

lemma arpHandlePacket_sameBuffer (s : Stack) (p : List UInt8) :
    SameBuffer s (s.arpHandlePacket p) := by
  unfold arpHandlePacket
  dsimp only
  split_ifs
  · exact SameBuffer.refl s
  · exact SameBuffer.refl s
  · exact ⟨(ethernetSend_sameBuffer ..).cfg, (ethernetSend_sameBuffer ..).buffer⟩
  · exact ⟨rfl, rfl⟩

lemma udpReceive_sameBuffer (s : Stack) (srcIp : UInt32) (p : List UInt8) :
    SameBuffer s (s.udpReceive srcIp p) := by
  unfold udpReceive
  dsimp only
  split_ifs
  · exact SameBuffer.refl s
  · exact SameBuffer.refl s
  · split <;> exact ⟨rfl, rfl⟩

/-- A segment that is not answered changes sockets only, and no `ipv4_send` is called. -/
lemma tcpReceive_unanswered {srcIp : UInt32} {p : List UInt8}
    (h : tcpAnswers s.tcp srcIp p = false) (send' : Send) :
    tcpReceive send s srcIp p = tcpReceive send' s srcIp p ∧
      SameBuffer s (tcpReceive send s srcIp p) := by
  unfold tcpAnswers at h
  unfold tcpReceive
  cases ht : tcpTarget s.tcp srcIp p with
  | none => exact ⟨rfl, SameBuffer.refl s⟩
  | some i =>
    rw [ht] at h
    dsimp only at h ⊢
    unfold tcpReceiveState
    dsimp only
    by_cases hr : (tcpHdr p).flags &&& tcpFlagRst ≠ 0
    · rw [if_pos hr, if_pos hr]
      exact ⟨rfl, rfl, rfl⟩
    rw [if_neg hr] at h
    rw [if_neg hr, if_neg hr]
    cases hst : (s.tcp.sockets i).state with
    | synSent =>
      rw [hst] at h
      dsimp only at h ⊢
      rw [if_neg (by simpa using h), if_neg (by simpa using h)]
      exact ⟨rfl, SameBuffer.refl s⟩
    | established =>
      rw [hst] at h
      simp only [decide_eq_false_iff_not, not_or] at h
      simp only [tcpReceiveFin, tcpReceiveData, gt_iff_lt, if_neg h.1, if_neg h.2, true_and]
      exact SameBuffer.refl s
    | finWait1 =>
      rw [hst] at h
      simp only [decide_eq_false_iff_not, not_and] at h
      dsimp only
      by_cases hack : (tcpHdr p).flags &&& tcpFlagAck ≠ 0
      · rw [if_pos hack, if_pos hack, if_neg (h hack), if_neg (h hack)]
        exact ⟨rfl, rfl, rfl⟩
      · rw [if_neg hack, if_neg hack]
        exact ⟨rfl, SameBuffer.refl s⟩
    | finWait2 =>
      rw [hst] at h
      simp only [decide_eq_false_iff_not] at h
      dsimp only
      rw [if_neg h, if_neg h]
      exact ⟨rfl, SameBuffer.refl s⟩
    | lastAck =>
      dsimp only
      split_ifs
      · exact ⟨rfl, rfl, rfl⟩
      · exact ⟨rfl, SameBuffer.refl s⟩
    | closed | listen | synReceived | closeWait | closing | timeWait =>
      exact ⟨rfl, SameBuffer.refl s⟩

/-- A frame that is not answered leaves the buffer alone, and no `ipv4_send` is called. -/
lemma ethernetReceive_unanswered (h : answersFrame s frame = false) (send send' : Send) :
    ethernetReceive send s frame = ethernetReceive send' s frame ∧
      SameBuffer s (ethernetReceive send s frame) := by
  unfold answersFrame ethernetUpcall at h
  unfold ethernetReceive
  cases hu : frameUse frame with
  | drop => exact ⟨rfl, SameBuffer.refl s⟩
  | arp p => exact ⟨rfl, arpHandlePacket_sameBuffer s p⟩
  | ipv4 p =>
    rw [hu] at h
    dsimp only at h ⊢
    unfold ipv4Receive
    rcases hup : ipv4Upcall s.cfg.localIp p with _ | ⟨_ | _ | _, src, q⟩ <;> rw [hup] at h
    · exact ⟨rfl, SameBuffer.refl s⟩
    · -- of the packets of ICMP only the requests are answered
      simp only [decide_eq_false_iff_not, not_and] at h
      dsimp only
      unfold icmpReceive
      by_cases hlen : q.length < 8
      · simp only [if_pos hlen, true_and]
        exact SameBuffer.refl s
      · simp only [if_neg hlen, if_neg (h (Nat.le_of_not_lt hlen)), true_and]
        split_ifs
        · exact ⟨rfl, rfl⟩
        · exact SameBuffer.refl s
    · exact ⟨rfl, udpReceive_sameBuffer s src q⟩
    · exact tcpReceive_unanswered h send'

lemma netPoll_unanswered (h : pollAnswers s = false) (send : Send) :
    netPoll send s = silentPoll s ∧ SameBuffer s (netPoll send s) := by
  unfold pollAnswers at h
  unfold silentPoll netPoll
  by_cases hp : s.present = true
  · rw [if_neg (by simp [hp]), if_neg (by simp [hp])]
    rcases hpolls : s.polls with _ | ⟨_ | frame, ps⟩
    · exact ⟨rfl, SameBuffer.refl s⟩
    · exact ⟨rfl, rfl, rfl⟩
    · dsimp only
      rw [hpolls] at h
      simp only [hp, Bool.true_and] at h
      by_cases hlen : frame.length > 0
      · rw [if_pos hlen, if_pos hlen]
        have hframe : answersFrame { s with polls := ps } frame = false := h
        obtain ⟨he, hb⟩ := ethernetReceive_unanswered hframe send
          (fun s _ _ _ => (false, s))
        exact ⟨he, hb.cfg, hb.buffer⟩
      · rw [if_neg hlen, if_neg hlen]
        exact ⟨rfl, rfl, rfl⟩
  · rw [if_pos (by simp [hp]), if_pos (by simp [hp])]
    exact ⟨rfl, SameBuffer.refl s⟩

/-! ## Waiting for an address -/

lemma arpWait_sameBuffer {n : ℕ} (h : QuietWait ip n s) : SameBuffer s (arpWait send ip n s).2 := by
  induction n generalizing s with
  | zero => exact SameBuffer.refl s
  | succ n ih =>
    obtain ⟨hquiet, hrest⟩ := h
    obtain ⟨he, hb⟩ := netPoll_unanswered hquiet send
    rw [arpWait]
    rw [he] at hb ⊢
    cases hl : arpLookup (silentPoll s).arpCache ip with
    | some mac => exact hb
    | none => exact hb.trans (ih (hrest hl))

lemma arpResolve_sameBuffer (h : QuietResolve s ip) : SameBuffer s (arpResolve send s ip).2 := by
  unfold arpResolve
  split_ifs with hbc
  · exact SameBuffer.refl s
  · split
    · exact SameBuffer.refl s
    · rename_i hl
      exact (ethernetSend_sameBuffer ..).trans (arpWait_sameBuffer (h hbc hl))

lemma load_buildPacket (s : Stack) (dst : UInt32) (protocol : UInt8) (payload : List UInt8) :
    load (s.buildPacket dst protocol payload).ipv4TxBuffer 0 (ipv4HdrSize + payload.length) =
      ipv4Header s.cfg s.ipIdCounter dst protocol payload.length ++ payload := by
  have hlen : (ipv4Header s.cfg s.ipIdCounter dst protocol payload.length).length = ipv4HdrSize :=
    rfl
  rw [load_add, buildPacket, Nat.zero_add, load_store_self, load_store_of_disjoint (by omega),
    ← hlen, load_store_self]

/-- **The packet passed to `ethernet_send` is the one this call built**, whatever the calls nested
in it would do, as long as no frame that arrives while it waits makes the stack send an IPv4
packet. -/
lemma handover_packet (send : Send) {dst : UInt32} {protocol : UInt8} {payload packet : List UInt8}
    {mac : Mac} (h : QuietResolve (s.buildPacket dst protocol payload) (nextHop s.cfg dst))
    (hover : (ipv4Handover send s dst protocol payload).1 = some (mac, packet)) :
    packet = ipv4Header s.cfg s.ipIdCounter dst protocol payload.length ++ payload := by
  unfold ipv4Handover at hover
  split_ifs at hover
  obtain ⟨_, -, hpair⟩ := Option.map_eq_some_iff.mp hover
  rw [← (Prod.mk.inj hpair).2, (arpResolve_sameBuffer h).buffer, load_buildPacket]

/-- **Transmission is not corrupted by unanswered packets**: whatever `ipv4_send` passes to
`ethernet_send` is the header built for this call, followed by its payload, when no frame that
`net_poll` delivers while `arp_resolve` waits in it makes the stack send an IPv4 packet. -/
theorem ipv4Send_packet_intact (s : Stack) (dst : UInt32) (protocol : UInt8)
    (payload packet : List UInt8) (mac : Mac) (depth : ℕ)
    (h : QuietResolve (s.buildPacket dst protocol payload) (nextHop s.cfg dst))
    (hover : (ipv4Handover (ipv4SendDepth depth) s dst protocol payload).1 = some (mac, packet)) :
    packet = ipv4Header s.cfg s.ipIdCounter dst protocol payload.length ++ payload :=
  handover_packet (ipv4SendDepth depth) h hover

/-! ### A host with two packets to come -/

/-- A frame from another host. -/
def frameTo (cfg : NetConfig) (src : Mac) (ethertype : UInt16) (payload : List UInt8) : List UInt8 :=
  ethFrame { cfg with mac := src } cfg.mac ethertype payload

/-- The stack after `net_init`, with frames to come. -/
def initial (polls : List (Option (List UInt8))) : Stack where
  cfg := ⟨defaultLocalIp, defaultGatewayIp, defaultNetmask, defaultDnsIp,
    #v[0x52, 0x54, 0x00, 0x12, 0x34, 0x56]⟩
  present := true
  arpCache := arpInit
  ipIdCounter := 1
  ipv4TxBuffer := fun _ => 0
  pingExpectedId := 0
  pingExpectedSeq := 0
  pingReplyReceived := false
  udpBindings := fun _ => ⟨0, false⟩
  udpCalls := []
  tcp := tcpInit defaultLocalIp fun _ => true
  polls := polls
  frames := []

/-- The answer of the name server to a question for its hardware address. -/
def dnsArpReply : List UInt8 :=
  frameTo (initial []).cfg #v[0x52, 0x55, 0x0A, 0x00, 0x02, 0x03] ethertypeArp
    (ArpHdr.bytes ⟨arpHtypeEthernet, arpPtypeIpv4, 6, 4, arpOpReply,
      #v[0x52, 0x55, 0x0A, 0x00, 0x02, 0x03], defaultDnsIp, (initial []).cfg.mac, defaultLocalIp⟩)

/-- An echo request of the gateway. -/
def gatewayPing : List UInt8 :=
  frameTo (initial []).cfg qemuGatewayMac ethertypeIpv4
    (ipv4Header { (initial []).cfg with localIp := defaultGatewayIp } 7 defaultLocalIp ipProtoIcmp 8 ++
      [8, 0, 0xF7, 0xFF, 0, 0, 0, 0])

theorem ipv4Send_packet_intact_resolved :
    ((ipv4Handover (ipv4SendDepth 1) (initial [some dnsArpReply]) defaultDnsIp ipProtoUdp
      [1, 2, 3]).1.map Prod.snd) =
      some (ipv4Header (initial []).cfg 1 defaultDnsIp ipProtoUdp 3 ++ [1, 2, 3]) := by
  have hquiet : QuietResolve ((initial [some dnsArpReply]).buildPacket defaultDnsIp ipProtoUdp
      [1, 2, 3]) (nextHop (initial [some dnsArpReply]).cfg defaultDnsIp) := by
    intro _ _
    refine ⟨by decide +kernel, fun hnone => ?_⟩
    exact absurd hnone (by decide +kernel)
  have hsome : ∃ mac packet, (ipv4Handover (ipv4SendDepth 1) (initial [some dnsArpReply])
      defaultDnsIp ipProtoUdp [1, 2, 3]).1 = some (mac, packet) := by
    have : (ipv4Handover (ipv4SendDepth 1) (initial [some dnsArpReply])
      defaultDnsIp ipProtoUdp [1, 2, 3]).1.isSome = true := by decide +kernel
    obtain ⟨⟨mac, packet⟩, h⟩ := Option.isSome_iff_exists.mp this
    exact ⟨mac, packet, h⟩
  obtain ⟨mac, packet, hover⟩ := hsome
  rw [hover, Option.map_some, ipv4Send_packet_intact _ _ _ _ _ mac 1 hquiet hover]
  rfl

/-- What the stack answers; the padding of the request counts as its data. -/
def gatewayPong : List UInt8 :=
  ipv4Header (initial []).cfg 2 defaultGatewayIp ipProtoIcmp 26 ++
    echoReply ([8, 0, 0xF7, 0xFF, 0, 0, 0, 0] ++ List.replicate 18 0)

/-- **A ping corrupts the packet**: the gateway's echo request arrives while `ipv4_send` waits for
the hardware address of the name server, and what is passed on in the end is the start of the echo
reply. -/
theorem ping_corrupts_packet :
    ((ipv4Handover (ipv4SendDepth 2) (initial [some gatewayPing, some dnsArpReply]) defaultDnsIp
      ipProtoUdp [1, 2, 3]).1.map Prod.snd) = some (gatewayPong.take 23) ∧
    gatewayPong.take 23 ≠ ipv4Header (initial []).cfg 1 defaultDnsIp ipProtoUdp 3 ++ [1, 2, 3] := by
  constructor <;> decide +kernel

end

end Stack

end Bangos.Net
