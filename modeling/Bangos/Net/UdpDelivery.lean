import Bangos.Net.Delivery

/-!
# UDP from one host to another (`kernel/net/udp.c`)

`udp_send` puts eight bytes in front of the payload, `ipv4_send` twenty, `ethernet_send` fourteen, and
a frame of less than 60 bytes is padded.  The receiver passes everything behind the IPv4 header to
`udp_receive`, padding included, and it is the length field of the UDP header that ends the payload
there.  So, unlike the payload of an IPv4 packet, that of a datagram arrives as it was sent, however
short it is.

## Main result

* `udp_round_trip`: the callback bound to the port is called once, with the payload.
-/

namespace Bangos.Net

open ByteMem

/-- `sizeof(udp_hdr_t)`. -/
def udpHdrSize : ℕ := 8

/-- `sizeof(udp_tx_buffer)`. -/
def udpTxBufferSize : ℕ := 2048

/-- The datagram that `udp_send` builds; its checksum is left 0. -/
def udpBytes (srcPort dstPort : UInt16) (payload : List UInt8) : List UInt8 :=
  be16Bytes srcPort ++ be16Bytes dstPort ++ be16Bytes (UInt16.ofNat (udpHdrSize + payload.length)) ++
    [0, 0] ++ payload

namespace Stack

/-- `udp_send`.  A payload is a buffer in memory, so that `8 + len` does not wrap. -/
def udpSend (s : Stack) (dst : UInt32) (srcPort dstPort : UInt16) (payload : List UInt8) :
    Bool × Stack :=
  if udpHdrSize + payload.length > udpTxBufferSize then (false, s)
  else ipv4Send s dst ipProtoUdp (udpBytes srcPort dstPort payload)

/-- The binding that `udp_receive` finds for a port. -/
def boundTo (s : Stack) (port : UInt16) : Option (Fin maxUdpPorts) :=
  (List.finRange maxUdpPorts).find? fun i =>
    (s.udpBindings i).inUse && (s.udpBindings i).port == port

section

variable {s r : Stack} {srcPort dstPort : UInt16} {payload : List UInt8}

lemma length_udpBytes : (udpBytes srcPort dstPort payload).length = udpHdrSize + payload.length := by
  simp [udpBytes, be16Bytes, udpHdrSize]
  omega

/-- **What `udp_receive` makes of a datagram**, whatever lies behind it. -/
lemma udpReceive_udpBytes {i : Fin maxUdpPorts} (hi : r.boundTo dstPort = some i)
    (hlen : udpHdrSize + payload.length < 65536) (srcIp : UInt32) (pad : List UInt8) :
    r.udpReceive srcIp (udpBytes srcPort dstPort payload ++ pad) =
      { r with udpCalls := r.udpCalls ++ [⟨i, srcIp, srcPort, payload⟩] } := by
  have hsrc : be16 (udpBytes srcPort dstPort payload ++ pad) 0 = srcPort := be16_be16Bytes srcPort _
  have hdst : be16 (udpBytes srcPort dstPort payload ++ pad) 2 = dstPort := by
    rw [be16_drop]
    exact be16_be16Bytes dstPort _
  have hfield : (be16 (udpBytes srcPort dstPort payload ++ pad) 4).toNat =
      udpHdrSize + payload.length := by
    rw [be16_drop]
    refine (congrArg UInt16.toNat (be16_be16Bytes _ ([0, 0] ++ payload ++ pad))).trans ?_
    rw [UInt16.toNat_ofNat', Nat.mod_eq_of_lt hlen]
  have htotal : (udpBytes srcPort dstPort payload ++ pad).length =
      udpHdrSize + payload.length + pad.length := by
    rw [List.length_append, length_udpBytes]
  have hdata : ((udpBytes srcPort dstPort payload ++ pad).drop 8).take
      (udpHdrSize + payload.length - 8) = payload := by
    have hdrop : (udpBytes srcPort dstPort payload ++ pad).drop 8 = payload ++ pad := rfl
    rw [hdrop, udpHdrSize, Nat.add_sub_cancel_left, List.take_left]
  unfold boundTo at hi
  unfold udpReceive
  dsimp only
  rw [hsrc, hdst, hfield, htotal, hdata, hi, if_neg (by unfold udpHdrSize; omega),
    if_neg (by unfold udpHdrSize; omega)]

/-- **UDP delivers every datagram it sends**: the frame that a successful `udp_send` leaves, with no
packet arriving during the call, makes a host with the destination's address call the callback of
the first binding of the port, once, with the sender's address, the source port and the payload. -/
theorem udp_round_trip (s r : Stack) (send : Send) (dst : UInt32) (srcPort dstPort : UInt16)
    (payload : List UInt8) (i : Fin maxUdpPorts) (hquiet : ∀ p ∈ s.polls, p = none)
    (hok : (s.udpSend dst srcPort dstPort payload).1 = true) (hip : r.cfg.localIp = dst)
    (hi : r.boundTo dstPort = some i) :
    ∃ frame, (s.udpSend dst srcPort dstPort payload).2.frames.getLast? = some frame ∧
      ethernetReceive send r frame =
        { r with udpCalls := r.udpCalls ++ [⟨i, s.cfg.localIp, srcPort, payload⟩] } := by
  unfold udpSend at hok ⊢
  split_ifs at hok ⊢ with hbig
  have hlen : udpHdrSize + payload.length < 65536 := by
    unfold udpTxBufferSize at hbig
    omega
  obtain ⟨mac, hframe⟩ := ipv4Send_frame hquiet hok
  refine ⟨_, hframe, ?_⟩
  unfold ethernetReceive
  rw [frameUse_ethFrame_ipv4]
  dsimp only
  unfold ipv4Receive
  rw [List.append_assoc, hip, ipv4Upcall_header (show ipHandler ipProtoUdp = some .udp from rfl)]
  exact udpReceive_udpBytes hi hlen s.cfg.localIp _

/-- A host with the address of the gateway and a binding for port 53. -/
def nameServer : Stack :=
  { initial [] with
    cfg := { (initial []).cfg with localIp := defaultGatewayIp }
    udpBindings := fun i => ⟨if i = 3 then 53 else 0, decide (i = 3)⟩ }

/-- A datagram of three bytes, in a frame with 15 bytes of padding. -/
theorem udp_round_trip_short :
    ∃ frame, ((initial []).udpSend defaultGatewayIp 4000 53 [1, 2, 3]).2.frames.getLast? =
        some frame ∧
      ethernetReceive ipv4Send nameServer frame =
        { nameServer with
          udpCalls := nameServer.udpCalls ++ [⟨3, defaultLocalIp, 4000, [1, 2, 3]⟩] } :=
  udp_round_trip (initial []) nameServer ipv4Send defaultGatewayIp 4000 53 [1, 2, 3] 3
    (by simp [initial]) (by decide +kernel) rfl (by decide +kernel)

end

end Stack

end Bangos.Net
