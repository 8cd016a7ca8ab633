import Bangos.Lib.ByteMem
import Bangos.Net.Packet

/-!
# The network stack (`kernel/net/{net,ethernet,arp,ipv4,icmp,udp,tcp}.c`)

`ipv4_send` may have to wait for an address resolution; while it waits it polls the network card, and
the handlers of the packets that arrive may call `ipv4_send` again, over the same static buffer.  The
handlers below take the inner `ipv4_send` as an argument, and `Stack.ipv4Send` ties the knot: every
nested call has taken a packet from the card, so the depth is bounded by the number of polls that
the environment provides.
-/

namespace Bangos.Net

open ByteMem

/-- `MAX_UDP_PORTS`. -/
abbrev maxUdpPorts : ℕ := 16

/-- `udp_binding_t`; the callback of a binding is known by its index. -/
structure UdpBinding where
  port : UInt16
  inUse : Bool

/-- A call of the callback of a binding. -/
structure UdpCall where
  binding : Fin maxUdpPorts
  srcIp : UInt32
  srcPort : UInt16
  data : List UInt8
deriving DecidableEq

/-- The state of the stack. -/
structure Stack where
  cfg : NetConfig
  /-- `virtio_net_is_present()`. -/
  present : Bool
  arpCache : ArpCache
  ipIdCounter : UInt16
  ipv4TxBuffer : ℕ → UInt8
  pingExpectedId : UInt16
  pingExpectedSeq : UInt16
  pingReplyReceived : Bool
  udpBindings : Fin maxUdpPorts → UdpBinding
  /-- The calls of callbacks so far. -/
  udpCalls : List UdpCall
  /-- The TCP layer; its `sent` lists the segments handed to `ipv4_send`. -/
  tcp : Tcp
  /-- What the next calls of `virtio_net_poll_packet` find; nothing after the end of the list. -/
  polls : List (Option (List UInt8))
  /-- The frames handed to `virtio_net_send_packet` so far. -/
  frames : List (List UInt8)

/-- The type of `ipv4_send(dst_ip, protocol, payload)`; the result says whether it was not negative. -/
abbrev Send := Stack → UInt32 → UInt8 → List UInt8 → Bool × Stack

namespace Stack

/-! ## Ethernet -/

/-- `virtio_net_send_packet`, as far as the stack sees it. -/
def virtioNetSendPacket (s : Stack) (data : List UInt8) : Bool × Stack :=
  if !s.present ∨ data.length = 0 ∨ data.length > virtioNetMaxPktSize then (false, s)
  else (true, { s with frames := s.frames ++ [data] })

/-- `ethernet_send`. -/
def ethernetSend (s : Stack) (dst : Mac) (ethertype : UInt16) (payload : List UInt8) :
    Bool × Stack :=
  if payload.length = 0 ∨ ethHlen + payload.length > txBufferSize then (false, s)
  else s.virtioNetSendPacket (ethFrame s.cfg dst ethertype payload)

/-! ## ARP -/

/-- `arp_request`. -/
def arpRequest (s : Stack) (targetIp : UInt32) : Stack :=
  let arp : ArpHdr :=
    { htype := arpHtypeEthernet, ptype := arpPtypeIpv4, hlen := 6, plen := 4, opcode := arpOpRequest
      srcMac := s.cfg.mac, srcIp := s.cfg.localIp, dstMac := Vector.replicate 6 0
      dstIp := targetIp }
  (s.ethernetSend broadcastMac ethertypeArp arp.bytes).2

/-- `arp_handle_packet`. -/
def arpHandlePacket (s : Stack) (p : List UInt8) : Stack :=
  let arp := arpHdr p
  if p.length < arpHdrSize then s
  else if arp.htype ≠ arpHtypeEthernet ∨ arp.ptype ≠ arpPtypeIpv4 then s
  else
    let s := { s with arpCache := arpInsertCache s.arpCache arp.srcIp arp.srcMac }
    if arp.opcode = arpOpRequest ∧ arp.dstIp = s.cfg.localIp then
      let reply : ArpHdr :=
        { htype := arpHtypeEthernet, ptype := arpPtypeIpv4, hlen := 6, plen := 4
          opcode := arpOpReply, srcMac := s.cfg.mac, srcIp := s.cfg.localIp
          dstMac := arp.srcMac, dstIp := arp.srcIp }
      (s.ethernetSend arp.srcMac ethertypeArp reply.bytes).2
    else s

/-! ## ICMP -/

/-- The echo reply to a request: type, code and checksum are replaced. -/
def echoReply (p : List UInt8) : List UInt8 :=
  let rest := (p.take 128).drop 4
  [0, 0] ++ le16Bytes (netChecksum ([0, 0] ++ [0, 0] ++ rest)) ++ rest

/-- `icmp_receive`. -/
def icmpReceive (send : Send) (s : Stack) (srcIp : UInt32) (p : List UInt8) : Stack :=
  if p.length < 8 then s
  else if p.getD 0 0 = 8 then (send s srcIp ipProtoIcmp (echoReply p)).2
  else if p.getD 0 0 = 0 ∧ be16 p 4 = s.pingExpectedId ∧ be16 p 6 = s.pingExpectedSeq then
    { s with pingReplyReceived := true }
  else s

/-! ## UDP -/

/-- `udp_receive`. -/
def udpReceive (s : Stack) (srcIp : UInt32) (p : List UInt8) : Stack :=
  let udpLen := (be16 p 4).toNat
  if p.length < 8 then s
  else if udpLen > p.length ∨ udpLen < 8 then s
  else match (List.finRange maxUdpPorts).find? fun i =>
      (s.udpBindings i).inUse && (s.udpBindings i).port == be16 p 2 with
    | none => s
    | some i =>
      { s with udpCalls := s.udpCalls ++ [⟨i, srcIp, be16 p 0, (p.drop 8).take (udpLen - 8)⟩] }

/-! ## TCP -/

/-- Write one socket. -/
def setSocket (s : Stack) (i : Fin tcpMaxSockets) (sock : TcpSocket) : Stack :=
  { s with tcp := s.tcp.set i sock }

/-- The header of a segment up to the checksum. -/
def tcpHdrStart (seg : TcpSegment) : List UInt8 :=
  be16Bytes seg.srcPort ++ be16Bytes seg.dstPort ++ be32Bytes seg.seqNum ++ be32Bytes seg.ackNum ++
    [0x50, seg.flags] ++ be16Bytes seg.windowSize

/-- The pseudo header over which `tcp_compute_checksum` extends the checksum. -/
def tcpPseudoHdr (src dst : UInt32) (len : ℕ) : List UInt8 :=
  le32Bytes src ++ le32Bytes dst ++ [0, ipProtoTcp] ++ be16Bytes (UInt16.ofNat len)

/-- The bytes of a segment, sent from the address `src`. -/
def tcpBytes (src : UInt32) (seg : TcpSegment) : List UInt8 :=
  let rest := [0, 0] ++ seg.payload
  let len := tcpHdrSize + seg.payload.length
  tcpHdrStart seg ++ le16Bytes (netChecksum (tcpPseudoHdr src seg.dstIp len ++ tcpHdrStart seg ++
    [0, 0] ++ rest)) ++ rest

/-- `tcp_send_segment`. -/
def tcpSendSegment (send : Send) (s : Stack) (i : Fin tcpMaxSockets) (flags : UInt8)
    (payload : List UInt8) : Bool × Stack :=
  let sock := s.tcp.sockets i
  if tcpHdrSize + payload.length > tcpTxBufferSize then (false, s)
  else
    let seg : TcpSegment :=
      { dstIp := sock.remoteIp
        srcPort := sock.localPort
        dstPort := sock.remotePort
        seqNum := sock.seqNum
        ackNum := sock.ackNum
        flags := flags
        windowSize := UInt16.ofNat (tcpRxBufSize - sock.rx.len)
        payload := payload }
    let s := { s with tcp := { s.tcp with sent := s.tcp.sent ++ [seg] } }
    let r := send s sock.remoteIp ipProtoTcp (tcpBytes sock.localIp seg)
    if r.1 then
      let bump : UInt32 := if flags &&& (tcpFlagSyn ||| tcpFlagFin) ≠ 0 then 1 else 0
      let sock := r.2.tcp.sockets i
      (true, r.2.setSocket i { sock with seqNum := sock.seqNum + bump + UInt32.ofNat payload.length })
    else r

/-- The pure acknowledgement that `tcp_receive` answers with. -/
def tcpAck (send : Send) (s : Stack) (i : Fin tcpMaxSockets) : Stack :=
  (tcpSendSegment send s i tcpFlagAck []).2

/-- The data part of the connected state. -/
def tcpReceiveData (send : Send) (s : Stack) (i : Fin tcpMaxSockets) (seq : UInt32)
    (data : List UInt8) : Stack :=
  if data.length > 0 then
    tcpAck send (s.setSocket i { s.tcp.sockets i with
      rx := (s.tcp.sockets i).rx.pushAll data
      ackNum := seq + UInt32.ofNat data.length }) i
  else s

/-- The `FIN` part of the connected state. -/
def tcpReceiveFin (send : Send) (s : Stack) (i : Fin tcpMaxSockets) (seq : UInt32) (flags : UInt8)
    (data : List UInt8) : Stack :=
  if flags &&& tcpFlagFin ≠ 0 then
    tcpAck send (s.setSocket i { s.tcp.sockets i with
      ackNum := seq + (if data.length > 0 then UInt32.ofNat data.length else 1)
      state := .closeWait }) i
  else s

/-- The `switch` of `tcp_receive` on the state of the socket, with the `RST` test before it. -/
def tcpReceiveState (send : Send) (s : Stack) (i : Fin tcpMaxSockets) (seq : UInt32)
    (flags : UInt8) (data : List UInt8) : Stack :=
  let sock := s.tcp.sockets i
  if flags &&& tcpFlagRst ≠ 0 then s.setSocket i { sock with state := .closed }
  else match sock.state with
  | .synSent =>
    if flags &&& (tcpFlagSyn ||| tcpFlagAck) = tcpFlagSyn ||| tcpFlagAck then
      tcpAck send (s.setSocket i { sock with ackNum := seq + 1, state := .established }) i
    else s
  | .established => tcpReceiveFin send (tcpReceiveData send s i seq data) i seq flags data
  | .finWait1 =>
    if flags &&& tcpFlagAck ≠ 0 then
      if flags &&& tcpFlagFin ≠ 0 then
        tcpAck send (s.setSocket i { sock with ackNum := seq + 1, state := .timeWait }) i
      else s.setSocket i { sock with state := .finWait2 }
    else s
  | .finWait2 =>
    if flags &&& tcpFlagFin ≠ 0 then
      tcpAck send (s.setSocket i { sock with ackNum := seq + 1, state := .timeWait }) i
    else s
  | .lastAck =>
    if flags &&& tcpFlagAck ≠ 0 then s.setSocket i { sock with state := .closed } else s
  | _ => s

/-- `tcp_receive`. -/
def tcpReceive (send : Send) (s : Stack) (srcIp : UInt32) (p : List UInt8) : Stack :=
  match tcpTarget s.tcp srcIp p with
  | none => s
  | some i => tcpReceiveState send s i (tcpHdr p).seqNum (tcpHdr p).flags (tcpData p)

/-! ## Receiving -/

/-- `ipv4_receive`. -/
def ipv4Receive (send : Send) (s : Stack) (p : List UInt8) : Stack :=
  match ipv4Upcall s.cfg.localIp p with
  | none => s
  | some (.icmp, src, q) => icmpReceive send s src q
  | some (.udp, src, q) => udpReceive s src q
  | some (.tcp, src, q) => tcpReceive send s src q

/-- `ethernet_receive`. -/
def ethernetReceive (send : Send) (s : Stack) (frame : List UInt8) : Stack :=
  match frameUse frame with
  | .drop => s
  | .arp p => s.arpHandlePacket p
  | .ipv4 p => ipv4Receive send s p

/-- `net_poll`. -/
def netPoll (send : Send) (s : Stack) : Stack :=
  if !s.present then s
  else match s.polls with
    | [] => s
    | poll :: polls =>
      let s := { s with polls := polls }
      match poll with
      | some frame => if frame.length > 0 then ethernetReceive send s frame else s
      | none => s

/-! ## Sending -/

/-- The polling loop of `arp_resolve`, with `n` turns left. -/
def arpWait (send : Send) (ip : UInt32) : ℕ → Stack → Option Mac × Stack
  | 0, s => (if ip = s.cfg.gatewayIp then some qemuGatewayMac else none, s)
  | n + 1, s =>
    let s := netPoll send s
    match arpLookup s.arpCache ip with
    | some mac => (some mac, s)
    | none => arpWait send ip n s

/-- `arp_resolve`. -/
def arpResolve (send : Send) (s : Stack) (ip : UInt32) : Option Mac × Stack :=
  if ip = broadcastIp then (some broadcastMac, s)
  else match arpLookup s.arpCache ip with
    | some mac => (some mac, s)
    | none => arpWait send ip 1000 (s.arpRequest ip)

/-- `ipv4_send` up to its call of `arp_resolve`: the packet is built in the static buffer. -/
def buildPacket (s : Stack) (dst : UInt32) (protocol : UInt8) (payload : List UInt8) : Stack :=
  { s with
    ipIdCounter := s.ipIdCounter + 1
    ipv4TxBuffer := store (store s.ipv4TxBuffer 0
      (ipv4Header s.cfg s.ipIdCounter dst protocol payload.length)) ipv4HdrSize payload }

/-- The check of the arguments of `ipv4_send`. -/
def ipv4SendFits (payload : List UInt8) : Bool :=
  payload.length ≠ 0 && ipv4HdrSize + payload.length ≤ txBufferSize

/-- The hardware address and the packet that `ipv4_send` passes to `ethernet_send`, and the state at
that call; `none` when it returns before. -/
def ipv4Handover (send : Send) (s : Stack) (dst : UInt32) (protocol : UInt8)
    (payload : List UInt8) : Option (Mac × List UInt8) × Stack :=
  if !ipv4SendFits payload then (none, s)
  else
    let r := arpResolve send (s.buildPacket dst protocol payload) (nextHop s.cfg dst)
    (r.1.map fun mac => (mac, load r.2.ipv4TxBuffer 0 (ipv4HdrSize + payload.length)), r.2)

/-- The body of `ipv4_send`, given the calls nested in it. -/
def ipv4SendBody (send : Send) : Send := fun s dst protocol payload =>
  match ipv4Handover send s dst protocol payload with
  | (none, s) => (false, s)
  | (some (mac, packet), s) => s.ethernetSend mac ethertypeIpv4 packet

/-- `ipv4_send` with calls nested at most `depth` deep. -/
def ipv4SendDepth : ℕ → Send
  | 0 => fun s _ _ _ => (false, s)
  | depth + 1 => ipv4SendBody (ipv4SendDepth depth)

/-- `ipv4_send`. -/
def ipv4Send : Send := fun s dst protocol payload =>
  ipv4SendDepth (s.polls.length + 1) s dst protocol payload

end Stack

end Bangos.Net
