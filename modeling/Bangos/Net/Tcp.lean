import Bangos.Lib.RingBuf

/-!
# The TCP layer (`kernel/net/tcp.c`)

The sockets table and the functions that work on it.  Two things come from outside the
file and are given by the environment: whether a call of `ipv4_send` succeeds
(`Tcp.ipv4SendOk`, indexed by the number of segments sent before), and what `net_poll` hands
to `tcp_receive` while one of the polling loops waits (a list of polls; a loop that reaches
the end of its list has timed out).
-/

namespace Bangos.Net

/-- `TCP_RX_BUF_SIZE`. -/
def tcpRxBufSize : ℕ := 16384

/-- `TCP_MAX_SOCKETS`. -/
abbrev tcpMaxSockets : ℕ := 16

instance : NeZero tcpMaxSockets := ⟨by decide⟩

/-- `TCP_DEFAULT_MSS`. -/
def tcpDefaultMss : ℕ := 1460

/-- `sizeof(tcp_tx_buffer)`. -/
def tcpTxBufferSize : ℕ := 2048

/-- `sizeof(tcp_hdr_t)`. -/
def tcpHdrSize : ℕ := 20

def tcpFlagFin : UInt8 := 0x01
def tcpFlagSyn : UInt8 := 0x02
def tcpFlagRst : UInt8 := 0x04
def tcpFlagPsh : UInt8 := 0x08
def tcpFlagAck : UInt8 := 0x10

/-- `tcp_state_t`. -/
inductive TcpState where
  | closed
  | listen
  | synSent
  | synReceived
  | established
  | finWait1
  | finWait2
  | closeWait
  | closing
  | lastAck
  | timeWait
deriving DecidableEq, Repr

/-- `tcp_socket_t`; the fields `rx_buf`, `rx_head`, `rx_tail` and `rx_len` are the ring `rx`. -/
structure TcpSocket where
  id : ℕ
  inUse : Bool
  state : TcpState
  localIp : UInt32
  localPort : UInt16
  remoteIp : UInt32
  remotePort : UInt16
  seqNum : UInt32
  ackNum : UInt32
  remoteWindow : UInt16
  rx : RingBuf UInt8 tcpRxBufSize

/-- A socket whose bytes are all zero. -/
def TcpSocket.zero : TcpSocket where
  id := 0
  inUse := false
  state := .closed
  localIp := 0
  localPort := 0
  remoteIp := 0
  remotePort := 0
  seqNum := 0
  ackNum := 0
  remoteWindow := 0
  rx := RingBuf.empty 0

/-- A segment handed to `ipv4_send`: the header fields that vary, and the payload. -/
structure TcpSegment where
  dstIp : UInt32
  srcPort : UInt16
  dstPort : UInt16
  seqNum : UInt32
  ackNum : UInt32
  flags : UInt8
  windowSize : UInt16
  payload : List UInt8
deriving DecidableEq, Repr

/-- The state of the TCP layer. -/
structure Tcp where
  /-- `tcp_sockets`. -/
  sockets : Fin tcpMaxSockets → TcpSocket
  /-- `ephemeral_port_counter`. -/
  ephemeralPortCounter : UInt16
  /-- `net_get_config()->local_ip`. -/
  localIp : UInt32
  /-- The segments handed to `ipv4_send` so far, oldest first. -/
  sent : List TcpSegment
  /-- Whether the `n`-th call of `ipv4_send` returns a non-negative value. -/
  ipv4SendOk : ℕ → Bool

namespace Tcp

/-- Write one slot of the sockets table. -/
def set (t : Tcp) (i : Fin tcpMaxSockets) (s : TcpSocket) : Tcp :=
  { t with sockets := Function.update t.sockets i s }

@[simp] lemma set_sockets_self (t : Tcp) (i : Fin tcpMaxSockets) (s : TcpSocket) :
    (t.set i s).sockets i = s := by
  simp [set]

lemma set_sockets_of_ne (t : Tcp) {i j : Fin tcpMaxSockets} (h : j ≠ i) (s : TcpSocket) :
    (t.set i s).sockets j = t.sockets j := by
  simp [set, h]

end Tcp

/-- `tcp_init`. -/
def tcpInit (localIp : UInt32) (ipv4SendOk : ℕ → Bool) : Tcp where
  sockets := fun i => { TcpSocket.zero with id := i }
  ephemeralPortCounter := 49152
  localIp := localIp
  sent := []
  ipv4SendOk := ipv4SendOk

/-- `tcp_socket_create`: the first free slot, or `none` when all are in use. -/
def tcpSocketCreate (t : Tcp) : Option (Fin tcpMaxSockets) × Tcp :=
  match (List.finRange tcpMaxSockets).find? fun i => !(t.sockets i).inUse with
  | none => (none, t)
  | some i =>
    let s : TcpSocket := { TcpSocket.zero with
      id := i
      inUse := true
      state := .closed
      localIp := t.localIp
      localPort := t.ephemeralPortCounter
      remoteWindow := UInt16.ofNat tcpRxBufSize }
    let next := t.ephemeralPortCounter + 1
    (some i, { t.set i s with
      ephemeralPortCounter := if next > 65000 then 49152 else next })

/-- `tcp_find_socket`. -/
def tcpFindSocket (t : Tcp) (localPort : UInt16) (remoteIp : UInt32) (remotePort : UInt16) :
    Option (Fin tcpMaxSockets) :=
  (List.finRange tcpMaxSockets).find? fun i =>
    let s := t.sockets i
    s.inUse && s.localPort == localPort &&
      (s.remoteIp == 0 || (s.remoteIp == remoteIp && s.remotePort == remotePort))

/-- `tcp_send_segment`: the segment built from the socket, handed to `ipv4_send`; the first
component says whether the result was non-negative. -/
def tcpSendSegment (t : Tcp) (i : Fin tcpMaxSockets) (flags : UInt8) (payload : List UInt8) :
    Bool × Tcp :=
  let sock := t.sockets i
  if tcpHdrSize + payload.length > tcpTxBufferSize then (false, t)
  else
    let seg : TcpSegment :=
      { dstIp := sock.remoteIp
        srcPort := sock.localPort
        dstPort := sock.remotePort
        seqNum := sock.seqNum
        ackNum := sock.ackNum
        flags := flags
        windowSize := UInt16.ofNat (tcpRxBufSize - sock.rx.len)
        payload := payload }
    let ok := t.ipv4SendOk t.sent.length
    let t := { t with sent := t.sent ++ [seg] }
    if ok then
      let bump : UInt32 := if flags &&& (tcpFlagSyn ||| tcpFlagFin) ≠ 0 then 1 else 0
      (true, t.set i { sock with seqNum := sock.seqNum + bump + UInt32.ofNat payload.length })
    else (false, t)

/-! ## Receiving -/

/-- A big-endian 16-bit field of a packet. -/
def be16 (p : List UInt8) (off : ℕ) : UInt16 :=
  (p.getD off 0).toUInt16 <<< 8 ||| (p.getD (off + 1) 0).toUInt16

/-- A big-endian 32-bit field of a packet. -/
def be32 (p : List UInt8) (off : ℕ) : UInt32 :=
  (be16 p off).toUInt32 <<< 16 ||| (be16 p (off + 2)).toUInt32

/-- The fields of `tcp_hdr_t` that `tcp_receive` reads. -/
structure TcpHdr where
  srcPort : UInt16
  dstPort : UInt16
  seqNum : UInt32
  flags : UInt8
  /-- `(data_offset_reserved >> 4) * 4`. -/
  headerLen : ℕ
deriving DecidableEq, Repr

/-- Reading the header of a segment. -/
def tcpHdr (p : List UInt8) : TcpHdr where
  srcPort := be16 p 0
  dstPort := be16 p 2
  seqNum := be32 p 4
  flags := p.getD 13 0
  headerLen := (p.getD 12 0 >>> 4).toNat * 4

/-- The pure acknowledgement that `tcp_receive` answers with. -/
def tcpAck (t : Tcp) (i : Fin tcpMaxSockets) : Tcp := (tcpSendSegment t i tcpFlagAck []).2

/-- The data part of the connected state.  The ring drops what does not fit; the
acknowledgement number counts it all the same. -/
def tcpReceiveData (t : Tcp) (i : Fin tcpMaxSockets) (seq : UInt32) (data : List UInt8) : Tcp :=
  if data.length > 0 then
    tcpAck (t.set i { t.sockets i with
      rx := (t.sockets i).rx.pushAll data
      ackNum := seq + UInt32.ofNat data.length }) i
  else t

/-- The `FIN` part of the connected state. -/
def tcpReceiveFin (t : Tcp) (i : Fin tcpMaxSockets) (seq : UInt32) (flags : UInt8)
    (data : List UInt8) : Tcp :=
  if flags &&& tcpFlagFin ≠ 0 then
    tcpAck (t.set i { t.sockets i with
      ackNum := seq + (if data.length > 0 then UInt32.ofNat data.length else 1)
      state := .closeWait }) i
  else t

/-- The `switch` of `tcp_receive` on the state of the socket, with the `RST` test before it. -/
def tcpReceiveState (t : Tcp) (i : Fin tcpMaxSockets) (seq : UInt32) (flags : UInt8)
    (data : List UInt8) : Tcp :=
  let sock := t.sockets i
  if flags &&& tcpFlagRst ≠ 0 then t.set i { sock with state := .closed }
  else match sock.state with
  | .synSent =>
    if flags &&& (tcpFlagSyn ||| tcpFlagAck) = tcpFlagSyn ||| tcpFlagAck then
      tcpAck (t.set i { sock with ackNum := seq + 1, state := .established }) i
    else t
  | .established => tcpReceiveFin (tcpReceiveData t i seq data) i seq flags data
  | .finWait1 =>
    if flags &&& tcpFlagAck ≠ 0 then
      if flags &&& tcpFlagFin ≠ 0 then
        tcpAck (t.set i { sock with ackNum := seq + 1, state := .timeWait }) i
      else t.set i { sock with state := .finWait2 }
    else t
  | .finWait2 =>
    if flags &&& tcpFlagFin ≠ 0 then
      tcpAck (t.set i { sock with ackNum := seq + 1, state := .timeWait }) i
    else t
  | .lastAck =>
    if flags &&& tcpFlagAck ≠ 0 then t.set i { sock with state := .closed } else t
  | _ => t

/-- The socket `tcp_receive` hands a segment to: `none` when the segment is malformed or no
socket matches. -/
def tcpTarget (t : Tcp) (srcIp : UInt32) (p : List UInt8) : Option (Fin tcpMaxSockets) :=
  let hdr := tcpHdr p
  if p.length < tcpHdrSize then none
  else if hdr.headerLen < tcpHdrSize ∨ hdr.headerLen > p.length then none
  else tcpFindSocket t hdr.dstPort srcIp hdr.srcPort

/-- The data a segment carries. -/
def tcpData (p : List UInt8) : List UInt8 := p.drop (tcpHdr p).headerLen

/-- `tcp_receive`. -/
def tcpReceive (t : Tcp) (srcIp : UInt32) (p : List UInt8) : Tcp :=
  match tcpTarget t srcIp p with
  | none => t
  | some i => tcpReceiveState t i (tcpHdr p).seqNum (tcpHdr p).flags (tcpData p)

/-- One `net_poll`: the source address and the bytes of the segment it hands to
`tcp_receive`, or `none` when it finds no packet for TCP. -/
abbrev Poll := Option (UInt32 × List UInt8)

/-- The effect of one `net_poll` on the TCP layer. -/
def netPoll (t : Tcp) : Poll → Tcp
  | none => t
  | some (ip, p) => tcpReceive t ip p

/-- A polling loop: poll, and leave as soon as `stop` holds. -/
def pollUntil (stop : Tcp → Bool) : Tcp → List Poll → Tcp
  | t, [] => t
  | t, p :: ps => if stop (netPoll t p) then netPoll t p else pollUntil stop (netPoll t p) ps

/-! ## The socket operations -/

/-- `tcp_connect`, with the time stamp counter that seeds the sequence number. -/
def tcpConnect (t : Tcp) (i : Fin tcpMaxSockets) (dstIp : UInt32) (dstPort : UInt16)
    (tsc : ℕ) (polls : List Poll) : Bool × Tcp :=
  let sock := { t.sockets i with
    remoteIp := dstIp
    remotePort := dstPort
    seqNum := 1000 + UInt32.ofNat (tsc % 0x10000)
    ackNum := 0
    state := .synSent }
  let (ok, t) := tcpSendSegment (t.set i sock) i tcpFlagSyn []
  if ok then
    let t := pollUntil (fun t => (t.sockets i).state = .established ∨
      (t.sockets i).state = .closed) t polls
    if (t.sockets i).state = .established then (true, t)
    else (false, t.set i { t.sockets i with state := .closed })
  else (false, t.set i { t.sockets i with state := .closed })

/-- The loop of `tcp_send`: chunk after chunk, with one `net_poll` after each.  Every turn
takes at least one byte, so as many turns as there are bytes are enough. -/
def tcpSendLoop : ℕ → Tcp → Fin tcpMaxSockets → List UInt8 → List Poll → Bool × Tcp
  | 0, t, _, _, _ => (true, t)
  | n + 1, t, i, data, polls =>
    if data.length > 0 then
      let (ok, t) := tcpSendSegment t i (tcpFlagAck ||| tcpFlagPsh) (data.take tcpDefaultMss)
      if ok then
        tcpSendLoop n (netPoll t (polls.headD none)) i (data.drop tcpDefaultMss) polls.tail
      else (false, t)
    else (true, t)

/-- `tcp_send`. -/
def tcpSend (t : Tcp) (i : Fin tcpMaxSockets) (data : List UInt8) (polls : List Poll) :
    ℤ × Tcp :=
  if data.length = 0 then (0, t)
  else if (t.sockets i).state ≠ .established ∧ (t.sockets i).state ≠ .closeWait then (-1, t)
  else
    let (ok, t) := tcpSendLoop data.length t i data polls
    (if ok then Int.bmod data.length (2 ^ 32) else -1, t)

/-- The copy loop of `tcp_recv`. -/
def tcpRecvCopy (t : Tcp) (i : Fin tcpMaxSockets) (len : ℕ) : List UInt8 × Tcp :=
  let sock := t.sockets i
  if sock.rx.len = 0 then ([], t)
  else
    let toCopy := if len < sock.rx.len then len else sock.rx.len
    ((sock.rx.take toCopy).1, t.set i { sock with rx := (sock.rx.take toCopy).2 })

/-- The waiting loop of `tcp_recv` runs only on an empty ring of a connected socket. -/
def tcpRecvWait (t : Tcp) (i : Fin tcpMaxSockets) (polls : List Poll) : Tcp :=
  if (t.sockets i).rx.len = 0 ∧ (t.sockets i).state = .established then
    pollUntil (fun t => (t.sockets i).rx.len > 0 ∨ (t.sockets i).state ≠ .established) t polls
  else t

/-- `tcp_recv`: the bytes copied to the caller's buffer. -/
def tcpRecv (t : Tcp) (i : Fin tcpMaxSockets) (len : ℕ) (polls : List Poll) :
    List UInt8 × Tcp :=
  if len = 0 then ([], t) else tcpRecvCopy (tcpRecvWait t i polls) i len

/-- `tcp_close`. -/
def tcpClose (t : Tcp) (i : Fin tcpMaxSockets) (polls : List Poll) : Tcp :=
  let sock := t.sockets i
  if !sock.inUse then t
  else
    let t :=
      if sock.state = .established then
        let t := (tcpSendSegment (t.set i { sock with state := .finWait1 }) i
          (tcpFlagFin ||| tcpFlagAck) []).2
        pollUntil (fun t => (t.sockets i).state = .closed ∨ (t.sockets i).state = .timeWait)
          t polls
      else if sock.state = .closeWait then
        let t := (tcpSendSegment (t.set i { sock with state := .lastAck }) i
          (tcpFlagFin ||| tcpFlagAck) []).2
        pollUntil (fun t => (t.sockets i).state = .closed) t polls
      else t
    t.set i { t.sockets i with state := .closed, inUse := false }

end Bangos.Net
