import Bangos.Net.StackRuns
import Bangos.Net.TcpStream

/-!
# The segments of `tcp_send` (`kernel/net/tcp.c`)

`tcp_send` cuts its data into chunks of at most one segment and polls the network card after each of
them.  A handler that runs meanwhile, in that poll or in one that `ipv4_send` makes while it waits
for an address, may send segments of its own, also of the same socket.  They are acknowledgements:
they carry no data and no flag that counts, so they leave every sequence number where it was.
-/

namespace Bangos.Net

namespace Stack

/-! ## The call -/

/-- The loop of `tcp_send`: chunk after chunk, with one `net_poll` after each.  Every turn takes at
least one byte, so as many turns as there are bytes are enough. -/
def tcpSendLoop (i : Fin tcpMaxSockets) : ℕ → Stack → List UInt8 → Bool × Stack
  | 0, s, _ => (true, s)
  | n + 1, s, data =>
    if data.length > 0 then
      let r := tcpSendSegment ipv4Send s i (tcpFlagAck ||| tcpFlagPsh) (data.take tcpDefaultMss)
      if r.1 then tcpSendLoop i n (netPoll ipv4Send r.2) (data.drop tcpDefaultMss)
      else (false, r.2)
    else (true, s)

/-- `tcp_send`. -/
def tcpSend (s : Stack) (i : Fin tcpMaxSockets) (data : List UInt8) : ℤ × Stack :=
  if data.length = 0 then (0, s)
  else if (s.tcp.sockets i).state ≠ .established ∧ (s.tcp.sockets i).state ≠ .closeWait then (-1, s)
  else
    let r := tcpSendLoop i data.length s data
    (if r.1 then Int.bmod data.length (2 ^ 32) else -1, r.2)

/-- The segment that `tcp_send_segment` builds. -/
def segmentOf (sock : TcpSocket) (flags : UInt8) (payload : List UInt8) : TcpSegment where
  dstIp := sock.remoteIp
  srcPort := sock.localPort
  dstPort := sock.remotePort
  seqNum := sock.seqNum
  ackNum := sock.ackNum
  flags := flags
  windowSize := UInt16.ofNat (tcpRxBufSize - sock.rx.len)
  payload := payload

/-- The call of `ipv4_send` in `tcp_send_segment`. -/
def handSegment (send : Send) (s : Stack) (i : Fin tcpMaxSockets) (flags : UInt8)
    (payload : List UInt8) : Bool × Stack :=
  let seg := segmentOf (s.tcp.sockets i) flags payload
  send { s with tcp := { s.tcp with sent := s.tcp.sent ++ [seg] } } (s.tcp.sockets i).remoteIp
    ipProtoTcp (tcpBytes (s.tcp.sockets i).localIp seg)

/-- The call of `ipv4_send` succeeds for every segment of the loop. -/
def SendsSucceed (i : Fin tcpMaxSockets) : ℕ → Stack → List UInt8 → Prop
  | 0, _, _ => True
  | n + 1, s, data => data.length > 0 →
    (handSegment ipv4Send s i (tcpFlagAck ||| tcpFlagPsh) (data.take tcpDefaultMss)).1 = true ∧
      SendsSucceed i n
        (netPoll ipv4Send (tcpSendSegment ipv4Send s i (tcpFlagAck ||| tcpFlagPsh)
          (data.take tcpDefaultMss)).2)
        (data.drop tcpDefaultMss)

/-! ## What happens meanwhile -/

/-- A segment without data that only acknowledges. -/
structure IsAck (seg : TcpSegment) : Prop where
  payload : seg.payload = []
  flags : seg.flags = tcpFlagAck

/-- Only acknowledgements have been sent, and no sequence number has changed. -/
structure Acked (s s' : Stack) : Prop where
  seqNum : ∀ j, (s'.tcp.sockets j).seqNum = (s.tcp.sockets j).seqNum
  sent : ∃ acks, s'.tcp.sent = s.tcp.sent ++ acks ∧ ∀ a ∈ acks, IsAck a

/-- A call of `ipv4_send` that changes the TCP layer no more than that. -/
def AcksOnly (send : Send) : Prop :=
  ∀ s dst protocol p, Acked s (send s dst protocol p).2

section Meanwhile

variable {s s' s'' : Stack} {send : Send} {i : Fin tcpMaxSockets}

lemma Acked.of_tcp (h : s'.tcp = s.tcp) : Acked s s' where
  seqNum j := by rw [h]
  sent := ⟨[], by rw [h, List.append_nil], fun a ha => absurd ha (List.not_mem_nil)⟩

lemma Acked.refl (s : Stack) : Acked s s := Acked.of_tcp rfl

lemma Acked.trans (h : Acked s s') (h' : Acked s' s'') : Acked s s'' where
  seqNum j := (h'.seqNum j).trans (h.seqNum j)
  sent := by
    obtain ⟨acks, hsent, hacks⟩ := h.sent
    obtain ⟨acks', hsent', hacks'⟩ := h'.sent
    refine ⟨acks ++ acks', by rw [hsent', hsent, List.append_assoc], fun a ha => ?_⟩
    rcases List.mem_append.mp ha with ha | ha
    · exact hacks a ha
    · exact hacks' a ha

/-- Writing a socket without its sequence number. -/
lemma Acked.of_setSocket {sock : TcpSocket} (h : sock.seqNum = (s.tcp.sockets i).seqNum) :
    Acked s (s.setSocket i sock) where
  seqNum j := by
    by_cases hj : j = i
    · subst hj
      rw [setSocket, Tcp.set_sockets_self, h]
    · rw [setSocket, Tcp.set_sockets_of_ne _ hj]
  sent := ⟨[], (List.append_nil _).symm, fun a ha => absurd ha (List.not_mem_nil)⟩

lemma allows_acked : Allows Acked where
  refl := Acked.refl
  trans := Acked.trans
  polled _ := .of_tcp rfl
  framed _ _ := .of_tcp rfl
  learned _ _ _ := .of_tcp rfl
  replied _ _ := .of_tcp rfl
  called _ _ := .of_tcp rfl
  built _ _ _ _ := .of_tcp rfl
  acked s seg hpayload hflags :=
    ⟨fun _ => rfl, [seg], rfl, fun a ha => by
      rw [List.mem_singleton] at ha
      subst ha
      exact ⟨hpayload, hflags⟩⟩
  handled s i sock hsock := .of_setSocket (by rw [hsock.same])

/-- **`ipv4_send` sends no data of its own**, however its handlers nest. -/
theorem acksOnly_ipv4Send : AcksOnly ipv4Send := allows_acked.ipv4Send

/-- `tcp_send_segment` without `SYN` and `FIN` is the call of `ipv4_send`; when that succeeds, the
sequence number grows by the length of the payload. -/
lemma tcpSendSegment_eq {flags : UInt8} {payload : List UInt8}
    (hflags : flags &&& (tcpFlagSyn ||| tcpFlagFin) = 0)
    (hfits : tcpHdrSize + payload.length ≤ tcpTxBufferSize) :
    tcpSendSegment send s i flags payload =
      if (handSegment send s i flags payload).1 then
        (true, (handSegment send s i flags payload).2.setSocket i
          { (handSegment send s i flags payload).2.tcp.sockets i with
            seqNum := ((handSegment send s i flags payload).2.tcp.sockets i).seqNum +
              UInt32.ofNat payload.length })
      else handSegment send s i flags payload := by
  rw [tcpSendSegment, if_neg (not_lt.mpr hfits), if_neg (not_not.mpr hflags)]
  simp only [UInt32.add_zero]
  rfl

/-- What the call of `ipv4_send` adds: the segment, and acknowledgements behind it. -/
lemma handSegment_sent (h : AcksOnly send) (flags : UInt8) (payload : List UInt8) :
    (∀ j, ((handSegment send s i flags payload).2.tcp.sockets j).seqNum =
      (s.tcp.sockets j).seqNum) ∧
    ∃ acks, (handSegment send s i flags payload).2.tcp.sent =
        s.tcp.sent ++ segmentOf (s.tcp.sockets i) flags payload :: acks ∧
      ∀ a ∈ acks, IsAck a := by
  have hacked := h { s with tcp := { s.tcp with
    sent := s.tcp.sent ++ [segmentOf (s.tcp.sockets i) flags payload] } }
    (s.tcp.sockets i).remoteIp ipProtoTcp
    (tcpBytes (s.tcp.sockets i).localIp (segmentOf (s.tcp.sockets i) flags payload))
  obtain ⟨acks, hsent, hacks⟩ := hacked.sent
  refine ⟨hacked.seqNum, acks, ?_, hacks⟩
  rw [List.append_assoc, List.singleton_append] at hsent
  exact hsent

/-- **Polls move no sequence number**: however many there are and whatever they find, only
acknowledgements are sent. -/
theorem acked_polls (s : Stack) (n : ℕ) : Acked s ((netPoll ipv4Send)^[n] s) := by
  induction n generalizing s with
  | zero => exact Acked.refl s
  | succ n ih => exact (allows_acked.netPoll acksOnly_ipv4Send s).trans (ih _)

end Meanwhile

/-! ## The segments of a call -/

/-- The segments with data. -/
def dataSegments (segs : List TcpSegment) : List TcpSegment :=
  segs.filter fun seg => seg.payload.length > 0

/-- The first segment has this sequence number, and each next one that of its predecessor plus the
length of the predecessor's payload. -/
def Consecutive (seq : UInt32) : List TcpSegment → Prop
  | [] => True
  | seg :: segs => seg.seqNum = seq ∧ Consecutive (seq + UInt32.ofNat seg.payload.length) segs

/-- The segments carry the data from the sequence number on; those without data acknowledge. -/
structure Carries (seq : UInt32) (data : List UInt8) (segs : List TcpSegment) : Prop where
  acks : ∀ seg ∈ segs, seg.payload.length = 0 → IsAck seg
  sizes : ∀ seg ∈ dataSegments segs,
    1 ≤ seg.payload.length ∧ seg.payload.length ≤ tcpDefaultMss
  payloads : ((dataSegments segs).map (·.payload)).flatten = data
  consecutive : Consecutive seq (dataSegments segs)

section Segments

variable {seq : UInt32} {data chunk : List UInt8} {seg : TcpSegment}
  {segs acks : List TcpSegment}

lemma Carries.nil (seq : UInt32) : Carries seq [] [] where
  acks _ h := absurd h List.not_mem_nil
  sizes _ h := absurd h List.not_mem_nil
  payloads := rfl
  consecutive := trivial

/-- Acknowledgements before the segments. -/
lemma Carries.append_acks (h : Carries seq data segs) (hacks : ∀ a ∈ acks, IsAck a) :
    Carries seq data (acks ++ segs) := by
  have hnone : dataSegments acks = [] := by
    rw [dataSegments, List.filter_eq_nil_iff]
    intro a ha
    simp [(hacks a ha).payload]
  have hdata : dataSegments (acks ++ segs) = dataSegments segs := by
    rw [dataSegments, List.filter_append, ← dataSegments, hnone, List.nil_append, dataSegments]
  refine ⟨?_, hdata ▸ h.sizes, hdata ▸ h.payloads, hdata ▸ h.consecutive⟩
  intro a ha hlen
  rcases List.mem_append.mp ha with ha | ha
  · exact hacks a ha
  · exact h.acks a ha hlen

/-- A data segment before the segments. -/
lemma Carries.cons (h : Carries (seq + UInt32.ofNat seg.payload.length) data segs)
    (hseq : seg.seqNum = seq) (hpos : 1 ≤ seg.payload.length)
    (hmss : seg.payload.length ≤ tcpDefaultMss) :
    Carries seq (seg.payload ++ data) (seg :: segs) := by
  have hdata : dataSegments (seg :: segs) = seg :: dataSegments segs :=
    List.filter_cons_of_pos (decide_eq_true hpos)
  refine ⟨?_, ?_, ?_, ?_⟩
  · intro a ha hlen
    rcases List.mem_cons.mp ha with rfl | ha
    · omega
    · exact h.acks a ha hlen
  · rw [hdata]
    intro a ha
    rcases List.mem_cons.mp ha with rfl | ha
    · exact ⟨hpos, hmss⟩
    · exact h.sizes a ha
  · rw [hdata, List.map_cons, List.flatten_cons, h.payloads]
  · rw [hdata]
    exact ⟨hseq, h.consecutive⟩

end Segments

section Send

variable {s : Stack} {i : Fin tcpMaxSockets} {data : List UInt8}

/-- What a call has sent, and where it leaves the sequence number. -/
structure DataSent (s s' : Stack) (i : Fin tcpMaxSockets) (data : List UInt8) : Prop where
  sent : ∃ segs, s'.tcp.sent = s.tcp.sent ++ segs ∧ Carries (s.tcp.sockets i).seqNum data segs
  seqNum : (s'.tcp.sockets i).seqNum = (s.tcp.sockets i).seqNum + UInt32.ofNat data.length

lemma DataSent.of_nil (hdata : data.length = 0) : DataSent s s i data := by
  rw [List.eq_nil_of_length_eq_zero hdata]
  exact ⟨⟨[], (List.append_nil _).symm, Carries.nil _⟩, (UInt32.add_zero _).symm⟩

/-- A segment whose `ipv4_send` succeeds. -/
lemma tcpSendSegment_sent {flags : UInt8} {chunk : List UInt8}
    (hflags : flags &&& (tcpFlagSyn ||| tcpFlagFin) = 0) (hmss : chunk.length ≤ tcpDefaultMss)
    (hok : (handSegment ipv4Send s i flags chunk).1 = true) :
    let r := tcpSendSegment ipv4Send s i flags chunk
    r.1 = true ∧
      (r.2.tcp.sockets i).seqNum = (s.tcp.sockets i).seqNum + UInt32.ofNat chunk.length ∧
      ∃ acks, r.2.tcp.sent = s.tcp.sent ++ segmentOf (s.tcp.sockets i) flags chunk :: acks ∧
        ∀ a ∈ acks, IsAck a := by
  have hfits : tcpHdrSize + chunk.length ≤ tcpTxBufferSize :=
    (Nat.add_le_add_left hmss _).trans (by decide)
  obtain ⟨hkept, acks, hsent, hacks⟩ :=
    handSegment_sent (s := s) (i := i) acksOnly_ipv4Send flags chunk
  rw [tcpSendSegment_eq hflags hfits, if_pos hok]
  generalize handSegment ipv4Send s i flags chunk = r at hkept hsent
  refine ⟨rfl, ?_, acks, hsent, hacks⟩
  rw [setSocket, Tcp.set_sockets_self, hkept i]

/-- One turn of the loop: the segment, the acknowledgements of its `ipv4_send` and of the poll, and
then the other turns. -/
lemma DataSent.turn {chunk rest : List UInt8} {s₁ s' : Stack} {flags : UInt8} {acks : List TcpSegment}
    (hpos : 1 ≤ chunk.length) (hmss : chunk.length ≤ tcpDefaultMss)
    (hseq : (s₁.tcp.sockets i).seqNum = (s.tcp.sockets i).seqNum + UInt32.ofNat chunk.length)
    (hsent : s₁.tcp.sent = s.tcp.sent ++ segmentOf (s.tcp.sockets i) flags chunk :: acks)
    (hacks : ∀ a ∈ acks, IsAck a) (h : DataSent (s₁.netPoll ipv4Send) s' i rest) :
    DataSent s s' i (chunk ++ rest) := by
  have hpoll : Acked s₁ (s₁.netPoll ipv4Send) := allows_acked.netPoll acksOnly_ipv4Send s₁
  obtain ⟨acks', hpolled, hacks'⟩ := hpoll.sent
  obtain ⟨segs, hrest, hcarries⟩ := h.sent
  rw [hpoll.seqNum i, hseq] at hcarries
  refine ⟨⟨segmentOf (s.tcp.sockets i) flags chunk :: (acks ++ (acks' ++ segs)), ?_, ?_⟩, ?_⟩
  · rw [hrest, hpolled, hsent]
    simp only [List.append_assoc, List.cons_append]
  · have hcons : Carries (s.tcp.sockets i).seqNum
        ((segmentOf (s.tcp.sockets i) flags chunk).payload ++ rest)
        (segmentOf (s.tcp.sockets i) flags chunk :: (acks ++ (acks' ++ segs))) :=
      ((hcarries.append_acks hacks').append_acks hacks).cons rfl hpos hmss
    exact hcons
  · rw [h.seqNum, hpoll.seqNum i, hseq, List.length_append, UInt32.ofNat_add, UInt32.add_assoc]

/-- The loop of `tcp_send`, by induction on the turns left. -/
lemma tcpSendLoop_spec {n : ℕ} (hn : data.length ≤ n) (h : SendsSucceed i n s data) :
    (tcpSendLoop i n s data).1 = true ∧ DataSent s (tcpSendLoop i n s data).2 i data := by
  induction n generalizing s data with
  | zero => exact ⟨rfl, DataSent.of_nil (Nat.le_zero.mp hn)⟩
  | succ n ih =>
    rw [tcpSendLoop]
    by_cases hpos : data.length > 0
    · obtain ⟨hok, hnext⟩ := h hpos
      have htake : (data.take tcpDefaultMss).length = min tcpDefaultMss data.length :=
        List.length_take
      have hdrop : (data.drop tcpDefaultMss).length = data.length - tcpDefaultMss :=
        List.length_drop
      have hmss : 0 < tcpDefaultMss := by decide
      obtain ⟨hsent, hseq, acks, hsegs, hacks⟩ := tcpSendSegment_sent (by decide) (by omega) hok
      obtain ⟨hloop, hdata⟩ := ih (by omega) hnext
      have hlen : 1 ≤ (data.take tcpDefaultMss).length := by omega
      have hturn := hdata.turn hlen (by omega) hseq hsegs hacks
      rw [List.take_append_drop] at hturn
      rw [if_pos hpos, if_pos hsent]
      exact ⟨hloop, hturn⟩
    · rw [if_neg hpos]
      exact ⟨rfl, DataSent.of_nil (by omega)⟩

lemma SendsSucceed.of_nil {n : ℕ} (hdata : data.length = 0) : SendsSucceed i n s data := by
  cases n with
  | zero => trivial
  | succ n => exact fun hpos => absurd hdata (Nat.ne_of_gt hpos)

lemma SendsSucceed.cons {n : ℕ}
    (hok : (handSegment ipv4Send s i (tcpFlagAck ||| tcpFlagPsh) (data.take tcpDefaultMss)).1 = true)
    (h : SendsSucceed i n
      (netPoll ipv4Send (tcpSendSegment ipv4Send s i (tcpFlagAck ||| tcpFlagPsh)
        (data.take tcpDefaultMss)).2)
      (data.drop tcpDefaultMss)) :
    SendsSucceed i (n + 1) s data :=
  fun _ => ⟨hok, h⟩

/-- **`tcp_send` emits the data as consecutive segments.**  Whatever packets the polls find, when
every `ipv4_send` of a segment succeeds, the call returns the length of the data; the segments with
data have from 1 to 1460 bytes that make up the data in order, the first with the sequence number
of the socket and each next one with the number where the last one ended; every other segment is an
acknowledgement, and the sequence number has grown by the length of the data. -/
theorem tcpSend_segments (s : Stack) (i : Fin tcpMaxSockets) (data : List UInt8)
    (hstate : (s.tcp.sockets i).state = .established ∨ (s.tcp.sockets i).state = .closeWait)
    (hpos : 1 ≤ data.length) (hlen : data.length < 2 ^ 31)
    (hsends : SendsSucceed i data.length s data) :
    (s.tcpSend i data).1 = data.length ∧ DataSent s (s.tcpSend i data).2 i data := by
  have hopen : ¬ ((s.tcp.sockets i).state ≠ .established ∧
      (s.tcp.sockets i).state ≠ .closeWait) := by
    rintro ⟨hne, hne'⟩
    exact hstate.elim hne hne'
  obtain ⟨hok, hdata⟩ := tcpSendLoop_spec le_rfl hsends
  rw [tcpSend, if_neg (by omega), if_neg hopen]
  refine ⟨?_, hdata⟩
  change (if (tcpSendLoop i data.length s data).1 = true then _ else _) = _
  rw [if_pos hok]
  exact Int.bmod_eq_of_le (by omega) (by omega)

/-- A host with a connection to the gateway, whose segment is the next frame to come. -/
def connectedHost : Stack :=
  { initial [some (frameTo (initial []).cfg qemuGatewayMac ethertypeIpv4
      (ipv4Header { (initial []).cfg with localIp := defaultGatewayIp } 7 defaultLocalIp ipProtoTcp
        21 ++ (dataSegment 0 7).payload))] with
    tcp := connectedTcp }

/-- One byte more than a segment holds; a segment of the peer is acknowledged meanwhile. -/
theorem tcpSend_segments_two :
    (connectedHost.tcpSend 0 (List.replicate 1461 65)).1 = 1461 ∧
      DataSent connectedHost (connectedHost.tcpSend 0 (List.replicate 1461 65)).2 0
        (List.replicate 1461 65) := by
  have hlen : (List.replicate 1461 (65 : UInt8)).length = 1461 := List.length_replicate
  have hsends : SendsSucceed 0 (1459 + 1 + 1) connectedHost (List.replicate 1461 65) := by
    refine SendsSucceed.cons (by decide +kernel) (SendsSucceed.cons (by decide +kernel)
      (SendsSucceed.of_nil ?_))
    rw [List.length_drop, List.length_drop, hlen]
    rfl
  have h := tcpSend_segments connectedHost 0 (List.replicate 1461 65) (Or.inl rfl)
    (by rw [hlen]; decide) (by rw [hlen]; decide) (by rw [hlen]; exact hsends)
  rw [hlen] at h
  exact h

end Send

end Stack

end Bangos.Net
