import Bangos.Lib.Runs
import Bangos.Net.Tcp

/-!
# The byte stream a TCP socket delivers

One socket of the table is followed through a run in which segments arrive in any order,
interleaved with reads of any size.  The peer's stream is a list `S`; every arrival for the
socket carries a slice of `S`, whose place `off` in the stream is recorded beside it.

`tcp_receive` never compares the sequence number of a segment with the acknowledgement
number of the socket: it stores what arrives.  The bytes handed to the reader are therefore
a prefix of `S` as long as each segment that is stored begins where the last one stored
ended (`returned_prefix`), and a repeated segment already breaks this
(`returned_not_prefix_of_duplicate`).
-/

namespace Bangos.Net

/-! ## What an arrival does to the receive ring -/

/-- Sending a segment changes the sequence number of its socket at most. -/
lemma tcpSendSegment_sockets (t : Tcp) (i : Fin tcpMaxSockets) (flags : UInt8)
    (payload : List UInt8) :
    ∃ n, (tcpSendSegment t i flags payload).2.sockets =
      Function.update t.sockets i { t.sockets i with seqNum := n } := by
  by_cases hlen : tcpHdrSize + payload.length > tcpTxBufferSize
  · exact ⟨(t.sockets i).seqNum, by simp [tcpSendSegment, hlen]⟩
  · cases hok : t.ipv4SendOk t.sent.length with
    | true =>
      simp only [tcpSendSegment, hlen, hok, if_true, if_false, Tcp.set]
      exact ⟨_, rfl⟩
    | false => exact ⟨(t.sockets i).seqNum, by simp [tcpSendSegment, hlen, hok]⟩

@[simp] lemma tcpSendSegment_rx (t : Tcp) (i j : Fin tcpMaxSockets) (flags : UInt8)
    (payload : List UInt8) :
    ((tcpSendSegment t i flags payload).2.sockets j).rx = (t.sockets j).rx := by
  obtain ⟨n, hn⟩ := tcpSendSegment_sockets t i flags payload
  rw [hn]
  by_cases hji : j = i
  · subst hji
    simp
  · simp [hji]

@[simp] lemma tcpAck_rx (t : Tcp) (i j : Fin tcpMaxSockets) :
    ((tcpAck t i).sockets j).rx = (t.sockets j).rx := tcpSendSegment_rx t i j tcpFlagAck []

lemma tcpAck_sockets_of_ne (t : Tcp) {i j : Fin tcpMaxSockets} (h : j ≠ i) :
    (tcpAck t i).sockets j = t.sockets j := by
  obtain ⟨n, hn⟩ := tcpSendSegment_sockets t i tcpFlagAck []
  simp [tcpAck, hn, h]

lemma tcpReceiveData_sockets_of_ne (t : Tcp) {i j : Fin tcpMaxSockets} (h : j ≠ i)
    (seq : UInt32) (data : List UInt8) :
    (tcpReceiveData t i seq data).sockets j = t.sockets j := by
  unfold tcpReceiveData
  split_ifs
  · rw [tcpAck_sockets_of_ne _ h, Tcp.set_sockets_of_ne _ h]
  · rfl

lemma tcpReceiveFin_sockets_of_ne (t : Tcp) {i j : Fin tcpMaxSockets} (h : j ≠ i)
    (seq : UInt32) (flags : UInt8) (data : List UInt8) :
    (tcpReceiveFin t i seq flags data).sockets j = t.sockets j := by
  unfold tcpReceiveFin
  by_cases hfin : flags &&& tcpFlagFin ≠ 0
  · rw [if_pos hfin, tcpAck_sockets_of_ne _ h, Tcp.set_sockets_of_ne _ h]
  · rw [if_neg hfin]

/-- A segment leaves every socket but its own as it was. -/
lemma tcpReceiveState_sockets_of_ne (t : Tcp) {i j : Fin tcpMaxSockets} (h : j ≠ i)
    (seq : UInt32) (flags : UInt8) (data : List UInt8) :
    (tcpReceiveState t i seq flags data).sockets j = t.sockets j := by
  unfold tcpReceiveState
  dsimp only
  split
  · exact t.set_sockets_of_ne h _
  · split
    · split <;> simp [tcpAck_sockets_of_ne _ h, Tcp.set_sockets_of_ne _ h]
    · rw [tcpReceiveFin_sockets_of_ne _ h, tcpReceiveData_sockets_of_ne _ h]
    · split
      · split <;> simp [tcpAck_sockets_of_ne _ h, Tcp.set_sockets_of_ne _ h]
      · rfl
    · split <;> simp [tcpAck_sockets_of_ne _ h, Tcp.set_sockets_of_ne _ h]
    · split <;> simp [Tcp.set_sockets_of_ne _ h]
    · rfl

lemma tcpReceive_sockets_of_ne {t : Tcp} {i : Fin tcpMaxSockets} {srcIp : UInt32}
    {p : List UInt8} (h : tcpTarget t srcIp p ≠ some i) :
    (tcpReceive t srcIp p).sockets i = t.sockets i := by
  unfold tcpReceive
  cases htgt : tcpTarget t srcIp p with
  | none => rfl
  | some j => exact tcpReceiveState_sockets_of_ne t (fun hij => h (by rw [htgt, hij])) _ _ _

lemma tcpReceiveData_rx (t : Tcp) (i : Fin tcpMaxSockets) (seq : UInt32) (data : List UInt8) :
    ((tcpReceiveData t i seq data).sockets i).rx = (t.sockets i).rx.pushAll data := by
  unfold tcpReceiveData
  cases data with
  | nil => rfl
  | cons x xs => simp

lemma tcpReceiveFin_rx (t : Tcp) (i : Fin tcpMaxSockets) (seq : UInt32) (flags : UInt8)
    (data : List UInt8) :
    ((tcpReceiveFin t i seq flags data).sockets i).rx = (t.sockets i).rx := by
  unfold tcpReceiveFin
  by_cases hfin : flags &&& tcpFlagFin ≠ 0
  · simp [hfin]
  · rw [if_neg hfin]

/-- The receive ring changes in the connected state only, and there by storing the data. -/
lemma tcpReceiveState_rx (t : Tcp) (i : Fin tcpMaxSockets) (seq : UInt32) (flags : UInt8)
    (data : List UInt8) :
    ((tcpReceiveState t i seq flags data).sockets i).rx =
      if flags &&& tcpFlagRst = 0 ∧ (t.sockets i).state = .established then
        (t.sockets i).rx.pushAll data
      else (t.sockets i).rx := by
  unfold tcpReceiveState
  dsimp only
  by_cases hrst : flags &&& tcpFlagRst = 0
  · rw [if_neg (by simp [hrst])]
    split
    case h_2 hst => simp [hrst, hst, tcpReceiveFin_rx, tcpReceiveData_rx]
    case h_1 hst | h_4 hst | h_5 hst => split <;> simp [hst]
    case h_3 hst =>
      split
      · split <;> simp [hst]
      · simp [hst]
    case h_6 h1 h2 h3 h4 h5 => rw [if_neg fun h => h2 h.2]
  · simp [hrst]

/-! ## The run -/

/-- A packet handed to `tcp_receive`, and the place in the peer's stream of the slice it
carries. -/
structure Arrival where
  srcIp : UInt32
  payload : List UInt8
  off : ℕ

/-- The packet as `net_poll` finds it. -/
def Arrival.poll (a : Arrival) : UInt32 × List UInt8 := (a.srcIp, a.payload)

/-- What happens in a run: a packet arrives, or the reader calls `tcp_recv`, whose waiting
loop may poll further packets. -/
inductive StreamEvent where
  | receive (a : Arrival)
  | recv (len : ℕ) (polls : List (Option Arrival))

/-- The TCP layer, and everything `tcp_recv` has returned so far. -/
structure StreamState where
  tcp : Tcp
  returned : List UInt8

/-- One event of a run, for the socket `i`. -/
def streamStep (i : Fin tcpMaxSockets) (s : StreamState) : StreamEvent → StreamState
  | .receive a => { s with tcp := tcpReceive s.tcp a.srcIp a.payload }
  | .recv len polls =>
    let r := tcpRecv s.tcp i len (polls.map (Option.map Arrival.poll))
    ⟨r.2, s.returned ++ r.1⟩

/-- Every packet of an event meets `P` in the state in which it reaches `tcp_receive`. -/
def PollsMeet (P : Tcp → Arrival → Prop) (stop : Tcp → Bool) :
    Tcp → List (Option Arrival) → Prop
  | _, [] => True
  | t, none :: ps => stop t = false → PollsMeet P stop t ps
  | t, some a :: ps => P t a ∧ (stop (tcpReceive t a.srcIp a.payload) = false →
      PollsMeet P stop (tcpReceive t a.srcIp a.payload) ps)

/-- The stop test of the waiting loop of `tcp_recv`. -/
def recvStop (i : Fin tcpMaxSockets) (t : Tcp) : Bool :=
  (t.sockets i).rx.len > 0 ∨ (t.sockets i).state ≠ .established

/-- The packets of one event meet `P`. -/
def EventMeets (i : Fin tcpMaxSockets) (P : Tcp → Arrival → Prop) (t : Tcp) :
    StreamEvent → Prop
  | .receive a => P t a
  | .recv len polls => len ≠ 0 → (t.sockets i).rx.len = 0 →
      (t.sockets i).state = .established → PollsMeet P (recvStop i) t polls

/-- The segment carries the slice of `S` at its offset, with the true sequence number, when
it is a segment for the socket `i`. -/
def CarriesSlice (S : List UInt8) (isn : UInt32) (i : Fin tcpMaxSockets) (t : Tcp)
    (a : Arrival) : Prop :=
  tcpTarget t a.srcIp a.payload = some i →
    a.off + (tcpData a.payload).length ≤ S.length ∧
    tcpData a.payload = (S.drop a.off).take (tcpData a.payload).length ∧
    (tcpHdr a.payload).seqNum = isn + 1 + UInt32.ofNat a.off

/-- The arrival stores at least one byte in the ring of the socket `i`. -/
def Stores (i : Fin tcpMaxSockets) (t : Tcp) (a : Arrival) : Prop :=
  tcpTarget t a.srcIp a.payload = some i ∧ (tcpHdr a.payload).flags &&& tcpFlagRst = 0 ∧
    (t.sockets i).state = .established ∧ (t.sockets i).rx.len < tcpRxBufSize ∧
    tcpData a.payload ≠ []

/-- A segment that is stored begins where the bytes stored before it end; `n` is the number
of bytes already returned to the reader. -/
def InOrder (i : Fin tcpMaxSockets) (n : ℕ) (t : Tcp) (a : Arrival) : Prop :=
  Stores i t a → a.off = n + (t.sockets i).rx.len

/-! ## Runs in which segments are stored in order -/

section Integrity

variable {S : List UInt8} {isn : UInt32} {i : Fin tcpMaxSockets}

/-- The bytes returned and the bytes in the ring are, in this order, a prefix of the
stream. -/
def StreamInv (S : List UInt8) (i : Fin tcpMaxSockets) (returned : List UInt8) (t : Tcp) :
    Prop :=
  (t.sockets i).rx.Wf ∧ returned ++ (t.sockets i).rx.contents <+: S

lemma prefix_append_slice {A data : List UInt8} {k : ℕ} (hA : A <+: S)
    (hlen : A.length + data.length ≤ S.length)
    (hdata : data = (S.drop A.length).take data.length) : A ++ data.take k <+: S := by
  obtain ⟨B, rfl⟩ := hA
  simp only [List.drop_left] at hdata
  have hpre : data <+: B := by
    rw [hdata]
    exact List.take_prefix _ _
  exact (List.prefix_append_right_inj A).mpr ((List.take_prefix _ _).trans hpre)

lemma streamInv_tcpReceive {returned : List UInt8} {t : Tcp} {a : Arrival}
    (h : StreamInv S i returned t) (hc : CarriesSlice S isn i t a)
    (ho : InOrder i returned.length t a) :
    StreamInv S i returned (tcpReceive t a.srcIp a.payload) := by
  obtain ⟨hwf, hpre⟩ := h
  unfold tcpReceive
  cases htgt : tcpTarget t a.srcIp a.payload with
  | none => exact ⟨hwf, hpre⟩
  | some j =>
    dsimp only
    by_cases hji : i = j
    · subst hji
      unfold StreamInv
      rw [tcpReceiveState_rx]
      split_ifs with hst
      · obtain ⟨hwf', hcont⟩ := RingBuf.pushAll_spec hwf (tcpData a.payload)
        refine ⟨hwf', ?_⟩
        rw [hcont, ← List.append_assoc]
        by_cases hroom : (t.sockets i).rx.len < tcpRxBufSize ∧ tcpData a.payload ≠ []
        · -- the segment is stored, and it begins at the end of what is stored
          have hoff := ho ⟨htgt, hst.1, hst.2, hroom.1, hroom.2⟩
          obtain ⟨hbound, hslice, -⟩ := hc htgt
          have hlen : (returned ++ (t.sockets i).rx.contents).length = a.off := by
            simp [hoff]
          exact prefix_append_slice hpre (by omega) (by rw [hlen]; exact hslice)
        · -- a full ring or an empty segment: nothing is stored
          have hnil : (tcpData a.payload).take (tcpRxBufSize - (t.sockets i).rx.len) = [] := by
            by_cases hlt : (t.sockets i).rx.len < tcpRxBufSize
            · have : tcpData a.payload = [] := by
                by_contra hne
                exact hroom ⟨hlt, hne⟩
              simp [this]
            · have : tcpRxBufSize - (t.sockets i).rx.len = 0 := by omega
              simp [this]
          simpa [hnil] using hpre
      · exact ⟨hwf, hpre⟩
    · simpa only [StreamInv, tcpReceiveState_sockets_of_ne t hji] using And.intro hwf hpre

lemma streamInv_pollUntil {returned : List UInt8} {stop : Tcp → Bool} :
    ∀ (ps : List (Option Arrival)) (t : Tcp), StreamInv S i returned t →
      PollsMeet (fun t a => CarriesSlice S isn i t a ∧ InOrder i returned.length t a) stop t ps →
      StreamInv S i returned (pollUntil stop t (ps.map (Option.map Arrival.poll))) := by
  intro ps
  induction ps with
  | nil => intro t h _; exact h
  | cons p ps ih =>
    intro t h hps
    -- one poll, and the rest of the loop when it does not stop there
    have hpoll : StreamInv S i returned (netPoll t (p.map Arrival.poll)) ∧
        (stop (netPoll t (p.map Arrival.poll)) = false →
          PollsMeet (fun t a => CarriesSlice S isn i t a ∧ InOrder i returned.length t a) stop
            (netPoll t (p.map Arrival.poll)) ps) := by
      cases p with
      | none => exact ⟨h, hps⟩
      | some a => exact ⟨streamInv_tcpReceive h hps.1.1 hps.1.2, hps.2⟩
    rw [List.map_cons, pollUntil]
    by_cases hstop : stop (netPoll t (p.map Arrival.poll)) = true
    · rw [if_pos hstop]
      exact hpoll.1
    · rw [if_neg hstop]
      exact ih _ hpoll.1 (hpoll.2 (by simpa using hstop))

lemma streamInv_tcpRecvWait {returned : List UInt8} {t : Tcp} {polls : List (Option Arrival)}
    (h : StreamInv S i returned t)
    (hps : (t.sockets i).rx.len = 0 → (t.sockets i).state = .established →
      PollsMeet (fun t a => CarriesSlice S isn i t a ∧ InOrder i returned.length t a)
        (recvStop i) t polls) :
    StreamInv S i returned (tcpRecvWait t i (polls.map (Option.map Arrival.poll))) := by
  unfold tcpRecvWait
  split_ifs with hwait
  · exact streamInv_pollUntil polls t h (hps hwait.1 hwait.2)
  · exact h

/-- A read moves bytes from the front of the ring to the reader. -/
lemma streamInv_tcpRecvCopy {returned : List UInt8} {t : Tcp} (len : ℕ)
    (h : StreamInv S i returned t) :
    StreamInv S i (returned ++ (tcpRecvCopy t i len).1) (tcpRecvCopy t i len).2 := by
  obtain ⟨hwf, hpre⟩ := h
  unfold tcpRecvCopy
  dsimp only
  split_ifs with hzero hlt
  · exact ⟨hwf, by simpa using hpre⟩
  · obtain ⟨h1, h2, h3⟩ := RingBuf.take_spec hwf (Nat.le_of_lt hlt)
    refine ⟨by simpa using h2, ?_⟩
    simpa [h1, h3, List.append_assoc] using hpre
  · obtain ⟨h1, h2, h3⟩ := RingBuf.take_spec hwf (Nat.le_refl _)
    refine ⟨by simpa using h2, ?_⟩
    simpa [h1, h3, List.append_assoc] using hpre

/-- What every event of a run is asked for: its segments carry true slices of the stream and
are stored in order. -/
def InOrderEvent (S : List UInt8) (isn : UInt32) (i : Fin tcpMaxSockets) (s : StreamState)
    (e : StreamEvent) : Prop :=
  EventMeets i (fun t a => CarriesSlice S isn i t a ∧ InOrder i s.returned.length t a) s.tcp e

lemma streamInv_step {s : StreamState} {e : StreamEvent}
    (h : StreamInv S i s.returned s.tcp) (he : InOrderEvent S isn i s e) :
    StreamInv S i (streamStep i s e).returned (streamStep i s e).tcp := by
  cases e with
  | receive a => exact streamInv_tcpReceive h he.1 he.2
  | recv len polls =>
    by_cases hlen : len = 0
    · simpa [streamStep, tcpRecv, hlen] using h
    · simp only [streamStep, tcpRecv, hlen, if_false]
      exact streamInv_tcpRecvCopy len (streamInv_tcpRecvWait h (he hlen))

/-- A socket that has just become connected: the acknowledgement number follows the peer's
initial sequence number, and the ring is empty. -/
structure JustEstablished (isn : UInt32) (sock : TcpSocket) : Prop where
  inUse : sock.inUse = true
  state : sock.state = .established
  ackNum : sock.ackNum = isn + 1
  wf : sock.rx.Wf
  empty : sock.rx.len = 0

/-- **Stream integrity.**  From a socket that has just become connected, through any run of
arrivals (duplicated, reordered, overlapping or lost) and reads in which every segment that
is stored begins where the last stored byte left off, the bytes returned by `tcp_recv` are a
prefix of the peer's stream. -/
theorem returned_prefix {t : Tcp} (ht : JustEstablished isn (t.sockets i))
    {es : List StreamEvent}
    (hes : Runs.StepsMeet (streamStep i) (InOrderEvent S isn i) ⟨t, []⟩ es) :
    (Runs.runFrom (streamStep i) ⟨t, []⟩ es).returned <+: S := by
  have hinit : StreamInv S i [] t := by
    refine ⟨ht.wf, ?_⟩
    have : (t.sockets i).rx.contents = [] := List.eq_nil_of_length_eq_zero (by simp [ht.empty])
    simp [this]
  have hrun := Runs.invariant_runFrom (I := fun s : StreamState => StreamInv S i s.returned s.tcp)
    (fun s e hs he => streamInv_step hs he) hinit hes
  exact (List.prefix_append _ _).trans hrun.2

end Integrity

/-! ## A connected socket, and two runs of it -/

/-- A connection of socket 0 to port 80 of a peer whose initial sequence number was 5000. -/
def connectedTcp : Tcp :=
  (tcpInit 0x0F02000A fun _ => true).set 0 { TcpSocket.zero with
    inUse := true
    state := .established
    localIp := 0x0F02000A
    localPort := 49152
    remoteIp := 0x0202000A
    remotePort := 80
    seqNum := 1001
    ackNum := 5001 }

/-- A data segment of that peer: sequence number `5001 + off`, one byte of data. -/
def dataSegment (off x : UInt8) : Arrival where
  srcIp := 0x0202000A
  payload := [0, 80, 0xC0, 0, 0, 0, 0x13, 0x89 + off, 0, 0, 0x03, 0xE9, 0x50, 0x18, 0x20, 0,
    0, 0, 0, 0, x]
  off := off.toNat

lemma connectedTcp_justEstablished : JustEstablished 5000 (connectedTcp.sockets 0) where
  inUse := rfl
  state := rfl
  ackNum := rfl
  wf := RingBuf.wf_empty 0 (by decide)
  empty := rfl

instance (S : List UInt8) (isn : UInt32) (i : Fin tcpMaxSockets) (t : Tcp) (a : Arrival) :
    Decidable (CarriesSlice S isn i t a) :=
  inferInstanceAs (Decidable (_ → _))

instance (i : Fin tcpMaxSockets) (n : ℕ) (t : Tcp) (a : Arrival) :
    Decidable (InOrder i n t a) :=
  inferInstanceAs (Decidable (_ ∧ _ ∧ _ ∧ _ ∧ _ → _))

/-- Two segments in order and a read: the hypotheses of `returned_prefix` are met. -/
theorem returned_prefix_two_segments :
    (Runs.runFrom (streamStep 0) ⟨connectedTcp, []⟩
      [.receive (dataSegment 0 7), .receive (dataSegment 1 8), .recv 5 []]).returned
        <+: [7, 8, 9] := by
  refine returned_prefix connectedTcp_justEstablished ?_
  refine ⟨?_, ?_, ?_, trivial⟩
  · exact (by decide : CarriesSlice [7, 8, 9] 5000 0 connectedTcp (dataSegment 0 7) ∧
      InOrder 0 0 connectedTcp (dataSegment 0 7))
  · exact (by decide : CarriesSlice [7, 8, 9] 5000 0
        (tcpReceive connectedTcp (dataSegment 0 7).srcIp (dataSegment 0 7).payload)
        (dataSegment 1 8) ∧
      InOrder 0 0 (tcpReceive connectedTcp (dataSegment 0 7).srcIp (dataSegment 0 7).payload)
        (dataSegment 1 8))
  · intro _ _ _
    trivial

/-- **A segment that arrives twice is delivered twice.**  Both arrivals carry the first byte
of the stream with its true sequence number; the reader gets that byte two times. -/
theorem returned_not_prefix_of_duplicate :
    JustEstablished 5000 (connectedTcp.sockets 0) ∧
    Runs.StepsMeet (streamStep 0)
      (fun s e => EventMeets 0 (CarriesSlice [7, 8, 9] 5000 0) s.tcp e) ⟨connectedTcp, []⟩
      [.receive (dataSegment 0 7), .receive (dataSegment 0 7), .recv 5 []] ∧
    ¬ (Runs.runFrom (streamStep 0) ⟨connectedTcp, []⟩
      [.receive (dataSegment 0 7), .receive (dataSegment 0 7), .recv 5 []]).returned
        <+: [7, 8, 9] := by
  refine ⟨connectedTcp_justEstablished, ⟨?_, ?_, ?_, trivial⟩, ?_⟩
  · exact (by decide : CarriesSlice [7, 8, 9] 5000 0 connectedTcp (dataSegment 0 7))
  · exact (by decide : CarriesSlice [7, 8, 9] 5000 0
      (tcpReceive connectedTcp (dataSegment 0 7).srcIp (dataSegment 0 7).payload)
      (dataSegment 0 7))
  · intro _ _ _
    trivial
  · have hret : (Runs.runFrom (streamStep 0) ⟨connectedTcp, []⟩
        [.receive (dataSegment 0 7), .receive (dataSegment 0 7), .recv 5 []]).returned
        = [7, 7] := by decide
    rw [hret]
    decide

end Bangos.Net
