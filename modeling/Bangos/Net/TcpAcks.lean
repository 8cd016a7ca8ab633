import Bangos.Net.TcpRing

/-!
# Acknowledgements in both directions

What the socket acknowledges, and what it takes for an acknowledgement.

The first half follows one connection whose peer sends its segments in sequence, each once,
and records at every acknowledgement the socket sends how many bytes of the stream were in
the ring or read from it by then.  `tcp_receive` computes the number it acknowledges from the
length of the segment, not from what the ring took, and it does not count a `FIN` that comes
with data; where neither matters the acknowledgements are honest (`acks_honest`).

The second half is about the other direction: `tcp_receive` never reads the acknowledgement
number of a segment, so a transition that waits for one is made by any segment with the right
flags (`ackDriven_acknowledges_iff`).
-/

namespace Bangos.Net

/-! ## The record of one connection -/

/-- An acknowledgement the socket sent, with the counts at that moment. -/
structure SentAck where
  ackNum : UInt32
  /-- The bytes of the stream stored in the ring so far. -/
  stored : ℕ
  /-- The bytes of the stream that have arrived so far. -/
  received : ℕ
  /-- The `FIN` of the peer has been consumed. -/
  finConsumed : Bool
deriving DecidableEq, Repr

/-- The number acknowledged is the number of bytes stored, one more for the `SYN` and one more
for a consumed `FIN`; and every byte that has arrived was stored. -/
def SentAck.Honest (isn : UInt32) (a : SentAck) : Prop :=
  a.ackNum = isn + 1 + UInt32.ofNat a.stored + (if a.finConsumed then 1 else 0) ∧
    a.stored = a.received

/-- The TCP layer, with the record of one connection. -/
structure AckLog where
  tcp : Tcp
  /-- The `SYN` of the peer has arrived. -/
  synSeen : Bool
  /-- The `FIN` of the peer has arrived. -/
  finSeen : Bool
  received : ℕ
  stored : ℕ
  finConsumed : Bool
  acks : List SentAck

/-- Some bit of `mask` is set. -/
def hasFlag (flags mask : UInt8) : Bool := flags &&& mask ≠ 0

/-- Go on to `t`, recording the acknowledgements sent on the way. -/
def logAcks (g : AckLog) (t : Tcp) : AckLog :=
  { g with
    tcp := t
    acks := g.acks ++
      ((t.sent.drop g.tcp.sent.length).filter fun s => hasFlag s.flags tcpFlagAck).map fun s =>
        ⟨s.ackNum, g.stored, g.received, g.finConsumed⟩ }

/-- The states other than the connected one in which `tcp_receive` consumes a `FIN`. -/
def consumesFin (st : TcpState) (flags : UInt8) : Bool :=
  !hasFlag flags tcpFlagRst && hasFlag flags tcpFlagFin &&
    (st = .finWait1 && hasFlag flags tcpFlagAck || st = .finWait2)

/-- A segment for the socket `i` reaches `tcp_receive`.  In the connected state the data are
stored and acknowledged before the `FIN` is looked at. -/
def ackReceive (i : Fin tcpMaxSockets) (g : AckLog) (p : List UInt8) : AckLog :=
  let seq := (tcpHdr p).seqNum
  let flags := (tcpHdr p).flags
  let data := tcpData p
  let sock := g.tcp.sockets i
  let g := { g with
    synSeen := g.synSeen || hasFlag flags tcpFlagSyn
    finSeen := g.finSeen || hasFlag flags tcpFlagFin
    received := g.received + data.length }
  if hasFlag flags tcpFlagRst = false ∧ sock.state = .established then
    let g := logAcks { g with stored := g.stored + (sock.rx.accepted data).length }
      (tcpReceiveData g.tcp i seq data)
    logAcks { g with finConsumed := g.finConsumed || hasFlag flags tcpFlagFin }
      (tcpReceiveFin g.tcp i seq flags data)
  else
    logAcks { g with finConsumed := g.finConsumed || consumesFin sock.state flags }
      (tcpReceiveState g.tcp i seq flags data)

/-- What happens to a connection: a segment arrives, `tcp_recv` copies, `tcp_close` sends its
`FIN` or gives the slot back. -/
inductive ConnEvent where
  | segment (srcIp : UInt32) (payload : List UInt8)
  | copy (len : ℕ)
  | fin
  | release

/-- The step of the TCP layer an event stands for. -/
def ConnEvent.step (i : Fin tcpMaxSockets) : ConnEvent → TcpStep
  | .segment srcIp payload => .poll (some (srcIp, payload))
  | .copy len => .copy i len
  | .fin => .fin i
  | .release => .release i

/-- One event of the connection of the socket `i`. -/
def connStep (i : Fin tcpMaxSockets) (g : AckLog) : ConnEvent → AckLog
  | .segment srcIp p =>
    if tcpTarget g.tcp srcIp p = some i then ackReceive i g p
    else { g with tcp := tcpReceive g.tcp srcIp p }
  | e => logAcks g (tcpStep g.tcp (e.step i))

/-! ## A peer in sequence -/

/-- The segment is the next one of a peer that sends every segment once and in sequence: its
number follows what the peer has sent, the first one is the `SYN`, and nothing but bare
segments follows the `FIN`. -/
def InSequence (isn : UInt32) (i : Fin tcpMaxSockets) (g : AckLog) : ConnEvent → Prop
  | .segment srcIp p => tcpTarget g.tcp srcIp p = some i →
      (tcpHdr p).seqNum = isn + (if g.synSeen then 1 else 0) + UInt32.ofNat g.received +
        (if g.finSeen then 1 else 0) ∧
      hasFlag (tcpHdr p).flags tcpFlagSyn = !g.synSeen ∧
      (g.finSeen = true → tcpData p = [] ∧ hasFlag (tcpHdr p).flags tcpFlagFin = false)
  | _ => True

/-- Data reach a connected socket, without a reset and with room for all of them in the ring,
and no `FIN` comes with data. -/
def Fits (i : Fin tcpMaxSockets) (g : AckLog) : ConnEvent → Prop
  | .segment srcIp p => tcpTarget g.tcp srcIp p = some i → tcpData p ≠ [] →
      (g.tcp.sockets i).state = .established ∧ hasFlag (tcpHdr p).flags tcpFlagRst = false ∧
      (tcpData p).length ≤ tcpRxBufSize - (g.tcp.sockets i).rx.len ∧
      hasFlag (tcpHdr p).flags tcpFlagFin = false
  | _ => True

/-- A socket that has sent its `SYN` and has received nothing. -/
structure JustSynSent (sock : TcpSocket) : Prop where
  state : sock.state = .synSent
  wf : sock.rx.Wf
  empty : sock.rx.len = 0

/-- The record of a connection at its start. -/
def AckLog.start (t : Tcp) : AckLog := ⟨t, false, false, 0, 0, false, []⟩

/-- What holds along the run of the connection in slot `i` whose peer starts at `isn`:
* the ring is in order, and all data that came has been stored in it (`wf`, `stored`);
* a `FIN` is only consumed when one was seen, and before the `SYN` nothing counts (`consumed`,
  `unseen`);
* in the states behind the handshake the `SYN` has been seen (`seen`);
* while the socket is connected or waits for its close, `ack_num` is the peer's number behind the
  `SYN`, the bytes stored and a `FIN` consumed (`ackNum`);
* every acknowledgement sent so far was honest when it was sent (`honest`). -/
structure AckInv (isn : UInt32) (i : Fin tcpMaxSockets) (g : AckLog) : Prop where
  wf : (g.tcp.sockets i).rx.Wf
  stored : g.stored = g.received
  consumed : g.finConsumed = true → g.finSeen = true
  unseen : g.synSeen = false → g.received = 0 ∧ g.finSeen = false
  seen : (g.tcp.sockets i).state = .established ∨ (g.tcp.sockets i).state = .finWait1 ∨
    (g.tcp.sockets i).state = .finWait2 → g.synSeen = true
  ackNum : (g.tcp.sockets i).state = .established ∨ (g.tcp.sockets i).state = .closeWait →
    (g.tcp.sockets i).ackNum =
      isn + 1 + UInt32.ofNat g.stored + (if g.finConsumed then 1 else 0)
  honest : ∀ a ∈ g.acks, a.Honest isn

/-! ## One event -/

section Honest

variable {isn : UInt32} {i : Fin tcpMaxSockets} {g : AckLog}

/-- A segment without data is always handed over; it carries the acknowledgement number of its
socket, whose sequence number is all that changes. -/
lemma tcpSendSegment_nil (t : Tcp) (i : Fin tcpMaxSockets) (flags : UInt8) :
    ∃ n seg, (tcpSendSegment t i flags []).2.sockets i = { t.sockets i with seqNum := n } ∧
      (tcpSendSegment t i flags []).2.sent = t.sent ++ [seg] ∧
      seg.ackNum = (t.sockets i).ackNum ∧ seg.flags = flags := by
  have hlen : ¬ tcpHdrSize + ([] : List UInt8).length > tcpTxBufferSize := by decide
  cases hok : t.ipv4SendOk t.sent.length with
  | true =>
    simp only [tcpSendSegment, hlen, hok, if_true, if_false, Tcp.set, Function.update_self]
    exact ⟨_, _, rfl, rfl, rfl, rfl⟩
  | false =>
    simp only [tcpSendSegment, hlen, hok, if_false, Bool.false_eq_true]
    exact ⟨(t.sockets i).seqNum, _, rfl, rfl, rfl, rfl⟩

lemma AckInv.of_same {t : Tcp} (hsent : t.sent = g.tcp.sent)
    (h : AckInv isn i { g with tcp := t }) : AckInv isn i (logAcks g t) := by
  have hlog : logAcks g t = { g with tcp := t } := by simp [logAcks, hsent]
  rwa [hlog]

/-- An acknowledgement sent with the right number keeps the invariant. -/
lemma AckInv.of_send {t : Tcp} {flags : UInt8} (hsent : t.sent = g.tcp.sent)
    (hflag : hasFlag flags tcpFlagAck = true) (h : AckInv isn i { g with tcp := t })
    (hack : (t.sockets i).ackNum =
      isn + 1 + UInt32.ofNat g.stored + (if g.finConsumed then 1 else 0)) :
    AckInv isn i (logAcks g (tcpSendSegment t i flags []).2) := by
  obtain ⟨n, seg, hsock, hseg, hnum, hf⟩ := tcpSendSegment_nil t i flags
  have hlog : logAcks g (tcpSendSegment t i flags []).2 = { g with
      tcp := (tcpSendSegment t i flags []).2
      acks := g.acks ++ [⟨(t.sockets i).ackNum, g.stored, g.received, g.finConsumed⟩] } := by
    simp [logAcks, hseg, hsent, hf, hflag, hnum]
  rw [hlog]
  refine ⟨?_, h.stored, h.consumed, h.unseen, ?_, ?_, ?_⟩
  · simpa [hsock] using h.wf
  · simpa [hsock] using h.seen
  · simpa [hsock] using h.ackNum
  · intro a ha
    rcases List.mem_append.mp ha with ha | ha
    · exact h.honest a ha
    · rw [List.mem_singleton] at ha
      subst ha
      exact ⟨hack, h.stored⟩

lemma ackInv_data {seq : UInt32} {data : List UInt8} (h : AckInv isn i g)
    (hst : (g.tcp.sockets i).state = .established)
    (hdata : data ≠ [] → seq = isn + 1 + UInt32.ofNat g.received ∧ g.finSeen = false ∧
      data.length ≤ tcpRxBufSize - (g.tcp.sockets i).rx.len) :
    AckInv isn i (logAcks { g with
      received := g.received + data.length
      stored := g.stored + ((g.tcp.sockets i).rx.accepted data).length }
      (tcpReceiveData g.tcp i seq data)) := by
  rcases eq_or_ne data [] with rfl | hne
  · simpa [tcpReceiveData, RingBuf.accepted] using AckInv.of_same (g := g) rfl h
  · obtain ⟨hseq, hfin, hroom⟩ := hdata hne
    have hpos : data.length > 0 := List.length_pos_of_ne_nil hne
    have hcons : g.finConsumed = false := by
      cases hc : g.finConsumed with
      | false => rfl
      | true => exact absurd (h.consumed hc) (by simp [hfin])
    have hall : ((g.tcp.sockets i).rx.accepted data).length = data.length := by
      rw [RingBuf.accepted_eq_take, List.length_take, Nat.min_eq_right hroom]
    have hnum : seq + UInt32.ofNat data.length =
        isn + 1 + UInt32.ofNat (g.stored + data.length) + 0 := by
      rw [hseq, h.stored, UInt32.ofNat_add]
      ac_rfl
    rw [tcpReceiveData, if_pos hpos, hall, tcpAck]
    refine AckInv.of_send rfl (by decide) ⟨?_, ?_, ?_, ?_, ?_, ?_, ?_⟩ ?_
    · simpa using (RingBuf.pushAll_spec h.wf data).1
    · simp [h.stored]
    · simpa using h.consumed
    · intro hs
      have := h.seen (.inl hst)
      simp_all
    · simpa using h.seen
    · intro _
      simpa [hcons] using hnum
    · simpa using h.honest
    · simpa [hcons] using hnum

lemma tcpReceiveData_state (t : Tcp) (i : Fin tcpMaxSockets) (seq : UInt32)
    (data : List UInt8) :
    ((tcpReceiveData t i seq data).sockets i).state = (t.sockets i).state := by
  unfold tcpReceiveData
  split_ifs
  · obtain ⟨n, seg, hsock, -⟩ := tcpSendSegment_nil (t.set i { t.sockets i with
      rx := (t.sockets i).rx.pushAll data
      ackNum := seq + UInt32.ofNat data.length }) i tcpFlagAck
    rw [tcpAck, hsock, Tcp.set_sockets_self]
  · rfl

/-- The socket moves to a state in which nothing is acknowledged any more, or to one that
needs no more than it. -/
lemma AckInv.of_state {st : TcpState} (h : AckInv isn i g)
    (hst : st = .finWait1 ∨ st = .finWait2 → g.synSeen = true)
    (h1 : st ≠ .established) (h2 : st ≠ .closeWait) :
    AckInv isn i { g with tcp := g.tcp.set i { g.tcp.sockets i with state := st } } := by
  refine ⟨?_, h.stored, h.consumed, h.unseen, ?_, ?_, h.honest⟩
  · simpa using h.wf
  · simpa [h1] using hst
  · simp [h1, h2]

/-- The socket moves to a state with a new acknowledgement number, and sends it. -/
lemma AckInv.of_answer {st : TcpState} {n : UInt32} {flags : UInt8} (h : AckInv isn i g)
    (hsyn : g.synSeen = true) (hflag : hasFlag flags tcpFlagAck = true)
    (hack : n = isn + 1 + UInt32.ofNat g.stored + (if g.finConsumed then 1 else 0)) :
    AckInv isn i (logAcks g (tcpSendSegment (g.tcp.set i { g.tcp.sockets i with
      ackNum := n, state := st }) i flags []).2) := by
  refine AckInv.of_send rfl hflag ⟨?_, h.stored, h.consumed, h.unseen, ?_, ?_, h.honest⟩ ?_
  · simpa using h.wf
  · exact fun _ => hsyn
  · simp [hack]
  · simpa using hack

/-- A `FIN` that has arrived after all bytes before it were stored is consumed. -/
lemma AckInv.consume (h : AckInv isn i g) {b : Bool} (hb : b = true → g.finSeen = true)
    (hst : b = true → (g.tcp.sockets i).state ≠ .established ∧
      (g.tcp.sockets i).state ≠ .closeWait) :
    AckInv isn i { g with finConsumed := g.finConsumed || b } := by
  cases b with
  | false => simpa using h
  | true =>
    refine ⟨h.wf, h.stored, fun _ => hb rfl, h.unseen, h.seen, ?_, h.honest⟩
    intro hc
    rcases hc with hc | hc
    · exact absurd hc (hst rfl).1
    · exact absurd hc (hst rfl).2

lemma ackInv_fin {seq : UInt32} {flags : UInt8} {data : List UInt8} (h : AckInv isn i g)
    (hst : (g.tcp.sockets i).state = .established)
    (hfin : hasFlag flags tcpFlagFin = true →
      data = [] ∧ seq = isn + 1 + UInt32.ofNat g.stored ∧ g.finSeen = true) :
    AckInv isn i (logAcks { g with finConsumed := g.finConsumed || hasFlag flags tcpFlagFin }
      (tcpReceiveFin g.tcp i seq flags data)) := by
  unfold tcpReceiveFin
  cases hf : hasFlag flags tcpFlagFin with
  | false =>
    have hzero : ¬ flags &&& tcpFlagFin ≠ 0 := by simpa [hasFlag] using hf
    rw [if_neg hzero]
    simpa using AckInv.of_same (g := g) rfl h
  | true =>
    obtain ⟨rfl, hseq, hseen⟩ := hfin hf
    have hne : flags &&& tcpFlagFin ≠ 0 := by simpa [hasFlag] using hf
    rw [if_pos hne]
    refine AckInv.of_send rfl (by decide)
      ⟨?_, h.stored, fun _ => hseen, h.unseen, ?_, ?_, h.honest⟩ ?_
    · simpa using h.wf
    · exact fun _ => h.seen (.inl hst)
    · simp [hseq]
    · simp [hseq]

lemma ackInv_other {seq : UInt32} {flags : UInt8} {data : List UInt8} (h : AckInv isn i g)
    (hsyn : g.synSeen = true)
    (hst : ¬ (hasFlag flags tcpFlagRst = false ∧ (g.tcp.sockets i).state = .established))
    (hfirst : (g.tcp.sockets i).state = .synSent →
      flags &&& (tcpFlagSyn ||| tcpFlagAck) = tcpFlagSyn ||| tcpFlagAck →
      seq = isn ∧ g.stored = 0 ∧ g.finConsumed = false)
    (hfin : hasFlag flags tcpFlagFin = true →
      (g.tcp.sockets i).state = .finWait1 ∨ (g.tcp.sockets i).state = .finWait2 →
      seq = isn + 1 + UInt32.ofNat g.stored ∧ g.finSeen = true) :
    AckInv isn i (logAcks { g with
        finConsumed := g.finConsumed || consumesFin (g.tcp.sockets i).state flags }
      (tcpReceiveState g.tcp i seq flags data)) := by
  unfold tcpReceiveState
  dsimp only
  -- a reset consumes nothing and closes the socket
  by_cases hrst : flags &&& tcpFlagRst ≠ 0
  · have hb : consumesFin (g.tcp.sockets i).state flags = false := by
      simp [consumesFin, hasFlag, hrst]
    rw [if_pos hrst, hb, Bool.or_false]
    exact AckInv.of_same rfl (h.of_state (by simp) (by simp) (by simp))
  · have hrst' : hasFlag flags tcpFlagRst = false := by simpa [hasFlag] using hrst
    rw [if_neg hrst]
    cases hstate : (g.tcp.sockets i).state with
    | established => exact absurd ⟨hrst', hstate⟩ hst
    | synSent =>
      have hb : consumesFin .synSent flags = false := by simp [consumesFin]
      rw [hb, Bool.or_false]
      dsimp only
      by_cases hsa : flags &&& (tcpFlagSyn ||| tcpFlagAck) = tcpFlagSyn ||| tcpFlagAck
      · obtain ⟨rfl, h0, hc⟩ := hfirst hstate hsa
        rw [if_pos hsa]
        exact h.of_answer hsyn (by decide) (by simp [h0, hc])
      · rw [if_neg hsa]
        exact AckInv.of_same rfl h
    | finWait1 =>
      dsimp only
      by_cases hack : flags &&& tcpFlagAck ≠ 0
      · rw [if_pos hack]
        by_cases hf : flags &&& tcpFlagFin ≠ 0
        · obtain ⟨hseq, hseen⟩ := hfin (by simpa [hasFlag] using hf) (.inl hstate)
          have hb : consumesFin .finWait1 flags = true := by
            simp [consumesFin, hasFlag, not_not.mp hrst, hf, hack]
          rw [if_pos hf, hb]
          exact (h.consume (fun _ => hseen) (by simp [hstate])).of_answer hsyn (by decide)
            (by simp [hseq])
        · have hb : consumesFin .finWait1 flags = false := by
            simp only [consumesFin, hasFlag, hf, decide_false, Bool.and_false, Bool.false_and]
          rw [if_neg hf, hb, Bool.or_false]
          exact AckInv.of_same rfl (h.of_state (fun _ => hsyn) (by simp) (by simp))
      · have hb : consumesFin .finWait1 flags = false := by
          simp [consumesFin, hasFlag, not_not.mp hack]
        rw [if_neg hack, hb, Bool.or_false]
        exact AckInv.of_same rfl h
    | finWait2 =>
      dsimp only
      by_cases hf : flags &&& tcpFlagFin ≠ 0
      · obtain ⟨hseq, hseen⟩ := hfin (by simpa [hasFlag] using hf) (.inr hstate)
        have hb : consumesFin .finWait2 flags = true := by
          simp [consumesFin, hasFlag, not_not.mp hrst, hf]
        rw [if_pos hf, hb]
        exact (h.consume (fun _ => hseen) (by simp [hstate])).of_answer hsyn (by decide)
          (by simp [hseq])
      · have hb : consumesFin .finWait2 flags = false := by
          simp only [consumesFin, hasFlag, hf, decide_false, Bool.and_false, Bool.false_and]
        rw [if_neg hf, hb, Bool.or_false]
        exact AckInv.of_same rfl h
    | lastAck =>
      have hb : consumesFin .lastAck flags = false := by simp [consumesFin]
      rw [hb, Bool.or_false]
      dsimp only
      split_ifs
      · exact AckInv.of_same rfl (h.of_state (by simp) (by simp) (by simp))
      · exact AckInv.of_same rfl h
    | closed | listen | synReceived | closeWait | closing | timeWait =>
      simpa [consumesFin] using AckInv.of_same (g := g) rfl h

/-- The peer's flags are noted; after the first segment its `SYN` has arrived. -/
lemma AckInv.see (h : AckInv isn i g) {s f : Bool} (hs : (g.synSeen || s) = true) :
    AckInv isn i { g with synSeen := g.synSeen || s, finSeen := g.finSeen || f } where
  wf := h.wf
  stored := h.stored
  consumed := fun hc => by simp [h.consumed hc]
  unseen := fun hu => absurd hu (by simp [hs])
  seen := fun _ => hs
  ackNum := h.ackNum
  honest := h.honest

/-- **One segment.** -/
lemma ackReceive_inv {srcIp : UInt32} {p : List UInt8} (h : AckInv isn i g)
    (htgt : tcpTarget g.tcp srcIp p = some i) (hseq : InSequence isn i g (.segment srcIp p))
    (hfit : Fits i g (.segment srcIp p)) : AckInv isn i (ackReceive i g p) := by
  obtain ⟨hnum, hsyn, hafter⟩ := hseq htgt
  have hfits := hfit htgt
  have hsee : (g.synSeen || hasFlag (tcpHdr p).flags tcpFlagSyn) = true := by
    rw [hsyn, Bool.or_not_self]
  -- the place of a segment that carries data or the `FIN`
  have hplace : g.synSeen = true → g.finSeen = false →
      (tcpHdr p).seqNum = isn + 1 + UInt32.ofNat g.received := by
    intro h1 h2
    simpa [h1, h2] using hnum
  have hfirst : hasFlag (tcpHdr p).flags tcpFlagFin = true → g.finSeen = false := by
    intro hf
    cases hs : g.finSeen with
    | false => rfl
    | true => exact absurd (hafter hs).2 (by simp [hf])
  unfold ackReceive
  dsimp only
  by_cases hst : hasFlag (tcpHdr p).flags tcpFlagRst = false ∧
      (g.tcp.sockets i).state = .established
  · have hseen := h.seen (.inl hst.2)
    rw [if_pos hst]
    refine ackInv_fin (ackInv_data (h.see hsee) hst.2 fun hne => ?_) ?_ fun hf => ?_
    · have hnofin := (hfits hne).2.2.2
      have hns : g.finSeen = false := by
        cases hs : g.finSeen with
        | false => rfl
        | true => exact absurd (hafter hs).1 hne
      exact ⟨hplace hseen hns, by simp [hns, hnofin], (hfits hne).2.2.1⟩
    · exact (tcpReceiveData_state _ _ _ _).trans hst.2
    · have hnil : tcpData p = [] := by
        by_contra hne
        exact absurd (hfits hne).2.2.2 (by simp [hf])
      refine ⟨hnil, ?_, by simp [logAcks, hf]⟩
      simpa [logAcks, hnil, RingBuf.accepted, h.stored] using hplace hseen (hfirst hf)
  · have hnil : tcpData p = [] := by
      by_contra hne
      exact hst ⟨(hfits hne).2.1, (hfits hne).1⟩
    rw [if_neg hst, hnil]
    refine ackInv_other (h.see hsee) hsee hst ?_ ?_
    · -- the answer to the `SYN`: the first segment of the peer
      intro _ hsa
      have hs : g.synSeen = false := by
        have : hasFlag (tcpHdr p).flags tcpFlagSyn = true := by
          simp only [hasFlag, decide_eq_true_eq]
          intro h0
          have h1 := congrArg (· &&& tcpFlagSyn) hsa
          simp only [UInt8.and_assoc] at h1
          rw [show (tcpFlagSyn ||| tcpFlagAck) &&& tcpFlagSyn = tcpFlagSyn by decide, h0] at h1
          exact absurd h1 (by decide)
        simpa [this] using hsyn
      obtain ⟨h0, hf⟩ := h.unseen hs
      refine ⟨by simpa [hs, h0, hf] using hnum, by rw [h.stored, h0], ?_⟩
      cases hc : g.finConsumed with
      | false => rfl
      | true => exact absurd (h.consumed hc) (by simp [hf])
    · intro hf hwait
      have hseen := h.seen (.inr hwait)
      refine ⟨?_, by simp [hf]⟩
      rw [h.stored]
      exact hplace hseen (hfirst hf)

lemma tcpRecvCopy_fields (t : Tcp) (i : Fin tcpMaxSockets) (len : ℕ) :
    (tcpRecvCopy t i len).2.sent = t.sent ∧
      ((tcpRecvCopy t i len).2.sockets i).state = (t.sockets i).state ∧
      ((tcpRecvCopy t i len).2.sockets i).ackNum = (t.sockets i).ackNum := by
  unfold tcpRecvCopy
  dsimp only
  by_cases hzero : (t.sockets i).rx.len = 0
  · rw [if_pos hzero]
    exact ⟨rfl, rfl, rfl⟩
  · rw [if_neg hzero, Tcp.set_sockets_self]
    exact ⟨rfl, rfl, rfl⟩

/-- **One event** keeps the invariant, when the peer is in sequence and what it sends fits. -/
lemma connStep_inv {e : ConnEvent} (h : AckInv isn i g) (hseq : InSequence isn i g e)
    (hfit : Fits i g e) : AckInv isn i (connStep i g e) := by
  cases e with
  | segment srcIp p =>
    rw [connStep]
    by_cases htgt : tcpTarget g.tcp srcIp p = some i
    · rw [if_pos htgt]
      exact ackReceive_inv h htgt hseq hfit
    · rw [if_neg htgt]
      have hsock := tcpReceive_sockets_of_ne htgt
      refine ⟨?_, h.stored, h.consumed, h.unseen, ?_, ?_, h.honest⟩
      · simpa [hsock] using h.wf
      · simpa [hsock] using h.seen
      · simpa [hsock] using h.ackNum
  | copy len =>
    have hwf := (tcpRecvCopy_rx h.wf len).1
    obtain ⟨hsent, hst, hack⟩ := tcpRecvCopy_fields g.tcp i len
    refine AckInv.of_same hsent ⟨hwf, h.stored, h.consumed, h.unseen, ?_, ?_, h.honest⟩
    · simpa only [ConnEvent.step, tcpStep, hst] using h.seen
    · simpa only [ConnEvent.step, tcpStep, hst, hack] using h.ackNum
  | fin =>
    simp only [connStep, ConnEvent.step, tcpStep, tcpCloseFin]
    split_ifs with h1 h2
    · refine AckInv.of_send rfl (by decide)
        (h.of_state (fun _ => h.seen (.inl h1)) (by simp) (by simp)) ?_
      simpa using h.ackNum (.inl h1)
    · refine AckInv.of_send rfl (by decide) (h.of_state (by simp) (by simp) (by simp)) ?_
      simpa using h.ackNum (.inr h2)
    · exact AckInv.of_same rfl h
  | release =>
    refine AckInv.of_same rfl ⟨?_, h.stored, h.consumed, h.unseen, ?_, ?_, h.honest⟩
    · simpa [ConnEvent.step, tcpStep] using h.wf
    · simp [ConnEvent.step, tcpStep]
    · simp [ConnEvent.step, tcpStep]

end Honest

/-- **Acknowledgements are honest** in every run of a connection, from its `SYN` on, whose
peer sends in sequence, whose data reach a connected socket with room for them, and whose
`FIN` comes without data. -/
theorem acks_honest {isn : UInt32} {i : Fin tcpMaxSockets} {t : Tcp}
    (ht : JustSynSent (t.sockets i)) {es : List ConnEvent}
    (hseq : Runs.StepsMeet (connStep i) (InSequence isn i) (AckLog.start t) es)
    (hfit : Runs.StepsMeet (connStep i) (Fits i) (AckLog.start t) es) :
    ∀ a ∈ (Runs.runFrom (connStep i) (AckLog.start t) es).acks, a.Honest isn := by
  have hinit : AckInv isn i (AckLog.start t) :=
    { wf := ht.wf
      stored := rfl
      consumed := by simp [AckLog.start]
      unseen := fun _ => ⟨rfl, rfl⟩
      seen := by simp [AckLog.start, ht.state]
      ackNum := by simp [AckLog.start, ht.state]
      honest := by simp [AckLog.start] }
  have hboth := Runs.stepsMeet_and.mpr ⟨hseq, hfit⟩
  exact (Runs.invariant_runFrom (fun g e hg he => connStep_inv hg he.1 he.2) hinit hboth).honest

/-! ## Two connections -/

/-- Socket 0 has sent its `SYN` to port 80 of a peer. -/
def synSentTcp : Tcp :=
  Runs.runFrom tcpStep (tcpInit 0x0F02000A fun _ => true) [.create, .syn 0 0x0202000A 80 0]

/-- A segment of that peer, whose initial sequence number is 5000: `off` bytes into its
stream. -/
def peerSegment (flags off : UInt8) (data : List UInt8) : ConnEvent :=
  .segment 0x0202000A ([0, 80, 0xC0, 0, 0, 0, 0x13, 0x89 + off, 0, 0, 0x03, 0xE9, 0x50, flags,
    0x20, 0, 0, 0, 0, 0] ++ data)

/-- The peer's answer to the `SYN`. -/
def peerSynAck : ConnEvent := .segment 0x0202000A (synAckSegment 0xE9)

lemma synSentTcp_justSynSent : JustSynSent (synSentTcp.sockets 0) where
  state := rfl
  wf := RingBuf.wf_empty 0 (by decide)
  empty := rfl

instance (isn : UInt32) (i : Fin tcpMaxSockets) (g : AckLog) (e : ConnEvent) :
    Decidable (InSequence isn i g e) :=
  match e with
  | .segment _ _ => inferInstanceAs (Decidable (_ → _ ∧ _ ∧ (_ → _ ∧ _)))
  | .copy _ | .fin | .release => inferInstanceAs (Decidable True)

instance (i : Fin tcpMaxSockets) (g : AckLog) (e : ConnEvent) : Decidable (Fits i g e) :=
  match e with
  | .segment _ _ => inferInstanceAs (Decidable (_ → _ → _ ∧ _ ∧ _ ∧ _))
  | .copy _ | .fin | .release => inferInstanceAs (Decidable True)

instance (isn : UInt32) (a : SentAck) : Decidable (a.Honest isn) :=
  inferInstanceAs (Decidable (_ ∧ _))

/-- A connection with one byte of data and a `FIN` of its own: four acknowledgements. -/
theorem acks_honest_one_byte :
    let es := [peerSynAck, peerSegment 0x18 0 [7], .copy 1, peerSegment 0x11 1 [], .fin, .release]
    (∀ a ∈ (Runs.runFrom (connStep 0) (AckLog.start synSentTcp) es).acks, a.Honest 5000) ∧
      (Runs.runFrom (connStep 0) (AckLog.start synSentTcp) es).acks.map SentAck.ackNum =
        [5001, 5002, 5003, 5003] :=
  ⟨acks_honest synSentTcp_justSynSent (by decide +kernel) (by decide +kernel),
    by decide +kernel⟩

/-- **A `FIN` that comes with data is not acknowledged.**  The last byte of the peer's stream
and its `FIN` arrive in one segment; the socket consumes both, and acknowledges the byte
twice. -/
theorem fin_with_data_not_acknowledged :
    let es := [peerSynAck, peerSegment 0x19 0 [7]]
    JustSynSent (synSentTcp.sockets 0) ∧
      Runs.StepsMeet (connStep 0) (InSequence 5000 0) (AckLog.start synSentTcp) es ∧
      ∃ a ∈ (Runs.runFrom (connStep 0) (AckLog.start synSentTcp) es).acks,
        a.ackNum ≠ 5000 + 1 + UInt32.ofNat a.stored + (if a.finConsumed then 1 else 0) :=
  ⟨synSentTcp_justSynSent, by decide +kernel, by decide +kernel⟩

/-! ## The acknowledgements of the peer -/

/-- The acknowledgement number of a segment, `ntohl(hdr->ack_num)`. -/
def tcpHdrAck (p : List UInt8) : UInt32 := be32 p 8

/-- A transition that an acknowledgement of the socket's `SYN` or `FIN` drives. -/
def AckDriven : TcpState → TcpState → Prop
  | .synSent, .established => True
  | .finWait1, .finWait2 => True
  | .finWait1, .timeWait => True
  | .lastAck, .closed => True
  | _, _ => False

/-- The flags `tcp_receive` waits for in a state. -/
def AwaitedFlags (st : TcpState) (flags : UInt8) : Prop :=
  match st with
  | .synSent => flags &&& (tcpFlagSyn ||| tcpFlagAck) = tcpFlagSyn ||| tcpFlagAck
  | .finWait1 | .lastAck => flags &&& tcpFlagAck ≠ 0
  | _ => False

lemma tcpAck_state (t : Tcp) (i : Fin tcpMaxSockets) :
    ((tcpAck t i).sockets i).state = (t.sockets i).state := by
  obtain ⟨n, seg, hsock, -⟩ := tcpSendSegment_nil t i tcpFlagAck
  rw [tcpAck, hsock]

/-- The transitions that wait for an acknowledgement are made by the awaited flags alone. -/
lemma ackDriven_iff (t : Tcp) (i : Fin tcpMaxSockets) (seq : UInt32) {flags : UInt8}
    (data : List UInt8) (hrst : flags &&& tcpFlagRst = 0) :
    AckDriven (t.sockets i).state ((tcpReceiveState t i seq flags data).sockets i).state ↔
      AwaitedFlags (t.sockets i).state flags := by
  have hrst' : ¬ flags &&& tcpFlagRst ≠ 0 := not_not.mpr hrst
  simp only [tcpReceiveState, if_neg hrst']
  cases hst : (t.sockets i).state with
  | synSent =>
    dsimp only [AwaitedFlags]
    split_ifs with h <;> simp [tcpAck_state, AckDriven, hst, h]
  | finWait1 =>
    dsimp only [AwaitedFlags]
    split_ifs with h h' <;> simp [tcpAck_state, AckDriven, hst, h]
  | lastAck =>
    dsimp only [AwaitedFlags]
    split_ifs with h <;> simp [AckDriven, hst, h]
  | _ => simp [AckDriven, AwaitedFlags]

/-- **A transition that waits for an acknowledgement** is made only by segments that
acknowledge the `SYN` or the `FIN` of the socket exactly when the segment, if it is for the
socket and has the flags that are waited for, acknowledges its sequence number. -/
theorem ackDriven_acknowledges_iff (t : Tcp) (srcIp : UInt32) (p : List UInt8)
    (i : Fin tcpMaxSockets) :
    ((tcpHdr p).flags &&& tcpFlagRst = 0 →
        AckDriven (t.sockets i).state ((tcpReceive t srcIp p).sockets i).state →
        tcpHdrAck p = (t.sockets i).seqNum) ↔
      (tcpTarget t srcIp p = some i → (tcpHdr p).flags &&& tcpFlagRst = 0 →
        AwaitedFlags (t.sockets i).state (tcpHdr p).flags →
        tcpHdrAck p = (t.sockets i).seqNum) := by
  by_cases htgt : tcpTarget t srcIp p = some i
  · have hstep : tcpReceive t srcIp p =
        tcpReceiveState t i (tcpHdr p).seqNum (tcpHdr p).flags (tcpData p) := by
      rw [tcpReceive, htgt]
    constructor
    · intro h _ hrst hflags
      exact h hrst (by rw [hstep]; exact (ackDriven_iff _ _ _ _ hrst).mpr hflags)
    · intro h hrst hdriven
      rw [hstep] at hdriven
      exact h htgt hrst ((ackDriven_iff _ _ _ _ hrst).mp hdriven)
  · -- a segment for another socket makes no transition here
    have hnone : ∀ st, ¬ AckDriven st st := by
      intro st
      cases st <;> exact id
    rw [tcpReceive_sockets_of_ne htgt]
    exact ⟨fun _ h => absurd h htgt, fun _ _ h => absurd h (hnone _)⟩

/-- **A connection is opened by any `SYN|ACK`.**  The peer acknowledges 768 where the socket
has just sent the sequence number 1000. -/
theorem established_by_wrong_ack :
    (tcpHdr (synAckSegment 0)).flags &&& tcpFlagRst = 0 ∧
      (synSentTcp.sockets 0).state = .synSent ∧
      ((tcpReceive synSentTcp 0x0202000A (synAckSegment 0)).sockets 0).state = .established ∧
      tcpHdrAck (synAckSegment 0) ≠ (synSentTcp.sockets 0).seqNum := by
  decide +kernel

end Bangos.Net
