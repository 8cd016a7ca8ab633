import Bangos.Net.TcpCalls

/-!
# The receive ring is a bounded queue

One slot of the sockets table is followed through runs of all calls of the TCP layer.  Beside
the state run two lists: the bytes `tcp_receive` has stored in the ring of that slot, and the
bytes `tcp_recv` has returned from it, both since the slot was last handed out.  The ring
holds the difference (`ring_is_fifo`): what was returned, followed by what the ring still
holds, is what was stored.
-/

namespace Bangos.Net

/-! ## What is stored and what is returned -/

/-- The bytes of a polled segment that are stored in the ring of the socket `i`: those met
while the ring is not full, when the segment is for a connected socket and is no reset. -/
def pollStored (i : Fin tcpMaxSockets) (t : Tcp) : Poll → List UInt8
  | none => []
  | some (ip, p) =>
    if tcpTarget t ip p = some i ∧ (tcpHdr p).flags &&& tcpFlagRst = 0 ∧
        (t.sockets i).state = .established then
      (t.sockets i).rx.accepted (tcpData p)
    else []

/-- The bytes a step stores in the ring of the socket `i`. -/
def stepStored (i : Fin tcpMaxSockets) (t : Tcp) : TcpStep → List UInt8
  | .poll p => pollStored i t p
  | _ => []

/-- The bytes a run of steps stores in the ring of the socket `i`. -/
def storedOver (i : Fin tcpMaxSockets) : Tcp → List TcpStep → List UInt8
  | _, [] => []
  | t, e :: es => stepStored i t e ++ storedOver i (tcpStep t e) es

/-- The bytes a call returns from the socket `i`. -/
def callReturned (i : Fin tcpMaxSockets) (t : Tcp) : TcpCall → List UInt8
  | .recv j len polls => if j = i then (tcpRecv t j len polls).1 else []
  | _ => []

/-- The call hands out the slot `i`. -/
def TcpCall.opens (i : Fin tcpMaxSockets) (t : Tcp) : TcpCall → Prop
  | .create => (tcpSocketCreate t).1 = some i
  | _ => False

instance (i : Fin tcpMaxSockets) (t : Tcp) (c : TcpCall) : Decidable (c.opens i t) := by
  cases c <;> unfold TcpCall.opens <;> infer_instance

/-- The TCP layer, with the bytes stored in one ring and the bytes returned from it. -/
structure RingLog where
  tcp : Tcp
  stored : List UInt8
  returned : List UInt8

/-- One call of a run; the record starts anew when the slot is handed out again. -/
def ringCall (i : Fin tcpMaxSockets) (s : RingLog) (c : TcpCall) : RingLog :=
  if c.opens i s.tcp then ⟨tcpCall s.tcp c, [], []⟩
  else
    { tcp := tcpCall s.tcp c
      stored := s.stored ++ storedOver i s.tcp (c.steps s.tcp)
      returned := s.returned ++ callReturned i s.tcp c }

/-- The ring is in order, and it holds what was stored and not yet returned. -/
structure RingHolds (i : Fin tcpMaxSockets) (s : RingLog) : Prop where
  wf : (s.tcp.sockets i).rx.Wf
  fifo : s.returned ++ (s.tcp.sockets i).rx.contents = s.stored

/-! ## One step -/

/-- The bytes a step returns from the socket `i`. -/
def stepReturned (i : Fin tcpMaxSockets) (t : Tcp) : TcpStep → List UInt8
  | .copy j len => if j = i then (tcpRecvCopy t j len).1 else []
  | _ => []

/-- The bytes a run of steps returns from the socket `i`. -/
def returnedOver (i : Fin tcpMaxSockets) : Tcp → List TcpStep → List UInt8
  | _, [] => []
  | t, e :: es => stepReturned i t e ++ returnedOver i (tcpStep t e) es

section Steps

variable {i : Fin tcpMaxSockets} {t : Tcp}

lemma set_rx_of_same {j : Fin tcpMaxSockets} {s : TcpSocket} (h : s.rx = (t.sockets j).rx) :
    ((t.set j s).sockets i).rx = (t.sockets i).rx := by
  by_cases hij : i = j
  · subst hij
    rw [Tcp.set_sockets_self, h]
  · rw [t.set_sockets_of_ne hij]

/-- The ring after a poll: what the poll stores is appended to it. -/
lemma netPoll_rx (hwf : (t.sockets i).rx.Wf) (p : Poll) :
    ((netPoll t p).sockets i).rx.Wf ∧
      ((netPoll t p).sockets i).rx.contents =
        (t.sockets i).rx.contents ++ pollStored i t p := by
  cases p with
  | none => exact ⟨hwf, by simp [netPoll, pollStored]⟩
  | some ipp =>
    obtain ⟨ip, p⟩ := ipp
    simp only [netPoll, tcpReceive, pollStored]
    cases htgt : tcpTarget t ip p with
    | none => exact ⟨hwf, by simp⟩
    | some j =>
      dsimp only
      by_cases hij : i = j
      · subst hij
        rw [tcpReceiveState_rx]
        by_cases hst : (tcpHdr p).flags &&& tcpFlagRst = 0 ∧ (t.sockets i).state = .established
        · obtain ⟨hwf', hc⟩ := RingBuf.pushAll_spec hwf (tcpData p)
          rw [if_pos hst, if_pos ⟨rfl, hst⟩, RingBuf.accepted_eq_take]
          exact ⟨hwf', hc⟩
        · rw [if_neg hst, if_neg fun h => hst h.2, List.append_nil]
          exact ⟨hwf, rfl⟩
      · rw [tcpReceiveState_sockets_of_ne t hij, if_neg fun h => hij (Option.some.inj h.1).symm,
          List.append_nil]
        exact ⟨hwf, rfl⟩

/-- The ring after a copy: what the copy returns is cut off its front. -/
lemma tcpRecvCopy_rx (hwf : (t.sockets i).rx.Wf) (len : ℕ) :
    (((tcpRecvCopy t i len).2).sockets i).rx.Wf ∧
      (tcpRecvCopy t i len).1 ++ (((tcpRecvCopy t i len).2).sockets i).rx.contents =
        (t.sockets i).rx.contents := by
  unfold tcpRecvCopy
  dsimp only
  by_cases hzero : (t.sockets i).rx.len = 0
  · rw [if_pos hzero]
    exact ⟨hwf, rfl⟩
  · rw [if_neg hzero]
    have hle : (if len < (t.sockets i).rx.len then len else (t.sockets i).rx.len) ≤
        (t.sockets i).rx.len := by
      split_ifs <;> omega
    obtain ⟨h1, h2, h3⟩ := RingBuf.take_spec hwf hle
    refine ⟨by simpa using h2, ?_⟩
    simp [h1, h3]

lemma tcpRecvCopy_sockets_of_ne {j : Fin tcpMaxSockets} (h : i ≠ j) (len : ℕ) :
    ((tcpRecvCopy t j len).2).sockets i = t.sockets i := by
  unfold tcpRecvCopy
  dsimp only
  split_ifs
  · rfl
  · exact t.set_sockets_of_ne h _
  · exact t.set_sockets_of_ne h _

lemma tcpCloseFin_rx (j : Fin tcpMaxSockets) :
    ((tcpCloseFin t j).sockets i).rx = (t.sockets i).rx := by
  unfold tcpCloseFin
  split_ifs
  · rw [tcpSendSegment_rx, set_rx_of_same (by rfl)]
  · rw [tcpSendSegment_rx, set_rx_of_same (by rfl)]
  · rfl

/-- **One step.**  A step that does not create a socket appends what it stores to the ring
and cuts off what it returns. -/
lemma tcpStep_rx (hwf : (t.sockets i).rx.Wf) {e : TcpStep} (he : e ≠ .create) :
    ((tcpStep t e).sockets i).rx.Wf ∧
      stepReturned i t e ++ ((tcpStep t e).sockets i).rx.contents =
        (t.sockets i).rx.contents ++ stepStored i t e := by
  -- all but polls and copies leave every ring as it is
  have hsame : ((tcpStep t e).sockets i).rx = (t.sockets i).rx → stepReturned i t e = [] →
      stepStored i t e = [] → ((tcpStep t e).sockets i).rx.Wf ∧
      stepReturned i t e ++ ((tcpStep t e).sockets i).rx.contents =
        (t.sockets i).rx.contents ++ stepStored i t e := by
    intro h hr hs
    rw [h, hr, hs, List.nil_append, List.append_nil]
    exact ⟨hwf, rfl⟩
  cases e with
  | create => exact absurd rfl he
  | syn j dstIp dstPort tsc =>
    refine hsame ?_ rfl rfl
    rw [tcpStep, tcpConnectSyn, tcpSendSegment_rx, set_rx_of_same (by rfl)]
  | giveUp j => exact hsame (set_rx_of_same (by rfl)) rfl rfl
  | chunk j data => exact hsame (tcpSendSegment_rx t j i _ _) rfl rfl
  | copy j len =>
    by_cases hij : i = j
    · subst hij
      simpa [tcpStep, stepReturned, stepStored] using tcpRecvCopy_rx hwf len
    · refine hsame ?_ (by rw [stepReturned, if_neg fun h => hij h.symm]) rfl
      rw [tcpStep, tcpRecvCopy_sockets_of_ne hij]
  | fin j => exact hsame (tcpCloseFin_rx j) rfl rfl
  | release j => exact hsame (set_rx_of_same (by rfl)) rfl rfl
  | poll p => simpa [stepReturned, stepStored, tcpStep] using netPoll_rx hwf p

lemma runFrom_rx {es : List TcpStep} (hes : ∀ e ∈ es, e ≠ .create)
    (hwf : (t.sockets i).rx.Wf) :
    ((Runs.runFrom tcpStep t es).sockets i).rx.Wf ∧
      returnedOver i t es ++ ((Runs.runFrom tcpStep t es).sockets i).rx.contents =
        (t.sockets i).rx.contents ++ storedOver i t es := by
  induction es generalizing t with
  | nil => exact ⟨hwf, by simp [returnedOver, storedOver]⟩
  | cons e es ih =>
    rw [List.forall_mem_cons] at hes
    obtain ⟨hwf1, h1⟩ := tcpStep_rx hwf hes.1
    obtain ⟨hwf2, h2⟩ := ih hes.2 hwf1
    refine ⟨hwf2, ?_⟩
    rw [Runs.runFrom_cons, returnedOver, storedOver, List.append_assoc, h2,
      ← List.append_assoc, h1, List.append_assoc]

end Steps

/-! ## One call, and every run -/

section Calls

variable {i : Fin tcpMaxSockets} {t : Tcp}

lemma returnedOver_append (i : Fin tcpMaxSockets) (t : Tcp) (es es' : List TcpStep) :
    returnedOver i t (es ++ es') =
      returnedOver i t es ++ returnedOver i (Runs.runFrom tcpStep t es) es' := by
  induction es generalizing t with
  | nil => rfl
  | cons e es ih => simp [returnedOver, ih]

lemma returnedOver_eq_nil {es : List TcpStep} (h : ∀ e ∈ es, ∀ j len, e ≠ .copy j len) :
    returnedOver i t es = [] := by
  induction es generalizing t with
  | nil => rfl
  | cons e es ih =>
    rw [List.forall_mem_cons] at h
    rw [returnedOver, ih h.2, List.append_nil]
    cases e with
    | copy j len => exact absurd rfl (h.1 j len)
    | _ => rfl

lemma returnedOver_polls (t : Tcp) (ps : List Poll) :
    returnedOver i t (ps.map .poll) = [] := by
  refine returnedOver_eq_nil fun e he j len => ?_
  obtain ⟨p, -, rfl⟩ := List.mem_map.mp he
  exact TcpStep.noConfusion

/-- What the steps of a call return is what the call returns. -/
lemma returnedOver_steps (i : Fin tcpMaxSockets) (t : Tcp) (c : TcpCall) :
    returnedOver i t (c.steps t) = callReturned i t c := by
  cases c with
  | recv j len polls =>
    simp only [TcpCall.steps, callReturned, tcpRecv]
    by_cases hlen : len = 0
    · simp [hlen, returnedOver]
    · rw [if_neg hlen, if_neg hlen, returnedOver_append, tcpRecvWait]
      by_cases hwait : (t.sockets j).rx.len = 0 ∧ (t.sockets j).state = .established
      · rw [if_pos hwait, if_pos hwait, returnedOver_polls, runFrom_polled, List.nil_append,
          returnedOver, returnedOver, List.append_nil]
        rfl
      · rw [if_neg hwait, if_neg hwait]
        simp [returnedOver, stepReturned]
  | _ =>
    refine returnedOver_eq_nil fun e he j len hcopy => ?_
    obtain ⟨polls, hc⟩ := (mem_steps he).2 j len hcopy
    exact TcpCall.noConfusion hc

/-- A socket is created with an empty ring; the other rings stay as they are. -/
lemma tcpSocketCreate_rx (t : Tcp) (i : Fin tcpMaxSockets) :
    (((tcpSocketCreate t).2).sockets i).rx =
      if (tcpSocketCreate t).1 = some i then RingBuf.empty 0 else (t.sockets i).rx := by
  unfold tcpSocketCreate
  cases hfree : (List.finRange tcpMaxSockets).find? fun i => !(t.sockets i).inUse with
  | none => rfl
  | some j =>
    dsimp only
    by_cases hij : i = j
    · subst hij
      rw [if_pos rfl]
      simp [Tcp.set, TcpSocket.zero]
    · rw [if_neg fun h => hij (Option.some.inj h).symm]
      simp [Tcp.set, hij]

/-- A ring that has just been handed out is empty, and nothing was stored in it yet. -/
lemma ringHolds_of_create (h : (tcpSocketCreate t).1 = some i) :
    RingHolds i ⟨(tcpSocketCreate t).2, [], []⟩ := by
  have hrx := tcpSocketCreate_rx t i
  rw [if_pos h] at hrx
  refine ⟨?_, ?_⟩
  · rw [hrx]
    exact RingBuf.wf_empty 0 (by decide)
  · rw [hrx]
    rfl

/-- **One call** keeps the ring in order, whichever socket it is made on. -/
lemma ringCall_holds {s : RingLog} (h : RingHolds i s) (c : TcpCall) :
    RingHolds i (ringCall i s c) := by
  unfold ringCall
  by_cases hopen : c.opens i s.tcp
  · rw [if_pos hopen]
    cases c with
    | create => exact ringHolds_of_create hopen
    | _ => exact hopen.elim
  · rw [if_neg hopen]
    by_cases hc : c = .create
    · -- another slot was handed out, or none
      subst hc
      have hrx := tcpSocketCreate_rx s.tcp i
      rw [if_neg (show ¬ (tcpSocketCreate s.tcp).1 = some i from hopen)] at hrx
      refine ⟨?_, ?_⟩
      · simpa only [tcpCall, hrx] using h.wf
      · simpa [tcpCall, hrx, storedOver, stepStored, callReturned, TcpCall.steps] using h.fifo
    · obtain ⟨hwf, hrun⟩ := runFrom_rx (i := i) (t := s.tcp)
        (fun e (he : e ∈ c.steps s.tcp) hce => hc ((mem_steps he).1 hce)) h.wf
      rw [← tcpCall_steps] at hwf hrun
      refine ⟨hwf, ?_⟩
      dsimp only
      rw [← returnedOver_steps, List.append_assoc, hrun, ← List.append_assoc, h.fifo]

end Calls

/-- **The receive ring is a bounded queue.**  After any run of calls on any sockets, from the
creation of the socket on, the ring holds at most `TCP_RX_BUF_SIZE` bytes, its write index is
`rx_len` cells after its read index, and the bytes `tcp_recv` returned, followed by the
`rx_len` bytes from `rx_head` on, are the bytes `tcp_receive` stored. -/
theorem ring_is_fifo {t : Tcp} {i : Fin tcpMaxSockets} (h : (tcpSocketCreate t).1 = some i)
    (cs : List TcpCall) :
    let s := Runs.runFrom (ringCall i) ⟨(tcpSocketCreate t).2, [], []⟩ cs
    let rx := (s.tcp.sockets i).rx
    rx.len ≤ tcpRxBufSize ∧ rx.tail = (rx.head + rx.len) % tcpRxBufSize ∧
      s.returned ++ (List.range rx.len).map (fun k => rx.buf ((rx.head + k) % tcpRxBufSize)) =
        s.stored := by
  have hrun := Runs.invariant_runFrom_of_step (I := RingHolds i)
    (fun s c hs => ringCall_holds hs c) (ringHolds_of_create h) cs
  exact ⟨hrun.wf.len_le, hrun.wf.tail_eq, hrun.fifo⟩

/-- The answer of the peer of `connectedTcp` to a `SYN`, acknowledging the number `ack`. -/
def synAckSegment (ack : UInt8) : List UInt8 :=
  [0, 80, 0xC0, 0, 0, 0, 0x13, 0x88, 0, 0, 0x03, ack, 0x50, 0x12, 0x20, 0, 0, 0, 0, 0]

/-- A socket connects, two bytes arrive, one of them is read. -/
def shortConnection : List TcpCall :=
  [.connect 0 0x0202000A 80 0 [some (0x0202000A, synAckSegment 0xE9)],
    .receive 0x0202000A (dataSegment 0 7).payload, .receive 0x0202000A (dataSegment 1 8).payload,
    .recv 0 1 []]

theorem ring_is_fifo_shortConnection :
    let s := Runs.runFrom (ringCall 0)
      ⟨(tcpSocketCreate (tcpInit 0x0F02000A fun _ => true)).2, [], []⟩ shortConnection
    let rx := (s.tcp.sockets 0).rx
    (rx.len ≤ tcpRxBufSize ∧ rx.tail = (rx.head + rx.len) % tcpRxBufSize ∧
      s.returned ++ (List.range rx.len).map (fun k => rx.buf ((rx.head + k) % tcpRxBufSize)) =
        s.stored) ∧ s.stored = [7, 8] ∧ s.returned = [7] :=
  ⟨ring_is_fifo (by decide) shortConnection, by decide +kernel, by decide +kernel⟩

end Bangos.Net
