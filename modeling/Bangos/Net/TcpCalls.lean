import Bangos.Net.TcpStream

/-!
# The calls of the TCP layer, step by step

`tcp_connect`, `tcp_send`, `tcp_recv` and `tcp_close` poll the network while they wait, so a
segment may reach `tcp_receive` in the middle of any of them.  A call is therefore cut into
steps between which the network may act: the part before its polling loop, the polls, and the
part after it.  `tcpCall_steps` says that a call is the run of its steps; what every step
preserves then holds of all calls, in every interleaving.
-/

namespace Bangos.Net

/-- A call of the TCP layer, with what the network hands over while it polls. -/
inductive TcpCall where
  | create
  | connect (i : Fin tcpMaxSockets) (dstIp : UInt32) (dstPort : UInt16) (tsc : ℕ)
      (polls : List Poll)
  | send (i : Fin tcpMaxSockets) (data : List UInt8) (polls : List Poll)
  | recv (i : Fin tcpMaxSockets) (len : ℕ) (polls : List Poll)
  | close (i : Fin tcpMaxSockets) (polls : List Poll)
  | receive (srcIp : UInt32) (payload : List UInt8)

/-- The effect of a call on the TCP layer. -/
def tcpCall (t : Tcp) : TcpCall → Tcp
  | .create => (tcpSocketCreate t).2
  | .connect i dstIp dstPort tsc polls => (tcpConnect t i dstIp dstPort tsc polls).2
  | .send i data polls => (tcpSend t i data polls).2
  | .recv i len polls => (tcpRecv t i len polls).2
  | .close i polls => tcpClose t i polls
  | .receive srcIp payload => tcpReceive t srcIp payload

/-- A step between two polls of the network. -/
inductive TcpStep where
  | create
  /-- The socket is pointed at its peer and the `SYN` is sent. -/
  | syn (i : Fin tcpMaxSockets) (dstIp : UInt32) (dstPort : UInt16) (tsc : ℕ)
  /-- `tcp_connect` gives up. -/
  | giveUp (i : Fin tcpMaxSockets)
  /-- `tcp_send` sends one chunk. -/
  | chunk (i : Fin tcpMaxSockets) (data : List UInt8)
  /-- `tcp_recv` copies out of the ring. -/
  | copy (i : Fin tcpMaxSockets) (len : ℕ)
  /-- `tcp_close` sends its `FIN`. -/
  | fin (i : Fin tcpMaxSockets)
  /-- `tcp_close` gives the slot back. -/
  | release (i : Fin tcpMaxSockets)
  | poll (p : Poll)

/-- The first part of `tcp_connect`. -/
def tcpConnectSyn (t : Tcp) (i : Fin tcpMaxSockets) (dstIp : UInt32) (dstPort : UInt16)
    (tsc : ℕ) : Bool × Tcp :=
  tcpSendSegment (t.set i { t.sockets i with
    remoteIp := dstIp
    remotePort := dstPort
    seqNum := 1000 + UInt32.ofNat (tsc % 0x10000)
    ackNum := 0
    state := .synSent }) i tcpFlagSyn []

/-- The first part of `tcp_close`. -/
def tcpCloseFin (t : Tcp) (i : Fin tcpMaxSockets) : Tcp :=
  if (t.sockets i).state = .established then
    (tcpSendSegment (t.set i { t.sockets i with state := .finWait1 }) i
      (tcpFlagFin ||| tcpFlagAck) []).2
  else if (t.sockets i).state = .closeWait then
    (tcpSendSegment (t.set i { t.sockets i with state := .lastAck }) i
      (tcpFlagFin ||| tcpFlagAck) []).2
  else t

/-- The effect of a step on the TCP layer. -/
def tcpStep (t : Tcp) : TcpStep → Tcp
  | .create => (tcpSocketCreate t).2
  | .syn i dstIp dstPort tsc => (tcpConnectSyn t i dstIp dstPort tsc).2
  | .giveUp i => t.set i { t.sockets i with state := .closed }
  | .chunk i data => (tcpSendSegment t i (tcpFlagAck ||| tcpFlagPsh) data).2
  | .copy i len => (tcpRecvCopy t i len).2
  | .fin i => tcpCloseFin t i
  | .release i => t.set i { t.sockets i with state := .closed, inUse := false }
  | .poll p => netPoll t p

/-! ## The steps of a call -/

/-- The polls a polling loop makes. -/
def polled (stop : Tcp → Bool) : Tcp → List Poll → List Poll
  | _, [] => []
  | t, p :: ps => p :: if stop (netPoll t p) then [] else polled stop (netPoll t p) ps

/-- The steps of the loop of `tcp_send`. -/
def tcpSendSteps : ℕ → Tcp → Fin tcpMaxSockets → List UInt8 → List Poll → List TcpStep
  | 0, _, _, _, _ => []
  | n + 1, t, i, data, polls =>
    if data.length > 0 then
      let (ok, t) := tcpSendSegment t i (tcpFlagAck ||| tcpFlagPsh) (data.take tcpDefaultMss)
      .chunk i (data.take tcpDefaultMss) ::
        if ok then
          .poll (polls.headD none) :: tcpSendSteps n (netPoll t (polls.headD none)) i
            (data.drop tcpDefaultMss) polls.tail
        else []
    else []

/-- The stop test of the waiting loop of `tcp_close`, which depends on the state the socket
was in before the call. -/
def closeStop (before : TcpState) (i : Fin tcpMaxSockets) (t : Tcp) : Bool :=
  if before = .established then
    (t.sockets i).state = .closed ∨ (t.sockets i).state = .timeWait
  else (t.sockets i).state = .closed

/-- The steps of a call. -/
def TcpCall.steps (t : Tcp) : TcpCall → List TcpStep
  | .create => [.create]
  | .connect i dstIp dstPort tsc polls =>
    let (ok, t') := tcpConnectSyn t i dstIp dstPort tsc
    let ps := polled (fun t => (t.sockets i).state = .established ∨
      (t.sockets i).state = .closed) t' polls
    .syn i dstIp dstPort tsc ::
      if ok then
        ps.map .poll ++
          if ((ps.foldl netPoll t').sockets i).state = .established then [] else [.giveUp i]
      else [.giveUp i]
  | .send i data polls =>
    if data.length = 0 then []
    else if (t.sockets i).state ≠ .established ∧ (t.sockets i).state ≠ .closeWait then []
    else tcpSendSteps data.length t i data polls
  | .recv i len polls =>
    if len = 0 then []
    else
      (if (t.sockets i).rx.len = 0 ∧ (t.sockets i).state = .established then
        (polled (recvStop i) t polls).map .poll
      else []) ++ [.copy i len]
  | .close i polls =>
    if !(t.sockets i).inUse then []
    else
      let st := (t.sockets i).state
      .fin i :: ((if st = .established ∨ st = .closeWait then
        (polled (closeStop st i) (tcpCloseFin t i) polls).map .poll
      else []) ++ [.release i])
  | .receive srcIp payload => [.poll (some (srcIp, payload))]

/-! ## A call is the run of its steps -/

lemma pollUntil_eq_foldl (stop : Tcp → Bool) (t : Tcp) (ps : List Poll) :
    pollUntil stop t ps = (polled stop t ps).foldl netPoll t := by
  induction ps generalizing t with
  | nil => rfl
  | cons p ps ih =>
    rw [pollUntil, polled, List.foldl_cons]
    by_cases hstop : stop (netPoll t p) = true
    · rw [if_pos hstop, if_pos hstop]
      rfl
    · rw [if_neg hstop, if_neg hstop, ih]

lemma runFrom_polls (t : Tcp) (ps : List Poll) :
    Runs.runFrom tcpStep t (ps.map .poll) = ps.foldl netPoll t := by
  induction ps generalizing t with
  | nil => rfl
  | cons p ps ih => exact ih (netPoll t p)

lemma runFrom_polled (stop : Tcp → Bool) (t : Tcp) (ps : List Poll) :
    Runs.runFrom tcpStep t ((polled stop t ps).map .poll) = pollUntil stop t ps := by
  rw [runFrom_polls, pollUntil_eq_foldl]

lemma tcpSendLoop_steps (n : ℕ) (t : Tcp) (i : Fin tcpMaxSockets) (data : List UInt8)
    (polls : List Poll) :
    (tcpSendLoop n t i data polls).2 =
      Runs.runFrom tcpStep t (tcpSendSteps n t i data polls) := by
  induction n generalizing t data polls with
  | zero => rfl
  | succ n ih =>
    rw [tcpSendLoop, tcpSendSteps]
    by_cases hdata : data.length > 0
    · rw [if_pos hdata, if_pos hdata, Runs.runFrom_cons]
      dsimp only [tcpStep]
      by_cases hok : (tcpSendSegment t i (tcpFlagAck ||| tcpFlagPsh)
          (data.take tcpDefaultMss)).1 = true
      · rw [if_pos hok, if_pos hok, Runs.runFrom_cons, ih]
        rfl
      · rw [if_neg hok, if_neg hok]
        rfl
    · rw [if_neg hdata, if_neg hdata]
      rfl

lemma tcpConnect_steps (t : Tcp) (i : Fin tcpMaxSockets) (dstIp : UInt32) (dstPort : UInt16)
    (tsc : ℕ) (polls : List Poll) :
    (tcpConnect t i dstIp dstPort tsc polls).2 =
      Runs.runFrom tcpStep t ((TcpCall.connect i dstIp dstPort tsc polls).steps t) := by
  simp only [tcpConnect, TcpCall.steps, Runs.runFrom_cons]
  change _ = Runs.runFrom tcpStep (tcpConnectSyn t i dstIp dstPort tsc).2 _
  rw [← tcpConnectSyn]
  by_cases hok : (tcpConnectSyn t i dstIp dstPort tsc).1 = true
  · rw [if_pos hok, if_pos hok, Runs.runFrom_append, runFrom_polled, pollUntil_eq_foldl]
    split_ifs <;> rfl
  · rw [if_neg hok, if_neg hok]
    rfl

lemma tcpRecv_steps (t : Tcp) (i : Fin tcpMaxSockets) (len : ℕ) (polls : List Poll) :
    (tcpRecv t i len polls).2 =
      Runs.runFrom tcpStep t ((TcpCall.recv i len polls).steps t) := by
  simp only [tcpRecv, TcpCall.steps, tcpRecvWait]
  by_cases hlen : len = 0
  · rw [if_pos hlen, if_pos hlen]
    rfl
  · rw [if_neg hlen, if_neg hlen, Runs.runFrom_append]
    split_ifs
    · rw [runFrom_polled]
      rfl
    · rfl

lemma tcpClose_steps (t : Tcp) (i : Fin tcpMaxSockets) (polls : List Poll) :
    tcpClose t i polls = Runs.runFrom tcpStep t ((TcpCall.close i polls).steps t) := by
  simp only [tcpClose, TcpCall.steps]
  by_cases hu : (!(t.sockets i).inUse) = true
  · rw [if_pos hu, if_pos hu]
    rfl
  · rw [if_neg hu, if_neg hu, Runs.runFrom_cons, Runs.runFrom_append]
    change _ = tcpStep (Runs.runFrom tcpStep (tcpCloseFin t i) _) (.release i)
    by_cases he : (t.sockets i).state = .established
    · rw [if_pos he, if_pos (Or.inl he), runFrom_polled, he, tcpCloseFin, if_pos he]
      rfl
    · by_cases hw : (t.sockets i).state = .closeWait
      · rw [if_neg he, if_pos hw, if_pos (Or.inr hw), runFrom_polled, hw, tcpCloseFin,
          if_neg he, if_pos hw]
        rfl
      · rw [if_neg he, if_neg hw, if_neg (by simp [he, hw]), tcpCloseFin, if_neg he, if_neg hw]
        rfl

/-- **A call is the run of its steps.** -/
theorem tcpCall_steps (t : Tcp) (c : TcpCall) :
    tcpCall t c = Runs.runFrom tcpStep t (c.steps t) := by
  cases c with
  | create => rfl
  | connect i dstIp dstPort tsc polls => exact tcpConnect_steps t i dstIp dstPort tsc polls
  | send i data polls =>
    simp only [tcpCall, tcpSend, TcpCall.steps]
    by_cases hdata : data.length = 0
    · rw [if_pos hdata, if_pos hdata]
      rfl
    · rw [if_neg hdata, if_neg hdata]
      by_cases hst : (t.sockets i).state ≠ .established ∧ (t.sockets i).state ≠ .closeWait
      · rw [if_pos hst, if_pos hst]
        rfl
      · rw [if_neg hst, if_neg hst]
        exact tcpSendLoop_steps _ _ _ _ _
  | recv i len polls => exact tcpRecv_steps t i len polls
  | close i polls => exact tcpClose_steps t i polls
  | receive srcIp payload => rfl

lemma mem_tcpSendSteps {n : ℕ} {t : Tcp} {i : Fin tcpMaxSockets} {data : List UInt8}
    {polls : List Poll} {e : TcpStep} (h : e ∈ tcpSendSteps n t i data polls) :
    (∃ d, e = .chunk i d) ∨ ∃ p, e = .poll p := by
  induction n generalizing t data polls with
  | zero => simp [tcpSendSteps] at h
  | succ n ih =>
    rw [tcpSendSteps] at h
    by_cases hdata : data.length > 0
    · rw [if_pos hdata] at h
      generalize tcpSendSegment t i _ (data.take tcpDefaultMss) = r at h
      rcases List.mem_cons.mp h with rfl | h
      · exact .inl ⟨_, rfl⟩
      · split_ifs at h
        · rcases List.mem_cons.mp h with rfl | h
          · exact .inr ⟨_, rfl⟩
          · exact ih h
        · simp at h
    · simp [hdata] at h

/-- Sockets are created by `tcp_socket_create` only, and bytes are copied by `tcp_recv`
only. -/
lemma mem_steps {t : Tcp} {c : TcpCall} {e : TcpStep} (h : e ∈ c.steps t) :
    (e = .create → c = .create) ∧ ∀ j len, e = .copy j len → ∃ polls, c = .recv j len polls := by
  cases c with
  | create => simp_all [TcpCall.steps]
  | connect i dstIp dstPort tsc polls =>
    simp only [TcpCall.steps, List.mem_cons] at h
    rcases h with rfl | h
    · simp
    · split_ifs at h <;> simp only [List.mem_append, List.mem_map, List.mem_singleton,
        List.not_mem_nil, or_false] at h
      · obtain ⟨p, -, rfl⟩ := h
        simp
      · rcases h with ⟨p, -, rfl⟩ | rfl <;> simp
      · simp [h]
  | send i data polls =>
    simp only [TcpCall.steps] at h
    split_ifs at h
    · simp at h
    · simp at h
    · rcases mem_tcpSendSteps h with ⟨d, rfl⟩ | ⟨p, rfl⟩ <;> simp
  | recv i len polls =>
    simp only [TcpCall.steps] at h
    split_ifs at h <;> simp only [List.mem_append, List.mem_map, List.mem_singleton,
      List.not_mem_nil, false_or] at h
    · rcases h with ⟨p, -, rfl⟩ | rfl <;> simp
    · simp [h]
  | close i polls =>
    simp only [TcpCall.steps] at h
    split_ifs at h <;> simp only [List.mem_cons, List.mem_append, List.mem_map,
      List.not_mem_nil, or_false, false_or] at h
    · rcases h with rfl | ⟨p, -, rfl⟩ | rfl <;> simp
    · rcases h with rfl | rfl <;> simp
  | receive srcIp payload => simp_all [TcpCall.steps]

end Bangos.Net
