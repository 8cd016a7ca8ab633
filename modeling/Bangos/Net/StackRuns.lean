import Bangos.Lib.Runs
import Bangos.Net.ArpCache
import Bangos.Net.Checksums

/-!
# Runs of the network stack

A call of the stack may poll the card, a poll may run a handler, and a handler may call `ipv4_send`,
which polls again.  However deep this goes, the state is written in a few places only.  `Allows` lists
them for a relation between the states before and after: a relation that composes and allows each of
these writes holds across `net_poll`, `arp_resolve` and `ipv4_send` (`Allows.ipv4Send`,
`Allows.netPoll`), and then across every run of calls.
-/

namespace Bangos.Net

namespace Stack

open Runs

/-! ## The rule -/

/-- What a handler of segments may do to a socket: it stores data in the ring, and sets the
acknowledgement number and the state. -/
structure Handled (old new : TcpSocket) : Prop where
  rx : new.rx = old.rx ∨ ∃ data, new.rx = old.rx.pushAll data
  same : new = { old with ackNum := new.ackNum, state := new.state, rx := new.rx }

/-- The frame is an echo reply to this host with the id and the number that `icmp_ping` waits for. -/
def EchoReply (s : Stack) (frame : List UInt8) : Prop :=
  ∃ p src q, frameUse frame = .ipv4 p ∧ ipv4Upcall s.cfg.localIp p = some (.icmp, src, q) ∧
    8 ≤ q.length ∧ q.getD 0 0 = 0 ∧ be16 q 4 = s.pingExpectedId ∧ be16 q 6 = s.pingExpectedSeq

/-- A relation that composes and allows every write of the stack to its state. -/
structure Allows (R : Stack → Stack → Prop) : Prop where
  refl : ∀ s, R s s
  trans : ∀ {s s' s''}, R s s' → R s' s'' → R s s''
  polled : ∀ {s poll polls}, s.polls = poll :: polls → R s { s with polls := polls }
  framed : ∀ s data, R s { s with frames := s.frames ++ [data] }
  learned : ∀ s ip mac, R s { s with arpCache := arpInsertCache s.arpCache ip mac }
  replied : ∀ {s frame polls}, s.polls = some frame :: polls → EchoReply s frame →
    R s { s with polls := polls, pingReplyReceived := true }
  called : ∀ s call, R s { s with udpCalls := s.udpCalls ++ [call] }
  built : ∀ s dst protocol p, R s (s.buildPacket dst protocol p)
  acked : ∀ s (seg : TcpSegment), seg.payload = [] → seg.flags = tcpFlagAck →
    R s { s with tcp := { s.tcp with sent := s.tcp.sent ++ [seg] } }
  handled : ∀ s {i sock}, Handled (s.tcp.sockets i) sock → R s (s.setSocket i sock)

/-- The relation holds across the calls of `ipv4_send`. -/
def Sends (R : Stack → Stack → Prop) (send : Send) : Prop :=
  ∀ s dst protocol p, R s (send s dst protocol p).2

lemma Handled.self (sock : TcpSocket) : Handled sock sock := ⟨Or.inl rfl, rfl⟩

section Rule

variable {R : Stack → Stack → Prop} {send : Send} (h : Allows R)
include h

lemma Allows.ethernetSend (s : Stack) (dst : Mac) (ethertype : UInt16) (payload : List UInt8) :
    R s (s.ethernetSend dst ethertype payload).2 := by
  rw [Stack.ethernetSend, virtioNetSendPacket]
  split_ifs
  · exact h.refl s
  · exact h.refl s
  · exact h.framed s _

lemma Allows.arpHandlePacket (s : Stack) (p : List UInt8) : R s (s.arpHandlePacket p) := by
  rw [Stack.arpHandlePacket]
  dsimp only
  split_ifs
  · exact h.refl s
  · exact h.refl s
  · exact h.trans (h.learned s _ _) (h.ethernetSend _ _ _ _)
  · exact h.learned s _ _

lemma Allows.udpReceive (s : Stack) (srcIp : UInt32) (p : List UInt8) :
    R s (s.udpReceive srcIp p) := by
  rw [Stack.udpReceive]
  split_ifs
  · exact h.refl s
  · exact h.refl s
  · cases (List.finRange maxUdpPorts).find? fun i =>
      (s.udpBindings i).inUse && (s.udpBindings i).port == be16 p 2 with
    | none => exact h.refl s
    | some i => exact h.called s _

variable (hsend : Sends R send)
include hsend

/-- A pure acknowledgement: the sequence number grows by 0. -/
lemma Allows.tcpAck (s : Stack) (i : Fin tcpMaxSockets) : R s (s.tcpAck send i) := by
  have hfits : ¬ tcpHdrSize + ([] : List UInt8).length > tcpTxBufferSize := by decide
  have hflags : ¬ tcpFlagAck &&& (tcpFlagSyn ||| tcpFlagFin) ≠ 0 := by decide
  have hseq : ∀ x : UInt32, x + 0 + UInt32.ofNat ([] : List UInt8).length = x := by
    intro x
    rw [UInt32.add_zero]
    exact UInt32.add_zero x
  rw [Stack.tcpAck, tcpSendSegment, if_neg hfits]
  dsimp only
  generalize hseg : TcpSegment.mk _ _ _ _ _ _ _ _ = seg
  have hsent := h.trans (h.acked s seg (by rw [← hseg]) (by rw [← hseg]))
    (hsend _ (s.tcp.sockets i).remoteIp ipProtoTcp (tcpBytes (s.tcp.sockets i).localIp seg))
  generalize send _ _ _ _ = r at hsent ⊢
  rw [if_neg hflags, hseq]
  split_ifs
  · exact h.trans hsent (h.handled _ (Handled.self _))
  · exact hsent

/-- A socket is written, and an acknowledgement is sent. -/
lemma Allows.answer {s : Stack} {i : Fin tcpMaxSockets} {sock : TcpSocket}
    (hsock : Handled (s.tcp.sockets i) sock) : R s ((s.setSocket i sock).tcpAck send i) :=
  h.trans (h.handled s hsock) (h.tcpAck hsend _ i)

lemma Allows.tcpReceiveState (s : Stack) (i : Fin tcpMaxSockets) (seq : UInt32) (flags : UInt8)
    (data : List UInt8) : R s (s.tcpReceiveState send i seq flags data) := by
  have hdata : R s (s.tcpReceiveData send i seq data) := by
    rw [tcpReceiveData]
    split_ifs
    · exact h.answer hsend ⟨Or.inr ⟨data, rfl⟩, rfl⟩
    · exact h.refl s
  have hfin : ∀ s', R s' (s'.tcpReceiveFin send i seq flags data) := by
    intro s'
    rw [tcpReceiveFin]
    split_ifs
    · exact h.answer hsend ⟨Or.inl rfl, rfl⟩
    · exact h.answer hsend ⟨Or.inl rfl, rfl⟩
    · exact h.refl s'
  rw [Stack.tcpReceiveState]
  by_cases hrst : flags &&& tcpFlagRst ≠ 0
  · rw [if_pos hrst]
    exact h.handled s ⟨Or.inl rfl, rfl⟩
  rw [if_neg hrst]
  cases (s.tcp.sockets i).state with
  | established => exact h.trans hdata (hfin _)
  | synSent | finWait2 =>
    dsimp only
    split_ifs
    all_goals first | exact h.answer hsend ⟨Or.inl rfl, rfl⟩ | exact h.refl s
  | finWait1 =>
    dsimp only
    split_ifs
    all_goals first
      | exact h.answer hsend ⟨Or.inl rfl, rfl⟩
      | exact h.handled s ⟨Or.inl rfl, rfl⟩
      | exact h.refl s
  | lastAck =>
    dsimp only
    split_ifs
    all_goals first | exact h.handled s ⟨Or.inl rfl, rfl⟩ | exact h.refl s
  | closed | listen | synReceived | closeWait | closing | timeWait => exact h.refl s

lemma Allows.tcpReceive (s : Stack) (srcIp : UInt32) (p : List UInt8) :
    R s (s.tcpReceive send srcIp p) := by
  rw [Stack.tcpReceive]
  cases tcpTarget s.tcp srcIp p with
  | none => exact h.refl s
  | some i => exact h.tcpReceiveState hsend s i _ _ _

/-- `net_poll`, whatever it finds. -/
lemma Allows.netPoll (s : Stack) : R s (s.netPoll send) := by
  rw [Stack.netPoll]
  by_cases hpresent : !s.present
  · rw [if_pos hpresent]
    exact h.refl s
  rw [if_neg hpresent]
  cases hpolls : s.polls with
  | nil => exact h.refl s
  | cons poll polls =>
    have hpolled : R s { s with polls := polls } := h.polled hpolls
    cases poll with
    | none => exact hpolled
    | some frame =>
      dsimp only
      by_cases hlen : frame.length > 0
      · rw [if_pos hlen, ethernetReceive]
        cases huse : frameUse frame with
        | drop => exact hpolled
        | arp p => exact h.trans hpolled (h.arpHandlePacket _ p)
        | ipv4 p =>
          dsimp only
          rw [ipv4Receive]
          cases hup : ipv4Upcall s.cfg.localIp p with
          | none => exact hpolled
          | some up =>
            obtain ⟨handler, src, q⟩ := up
            cases handler with
            | udp => exact h.trans hpolled (h.udpReceive _ src q)
            | tcp => exact h.trans hpolled (h.tcpReceive hsend _ src q)
            | icmp =>
              dsimp only
              rw [icmpReceive]
              split_ifs with hshort hrequest hreply
              · exact hpolled
              · exact h.trans hpolled (hsend _ _ _ _)
              · exact h.replied hpolls
                  ⟨p, src, q, huse, hup, not_lt.mp hshort, hreply.1, hreply.2.1, hreply.2.2⟩
              · exact hpolled
      · rw [if_neg hlen]
        exact hpolled

/-- The polls of the loop of `arp_resolve`. -/
lemma Allows.arpWait (ip : UInt32) (n : ℕ) (s : Stack) : R s (arpWait send ip n s).2 := by
  induction n generalizing s with
  | zero => exact h.refl s
  | succ n ih =>
    rw [Stack.arpWait]
    have hpoll : R s (s.netPoll send) := h.netPoll hsend s
    cases arpLookup (s.netPoll send).arpCache ip with
    | some mac => exact hpoll
    | none => exact h.trans hpoll (ih _)

lemma Allows.arpResolve (s : Stack) (ip : UInt32) : R s (s.arpResolve send ip).2 := by
  rw [Stack.arpResolve]
  split_ifs
  · exact h.refl s
  · cases arpLookup s.arpCache ip with
    | some mac => exact h.refl s
    | none => exact h.trans (h.ethernetSend _ _ _ _) (h.arpWait hsend ip 1000 _)

lemma Allows.sendBody : Sends R (ipv4SendBody send) := by
  intro s dst protocol p
  have hover : R s (ipv4Handover send s dst protocol p).2 := by
    rw [ipv4Handover]
    split_ifs
    · exact h.refl s
    · exact h.trans (h.built s _ _ _) (h.arpResolve hsend _ _)
  rw [ipv4SendBody]
  generalize ipv4Handover send s dst protocol p = r at hover
  obtain ⟨packet, s'⟩ := r
  cases packet with
  | none => exact hover
  | some packet => exact h.trans hover (h.ethernetSend _ _ _ _)

omit hsend

/-- **The rule**: what the writes of the stack are allowed to do is all that `ipv4_send` does,
however its handlers nest.  The induction is on the depth of the nesting. -/
theorem Allows.ipv4Send : Sends R ipv4Send := by
  have hdepth : ∀ depth, Sends R (ipv4SendDepth depth) := by
    intro depth
    induction depth with
    | zero => exact fun s _ _ _ => h.refl s
    | succ depth ih => exact h.sendBody ih
  exact fun s dst protocol p => hdepth _ s dst protocol p

end Rule

/-! ## Calls -/

/-- A call from outside the stack. -/
inductive StackCall where
  | poll
  | send (dst : UInt32) (protocol : UInt8) (payload : List UInt8)
  | ping (dst : UInt32) (seq : UInt16) (turns : ℕ)

/-- The state in which `icmp_ping` sends its request. -/
def pinging (s : Stack) (seq : UInt16) : Stack :=
  { s with pingExpectedId := pingId, pingExpectedSeq := seq, pingReplyReceived := false }

/-- The stack after a call. -/
def stackStep (s : Stack) : StackCall → Stack
  | .poll => netPoll ipv4Send s
  | .send dst protocol payload => (ipv4Send s dst protocol payload).2
  | .ping dst seq turns => (icmpPing s dst seq turns).2

lemma Allows.pingWait {R : Stack → Stack → Prop} (h : Allows R) (n : ℕ) (s : Stack) :
    R s (pingWait n s).2 := by
  induction n generalizing s with
  | zero => exact h.refl s
  | succ n ih =>
    rw [Stack.pingWait]
    have hpoll : R s (s.netPoll Stack.ipv4Send) := h.netPoll h.ipv4Send s
    split_ifs
    · exact hpoll
    · exact h.trans hpoll (ih _)

/-- **What no call of the stack touches**, and what it only adds to: the configuration and the ports
stay, frames, datagrams and segments are only appended, the ARP cache is only written through
`arp_insert_cache`, and the receive rings stay in order. -/
structure Kept (s s' : Stack) : Prop where
  cfg : s'.cfg = s.cfg
  present : s'.present = s.present
  udpBindings : s'.udpBindings = s.udpBindings
  polls : s'.polls <:+ s.polls
  frames : s.frames <+: s'.frames
  udpCalls : s.udpCalls <+: s'.udpCalls
  sent : s.tcp.sent <+: s'.tcp.sent
  arpCache : ∃ inserts : List (UInt32 × Mac),
    s'.arpCache = inserts.foldl (fun c e => arpInsertCache c e.1 e.2) s.arpCache
  sockets : ∀ i, s'.tcp.sockets i = { s.tcp.sockets i with
    ackNum := (s'.tcp.sockets i).ackNum
    state := (s'.tcp.sockets i).state
    rx := (s'.tcp.sockets i).rx }
  rings : ∀ i, (s.tcp.sockets i).rx.Wf → (s'.tcp.sockets i).rx.Wf

lemma Kept.refl (s : Stack) : Kept s s :=
  ⟨rfl, rfl, rfl, List.suffix_rfl, List.prefix_rfl, List.prefix_rfl, List.prefix_rfl, ⟨[], rfl⟩,
    fun _ => rfl, fun _ h => h⟩

lemma Kept.trans {s s' s'' : Stack} (h : Kept s s') (h' : Kept s' s'') : Kept s s'' where
  cfg := h'.cfg.trans h.cfg
  present := h'.present.trans h.present
  udpBindings := h'.udpBindings.trans h.udpBindings
  polls := h'.polls.trans h.polls
  frames := h.frames.trans h'.frames
  udpCalls := h.udpCalls.trans h'.udpCalls
  sent := h.sent.trans h'.sent
  arpCache := by
    obtain ⟨inserts, hcache⟩ := h.arpCache
    obtain ⟨inserts', hcache'⟩ := h'.arpCache
    exact ⟨inserts ++ inserts', by rw [hcache', hcache, List.foldl_append]⟩
  sockets i := by
    rw [h'.sockets i, h.sockets i]
  rings i hwf := h'.rings i (h.rings i hwf)

lemma allows_kept : Allows Kept where
  refl := Kept.refl
  trans := Kept.trans
  polled {s poll polls} hpolls :=
    { Kept.refl s with polls := hpolls ▸ List.suffix_cons poll polls }
  framed s data := { Kept.refl s with frames := List.prefix_append _ _ }
  learned s ip mac := { Kept.refl s with arpCache := ⟨[(ip, mac)], rfl⟩ }
  replied {s frame polls} hpolls _ :=
    { Kept.refl s with polls := hpolls ▸ List.suffix_cons (some frame) polls }
  called s call := { Kept.refl s with udpCalls := List.prefix_append _ _ }
  built s dst protocol p := { Kept.refl s with }
  acked s seg _ _ := { Kept.refl s with sent := List.prefix_append _ _ }
  handled s {i sock} hsock :=
    { Kept.refl s with
      sockets := by
        intro j
        by_cases hj : j = i
        · subst hj
          rw [setSocket, Tcp.set_sockets_self]
          exact hsock.same
        · rw [setSocket, Tcp.set_sockets_of_ne _ hj]
      rings := by
        intro j hwf
        by_cases hj : j = i
        · subst hj
          rw [setSocket, Tcp.set_sockets_self]
          rcases hsock.rx with heq | ⟨data, heq⟩
          · rwa [heq]
          · rw [heq]
            exact (RingBuf.pushAll_spec hwf data).1
        · rwa [setSocket, Tcp.set_sockets_of_ne _ hj] }

lemma kept_stackStep (s : Stack) (c : StackCall) : Kept s (stackStep s c) := by
  cases c with
  | poll => exact allows_kept.netPoll allows_kept.ipv4Send s
  | send dst protocol payload => exact allows_kept.ipv4Send s dst protocol payload
  | ping dst seq turns =>
    have hstart : Kept s (s.pinging seq) := { Kept.refl s with }
    have hsent := hstart.trans (allows_kept.ipv4Send _ dst ipProtoIcmp (pingMessage seq))
    rw [stackStep, icmpPing]
    split_ifs
    · exact hsent.trans (allows_kept.pingWait turns _)
    · exact hsent

/-- **The receive rings stay in order, and nothing that was sent or delivered is taken back**, in every
run of calls from any state of the stack, whatever sockets it has and whatever packets arrive. -/
theorem stackRun_sound (s : Stack) (calls : List StackCall) : Kept s (runFrom stackStep s calls) := by
  induction calls generalizing s with
  | nil => exact Kept.refl s
  | cons c calls ih => exact (kept_stackStep s c).trans (ih _)

lemma Distinct.inserts (inserts : List (UInt32 × Mac)) {c : ArpCache} (h : Distinct c) :
    Distinct (inserts.foldl (fun c e => arpInsertCache c e.1 e.2) c) := by
  induction inserts generalizing c with
  | nil => exact h
  | cons e inserts ih => exact ih (h.insert e.1 e.2)

/-- **No address ever gets two entries in the ARP cache**, in every run of calls from a state in which
none has, whatever packets arrive. -/
theorem arpDistinct_run (s : Stack) (calls : List StackCall) (h : Distinct s.arpCache) :
    Distinct (runFrom stackStep s calls).arpCache := by
  induction calls generalizing s with
  | nil => exact h
  | cons c calls ih =>
    obtain ⟨inserts, hcache⟩ := (kept_stackStep s c).arpCache
    refine ih _ ?_
    rw [hcache]
    exact Distinct.inserts inserts h

/-! ## Pings -/

/-- The flag of `icmp_ping` is set by a reply only: while a ping waits, it becomes set when one of the
frames to come is an echo reply with its id and number. -/
structure Answered (s s' : Stack) : Prop where
  cfg : s'.cfg = s.cfg
  expected : s'.pingExpectedId = s.pingExpectedId ∧ s'.pingExpectedSeq = s.pingExpectedSeq
  polls : s'.polls <:+ s.polls
  reply : s'.pingReplyReceived = true → s.pingReplyReceived = true ∨
    ∃ frame, some frame ∈ s.polls ∧ EchoReply s frame

/-- A write that leaves the flag alone. -/
lemma Answered.of_same {s s' : Stack} (hcfg : s'.cfg = s.cfg)
    (hid : s'.pingExpectedId = s.pingExpectedId) (hseq : s'.pingExpectedSeq = s.pingExpectedSeq)
    (hpolls : s'.polls <:+ s.polls) (hflag : s'.pingReplyReceived = s.pingReplyReceived) :
    Answered s s' :=
  ⟨hcfg, ⟨hid, hseq⟩, hpolls, fun h => Or.inl (hflag ▸ h)⟩

lemma allows_answered : Allows Answered where
  refl s := .of_same rfl rfl rfl List.suffix_rfl rfl
  trans {s s' s''} h h' := by
    refine ⟨h'.cfg.trans h.cfg, ⟨h'.expected.1.trans h.expected.1, h'.expected.2.trans h.expected.2⟩,
      h'.polls.trans h.polls, fun hset => ?_⟩
    rcases h'.reply hset with hset | ⟨frame, hmem, p, src, q, huse, hup, hlen, htype, hid, hseq⟩
    · exact h.reply hset
    · rw [h.cfg] at hup
      rw [h.expected.1] at hid
      rw [h.expected.2] at hseq
      exact Or.inr ⟨frame, h.polls.subset hmem, p, src, q, huse, hup, hlen, htype, hid, hseq⟩
  polled {s poll polls} hpolls :=
    .of_same rfl rfl rfl (hpolls ▸ List.suffix_cons poll polls) rfl
  framed s data := .of_same rfl rfl rfl List.suffix_rfl rfl
  learned s ip mac := .of_same rfl rfl rfl List.suffix_rfl rfl
  replied {s frame polls} hpolls hreply :=
    ⟨rfl, ⟨rfl, rfl⟩, hpolls ▸ List.suffix_cons (some frame) polls,
      fun _ => Or.inr ⟨frame, hpolls ▸ List.mem_cons_self, hreply⟩⟩
  called s call := .of_same rfl rfl rfl List.suffix_rfl rfl
  built s dst protocol p := .of_same rfl rfl rfl List.suffix_rfl rfl
  acked s seg _ _ := .of_same rfl rfl rfl List.suffix_rfl rfl
  handled s i sock _ := .of_same rfl rfl rfl List.suffix_rfl rfl

lemma pingReplyReceived_of_pingWait {n : ℕ} {s : Stack} (h : (pingWait n s).1 = true) :
    (pingWait n s).2.pingReplyReceived = true := by
  induction n generalizing s with
  | zero => cases h
  | succ n ih =>
    rw [pingWait] at h ⊢
    split_ifs at h ⊢ with hset
    · exact hset
    · exact ih h

/-- **`icmp_ping` reports success only for an echo reply** to this host with its own id and sequence
number, which one of the polls has found, be it while it waits or while `ipv4_send` resolves an
address.  That the reply comes from the host that was pinged is not checked. -/
theorem icmpPing_replied (s : Stack) (dst : UInt32) (seq : UInt16) (turns : ℕ)
    (h : (icmpPing s dst seq turns).1 = true) :
    ∃ frame, some frame ∈ s.polls ∧ EchoReply (s.pinging seq) frame := by
  have hsent := allows_answered.ipv4Send (s.pinging seq) dst ipProtoIcmp (pingMessage seq)
  rw [icmpPing] at h
  change (if (ipv4Send (s.pinging seq) dst ipProtoIcmp (pingMessage seq)).1 = true then
    pingWait turns (ipv4Send (s.pinging seq) dst ipProtoIcmp (pingMessage seq)).2 else _).1 = true at h
  generalize ipv4Send (s.pinging seq) dst ipProtoIcmp (pingMessage seq) = r at hsent h
  split_ifs at h
  have hwait := allows_answered.trans hsent (allows_answered.pingWait turns r.2)
  rcases hwait.reply (pingReplyReceived_of_pingWait h) with hset | hreply
  · cases hset
  · exact hreply

/-- The gateway's reply to the first ping. -/
def gatewayReply : List UInt8 :=
  frameTo (initial []).cfg qemuGatewayMac ethertypeIpv4
    (ipv4Header { (initial []).cfg with localIp := defaultGatewayIp } 7 defaultLocalIp ipProtoIcmp
      40 ++ echoReply (pingMessage 1))

/-- A ping of the gateway, which answers, after the start of the stack. -/
theorem arpDistinct_run_ping :
    Distinct (runFrom stackStep (initial [none, some gatewayReply])
      [.poll, .ping defaultGatewayIp 1 5]).arpCache :=
  arpDistinct_run (initial [none, some gatewayReply]) [.poll, .ping defaultGatewayIp 1 5]
    (distinct_arpRun [(defaultGatewayIp, qemuGatewayMac)])

/-- The second poll finds the reply. -/
theorem icmpPing_replied_gateway :
    ∃ frame, some frame ∈ (initial [none, some gatewayReply]).polls ∧
      EchoReply ((initial [none, some gatewayReply]).pinging 1) frame :=
  icmpPing_replied (initial [none, some gatewayReply]) defaultGatewayIp 1 5 (by decide +kernel)

end Stack

end Bangos.Net
