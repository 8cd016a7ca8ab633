import Bangos.Net.TcpCalls

/-!
# Local ports

`tcp_socket_create` takes the local port of a new socket from a counter that runs through
49152..65000 and starts again, and it never asks whether a live socket still has that port.
As long as the counter does not catch up with a live socket, live sockets have different
ports, and `tcp_find_socket` finds the one a segment is for (`live_ports_distinct`).  A socket
that stays open while the counter goes round once shares its port with a later one
(`port_reused_after_round`).
-/

namespace Bangos.Net

/-- The port is one of those the counter runs through. -/
def Ephemeral (p : UInt16) : Prop := 49152 ≤ p ∧ p ≤ 65000

/-- Live sockets have different local ports, all of them ephemeral. -/
structure PortsDistinct (t : Tcp) : Prop where
  distinct : ∀ i j, (t.sockets i).inUse = true → (t.sockets j).inUse = true →
    (t.sockets i).localPort = (t.sockets j).localPort → i = j
  range : ∀ i, (t.sockets i).inUse = true → Ephemeral (t.sockets i).localPort

/-- The next port is held by no live socket. -/
def PortFree (t : Tcp) : TcpCall → Prop
  | .create => ∀ i, (t.sockets i).inUse = true → (t.sockets i).localPort ≠ t.ephemeralPortCounter
  | _ => True

/-! ## Ports change only when a socket is created -/

/-- No port changes, and no socket comes to life. -/
structure SamePorts (t t' : Tcp) : Prop where
  counter : t'.ephemeralPortCounter = t.ephemeralPortCounter
  port : ∀ i, (t'.sockets i).localPort = (t.sockets i).localPort
  live : ∀ i, (t'.sockets i).inUse = true → (t.sockets i).inUse = true

section SamePorts

variable {t t' t'' : Tcp}

lemma SamePorts.refl (t : Tcp) : SamePorts t t := ⟨rfl, fun _ => rfl, fun _ => id⟩

lemma SamePorts.trans (h : SamePorts t t') (h' : SamePorts t' t'') : SamePorts t t'' where
  counter := h'.counter.trans h.counter
  port := fun i => (h'.port i).trans (h.port i)
  live := fun i hi => h.live i (h'.live i hi)

lemma samePorts_set {i : Fin tcpMaxSockets} {s : TcpSocket}
    (hport : s.localPort = (t.sockets i).localPort)
    (hlive : s.inUse = true → (t.sockets i).inUse = true) : SamePorts t (t.set i s) := by
  refine ⟨rfl, fun j => ?_, fun j => ?_⟩
  · by_cases hji : j = i
    · subst hji
      rw [Tcp.set_sockets_self, hport]
    · rw [t.set_sockets_of_ne hji]
  · by_cases hji : j = i
    · subst hji
      rw [Tcp.set_sockets_self]
      exact hlive
    · rw [t.set_sockets_of_ne hji]
      exact id

lemma samePorts_send (t : Tcp) (i : Fin tcpMaxSockets) (flags : UInt8) (payload : List UInt8) :
    SamePorts t (tcpSendSegment t i flags payload).2 := by
  obtain ⟨n, hn⟩ := tcpSendSegment_sockets t i flags payload
  have hset := samePorts_set (t := t) (i := i) (s := { t.sockets i with seqNum := n }) rfl id
  refine ⟨?_, fun j => ?_, fun j => ?_⟩
  · simp only [tcpSendSegment]
    split_ifs <;> rfl
  · rw [hn]
    exact hset.port j
  · rw [hn]
    exact hset.live j

lemma samePorts_set_send {i : Fin tcpMaxSockets} {s : TcpSocket}
    (hport : s.localPort = (t.sockets i).localPort) (hlive : s.inUse = (t.sockets i).inUse)
    (flags : UInt8) (payload : List UInt8) :
    SamePorts t (tcpSendSegment (t.set i s) i flags payload).2 :=
  (samePorts_set hport fun h => hlive ▸ h).trans (samePorts_send _ _ _ _)

lemma samePorts_receiveState (t : Tcp) (i : Fin tcpMaxSockets) (seq : UInt32) (flags : UInt8)
    (data : List UInt8) : SamePorts t (tcpReceiveState t i seq flags data) := by
  have hdata : SamePorts t (tcpReceiveData t i seq data) := by
    unfold tcpReceiveData
    split_ifs
    · exact samePorts_set_send (by rfl) (by rfl) _ _
    · exact .refl t
  have hfin : ∀ u, SamePorts u (tcpReceiveFin u i seq flags data) := by
    intro u
    unfold tcpReceiveFin
    by_cases hf : flags &&& tcpFlagFin ≠ 0
    · rw [if_pos hf]
      exact samePorts_set_send (by rfl) (by rfl) _ _
    · rw [if_neg hf]
      exact .refl u
  unfold tcpReceiveState
  dsimp only
  split
  · exact samePorts_set (by rfl) (by exact id)
  · split
    · split
      · exact samePorts_set_send (by rfl) (by rfl) _ _
      · exact .refl t
    · exact hdata.trans (hfin _)
    · split
      · split
        · exact samePorts_set_send (by rfl) (by rfl) _ _
        · exact samePorts_set (by rfl) (by exact id)
      · exact .refl t
    · split
      · exact samePorts_set_send (by rfl) (by rfl) _ _
      · exact .refl t
    · split
      · exact samePorts_set (by rfl) (by exact id)
      · exact .refl t
    · exact .refl t

lemma samePorts_step (t : Tcp) {e : TcpStep} (he : e ≠ .create) : SamePorts t (tcpStep t e) := by
  cases e with
  | create => exact absurd rfl he
  | syn i dstIp dstPort tsc => exact samePorts_set_send (by rfl) (by rfl) _ _
  | giveUp i => exact samePorts_set (by rfl) (by exact id)
  | chunk i data => exact samePorts_send _ _ _ _
  | copy i len =>
    simp only [tcpStep, tcpRecvCopy]
    split_ifs
    · exact .refl t
    · exact samePorts_set (by rfl) (by exact id)
    · exact samePorts_set (by rfl) (by exact id)
  | fin i =>
    simp only [tcpStep, tcpCloseFin]
    split_ifs
    · exact samePorts_set_send (by rfl) (by rfl) _ _
    · exact samePorts_set_send (by rfl) (by rfl) _ _
    · exact .refl t
  | release i => exact samePorts_set (by rfl) (by simp)
  | poll p =>
    rcases p with _ | ⟨srcIp, payload⟩
    · exact .refl t
    · simp only [tcpStep, netPoll, tcpReceive]
      split
      · exact .refl t
      · exact samePorts_receiveState _ _ _ _ _

/-- A call other than `tcp_socket_create` changes no port. -/
lemma samePorts_call (t : Tcp) {c : TcpCall} (hc : c ≠ .create) : SamePorts t (tcpCall t c) := by
  rw [tcpCall_steps]
  have hsteps : ∀ e ∈ c.steps t, e ≠ .create := fun e he hce => hc ((mem_steps he).1 hce)
  generalize c.steps t = es at hsteps
  induction es generalizing t with
  | nil => exact .refl t
  | cons e es ih =>
    rw [List.forall_mem_cons] at hsteps
    exact (samePorts_step t hsteps.1).trans (ih _ hsteps.2)

lemma PortsDistinct.of_same (h : PortsDistinct t) (hs : SamePorts t t') : PortsDistinct t' where
  distinct := fun i j hi hj hij => h.distinct i j (hs.live i hi) (hs.live j hj)
    (by rwa [hs.port, hs.port] at hij)
  range := fun i hi => by
    rw [hs.port]
    exact h.range i (hs.live i hi)

end SamePorts

/-! ## Creating a socket -/

/-- The counter after `p`. -/
def nextPort (p : UInt16) : UInt16 := if p + 1 > 65000 then 49152 else p + 1

lemma ephemeral_nextPort {p : UInt16} (h : Ephemeral p) : Ephemeral (nextPort p) := by
  obtain ⟨h1, h2⟩ := h
  unfold nextPort
  split_ifs with hgt
  · exact ⟨by decide, by decide⟩
  · simp only [gt_iff_lt, UInt16.not_lt] at hgt
    refine ⟨?_, hgt⟩
    rw [UInt16.le_iff_toNat_le] at *
    rw [UInt16.toNat_add]
    have e1 : (49152 : UInt16).toNat = 49152 := rfl
    have e2 : (65000 : UInt16).toNat = 65000 := rfl
    have e3 : (1 : UInt16).toNat = 1 := rfl
    omega

/-- **Creating a socket**: a free slot comes to life with the port of the counter, or the
table is full and nothing changes. -/
lemma tcpSocketCreate_cases (t : Tcp) :
    (tcpSocketCreate t = (none, t) ∧ ∀ i, (t.sockets i).inUse = true) ∨
    ∃ i s, (t.sockets i).inUse = false ∧ (tcpSocketCreate t).1 = some i ∧
      (tcpSocketCreate t).2.sockets = Function.update t.sockets i s ∧
      s.inUse = true ∧ s.state = .closed ∧ s.localPort = t.ephemeralPortCounter ∧
      (tcpSocketCreate t).2.ephemeralPortCounter = nextPort t.ephemeralPortCounter := by
  unfold tcpSocketCreate
  cases hfree : (List.finRange tcpMaxSockets).find? fun i => !(t.sockets i).inUse with
  | none =>
    refine .inl ⟨rfl, fun i => ?_⟩
    have := List.find?_eq_none.mp hfree i (List.mem_finRange i)
    simpa using this
  | some i =>
    have hi := List.find?_some hfree
    exact .inr ⟨i, _, by simpa using hi, rfl, rfl, rfl, rfl, rfl, rfl⟩

/-- What holds along the run. -/
structure PortsInv (t : Tcp) : Prop where
  ports : PortsDistinct t
  counter : Ephemeral t.ephemeralPortCounter

lemma portsInv_create {t : Tcp} (h : PortsInv t) (hfree : PortFree t .create) :
    PortsInv (tcpSocketCreate t).2 := by
  rcases tcpSocketCreate_cases t with ⟨hnone, -⟩ | ⟨i, s, hi, -, hs, -, -, hport, hcounter⟩
  · rwa [hnone]
  · have hne : ∀ j, j ≠ i → (tcpSocketCreate t).2.sockets j = t.sockets j := by
      intro j hj
      rw [hs, Function.update_of_ne hj]
    have hself : ((tcpSocketCreate t).2.sockets i).localPort = t.ephemeralPortCounter := by
      rw [hs, Function.update_self, hport]
    refine ⟨⟨?_, ?_⟩, ?_⟩
    · intro j k hj hk hjk
      -- the new socket against an old one, or two old ones
      by_cases hji : j = i <;> by_cases hki : k = i
      · rw [hji, hki]
      · subst hji
        rw [hne k hki] at hk hjk
        exact absurd (hjk.symm.trans hself) (hfree k hk)
      · subst hki
        rw [hne j hji] at hj hjk
        exact absurd (hjk.trans hself) (hfree j hj)
      · rw [hne j hji] at hj hjk
        rw [hne k hki] at hk hjk
        exact h.ports.distinct j k hj hk hjk
    · intro j hj
      by_cases hji : j = i
      · subst hji
        rw [hself]
        exact h.counter
      · rw [hne j hji] at hj ⊢
        exact h.ports.range j hj
    · rw [hcounter]
      exact ephemeral_nextPort h.counter

lemma portsInv_call {t : Tcp} {c : TcpCall} (h : PortsInv t) (hfree : PortFree t c) :
    PortsInv (tcpCall t c) := by
  by_cases hc : c = .create
  · subst hc
    exact portsInv_create h hfree
  · have hs := samePorts_call t hc
    exact ⟨h.ports.of_same hs, by rw [hs.counter]; exact h.counter⟩

lemma portsInv_init (localIp : UInt32) (ok : ℕ → Bool) : PortsInv (tcpInit localIp ok) where
  ports :=
    { distinct := fun i j hi => by simp [tcpInit, TcpSocket.zero] at hi
      range := fun i hi => by simp [tcpInit, TcpSocket.zero] at hi }
  counter := show Ephemeral 49152 from ⟨by decide, by decide⟩

/-- Where live sockets have different ports, a segment for a live socket is handed to it or to
none. -/
lemma tcpFindSocket_of_distinct {t : Tcp} (h : PortsDistinct t) {i j : Fin tcpMaxSockets}
    (hi : (t.sockets i).inUse = true) {remoteIp : UInt32} {remotePort : UInt16}
    (hj : tcpFindSocket t (t.sockets i).localPort remoteIp remotePort = some j) : j = i := by
  have hfound := List.find?_some hj
  simp only [Bool.and_eq_true, beq_iff_eq] at hfound
  exact h.distinct j i hfound.1.1 hi hfound.1.2

/-- **Local ports identify sockets**, in every run of calls in which the counter never stands
at the port of a live socket when a socket is created. -/
theorem live_ports_distinct (localIp : UInt32) (ok : ℕ → Bool) {cs : List TcpCall}
    (hcs : Runs.StepsMeet tcpCall PortFree (tcpInit localIp ok) cs) :
    let t := Runs.runFrom tcpCall (tcpInit localIp ok) cs
    PortsDistinct t ∧ ∀ i j remoteIp remotePort, (t.sockets i).inUse = true →
      tcpFindSocket t (t.sockets i).localPort remoteIp remotePort = some j → j = i := by
  have hrun := Runs.invariant_runFrom (fun t c ht hc => portsInv_call ht hc)
    (portsInv_init localIp ok) hcs
  exact ⟨hrun.ports, fun i j _ _ hi hj => tcpFindSocket_of_distinct hrun.ports hi hj⟩

/-- Two sockets, of which the first is closed again. -/
theorem live_ports_distinct_two :
    let t := Runs.runFrom tcpCall (tcpInit 0x0F02000A fun _ => true)
      [.create, .create, .close 0 [], .create]
    PortsDistinct t ∧ ∀ i j remoteIp remotePort, (t.sockets i).inUse = true →
      tcpFindSocket t (t.sockets i).localPort remoteIp remotePort = some j → j = i :=
  live_ports_distinct 0x0F02000A (fun _ => true)
    ⟨by simp [PortFree, tcpInit, TcpSocket.zero], by unfold PortFree; decide +kernel, trivial,
      by unfold PortFree; decide +kernel, trivial⟩

/-! ## Once around -/

/-- The first socket is live with the first port, the second slot is free, and the counter
stands at `p`. -/
structure Holding (t : Tcp) (p : UInt16) : Prop where
  live : (t.sockets 0).inUse = true
  port : (t.sockets 0).localPort = 49152
  unbound : (t.sockets 0).remoteIp = 0
  free : (t.sockets 1).inUse = false
  counter : t.ephemeralPortCounter = p

lemma tcpSocketCreate_fst (t : Tcp) : (tcpSocketCreate t).1 =
    (List.finRange tcpMaxSockets).find? fun i => !(t.sockets i).inUse := by
  unfold tcpSocketCreate
  cases (List.finRange tcpMaxSockets).find? fun i => !(t.sockets i).inUse <;> rfl

/-- The second slot is handed out with the port of the counter. -/
lemma Holding.create {t : Tcp} {p : UInt16} (h : Holding t p) :
    ∃ s, (tcpSocketCreate t).2.sockets = Function.update t.sockets 1 s ∧ s.inUse = true ∧
      s.state = .closed ∧ s.localPort = p ∧
      (tcpSocketCreate t).2.ephemeralPortCounter = nextPort p := by
  have hlist : List.finRange tcpMaxSockets = 0 :: 1 :: (List.finRange tcpMaxSockets).drop 2 := by
    decide
  have hfst : (tcpSocketCreate t).1 = some 1 := by
    rw [tcpSocketCreate_fst, hlist]
    simp [h.live, h.free]
  rcases tcpSocketCreate_cases t with ⟨hnone, -⟩ | ⟨i, s, -, hi, hs, hu, hst, hport, hc⟩
  · rw [hnone] at hfst
    exact absurd hfst (by simp)
  · obtain rfl : i = 1 := by
      rw [hfst] at hi
      exact (Option.some.inj hi).symm
    rw [h.counter] at hport hc
    exact ⟨s, hs, hu, hst, hport, hc⟩

/-- A socket is opened in the second slot and closed again. -/
def openClose : List TcpCall := [.create, .close 1 []]

/-- One such cycle moves the counter by one. -/
lemma Holding.openClose {t : Tcp} {p : UInt16} (h : Holding t p) :
    Holding (Runs.runFrom tcpCall t openClose) (nextPort p) := by
  obtain ⟨s, hs, hu, hst, -, hc⟩ := h.create
  have hclose : Runs.runFrom tcpCall t Net.openClose =
      (tcpSocketCreate t).2.set 1 { s with state := .closed, inUse := false } := by
    simp [Net.openClose, tcpCall, tcpClose, hs, hu, hst]
  have h0 : (Runs.runFrom tcpCall t Net.openClose).sockets 0 = t.sockets 0 := by
    rw [hclose, Tcp.set_sockets_of_ne _ (by decide), hs, Function.update_of_ne (by decide)]
  refine ⟨?_, ?_, ?_, ?_, ?_⟩
  · rw [h0, h.live]
  · rw [h0, h.port]
  · rw [h0, h.unbound]
  · rw [hclose, Tcp.set_sockets_self]
  · rw [hclose]
    exact hc

lemma Holding.cycles {t : Tcp} {p : UInt16} (h : Holding t p) (n : ℕ) :
    Holding (Runs.runFrom tcpCall t (List.replicate n Net.openClose).flatten)
      (nextPort^[n] p) := by
  induction n generalizing t p with
  | zero => exact h
  | succ n ih =>
    rw [List.replicate_succ, List.flatten_cons, Runs.runFrom_append, Function.iterate_succ_apply]
    exact ih h.openClose

lemma iterate_nextPort {n : ℕ} (hn : 49153 + n ≤ 65000) :
    nextPort^[n] 49153 = UInt16.ofNat (49153 + n) := by
  induction n with
  | zero => rfl
  | succ n ih =>
    have hadd : UInt16.ofNat (49153 + n) + 1 = UInt16.ofNat (49153 + (n + 1)) := by
      rw [← Nat.add_assoc]
      exact (UInt16.ofNat_add (49153 + n) 1).symm
    rw [Function.iterate_succ_apply', ih (by omega), nextPort, hadd, if_neg]
    rw [gt_iff_lt, UInt16.lt_iff_toNat_lt, UInt16.toNat_ofNat']
    have : (65000 : UInt16).toNat = 65000 := rfl
    omega

/-- The first socket stays open while the second slot is opened and closed `n` times; then a
socket is opened in it. -/
def roundTrip (n : ℕ) : List TcpCall :=
  .create :: ((List.replicate n openClose).flatten ++ [.create])

/-- When the counter has come back, the new socket has the port of the first one. -/
lemma roundTrip_shares_port {n : ℕ} (hn : nextPort^[n] 49153 = 49152) :
    let t := Runs.runFrom tcpCall (tcpInit 0x0F02000A fun _ => true) (roundTrip n)
    (t.sockets 0).inUse = true ∧ (t.sockets 1).inUse = true ∧
      (t.sockets 0).localPort = (t.sockets 1).localPort ∧
      ∀ remoteIp remotePort,
        tcpFindSocket t (t.sockets 1).localPort remoteIp remotePort = some 0 := by
  have hstart : Holding (tcpCall (tcpInit 0x0F02000A fun _ => true) .create) 49153 :=
    ⟨by decide, by decide, by decide, by decide, by decide⟩
  have hround := hstart.cycles n
  rw [hn] at hround
  obtain ⟨s, hs, hu, -, hport, -⟩ := hround.create
  rw [roundTrip, Runs.runFrom_cons, Runs.runFrom_append, Runs.runFrom_cons, Runs.runFrom_nil]
  dsimp only [tcpCall] at hs hround ⊢
  generalize Runs.runFrom tcpCall _ (List.replicate n openClose).flatten = u at hs hround ⊢
  have h0 : (tcpSocketCreate u).2.sockets 0 = u.sockets 0 := by
    rw [hs, Function.update_of_ne (by decide)]
  have h1 : (tcpSocketCreate u).2.sockets 1 = s := by
    rw [hs, Function.update_self]
  refine ⟨by rw [h0, hround.live], by rw [h1, hu], by rw [h0, h1, hround.port, hport], ?_⟩
  intro remoteIp remotePort
  have hlist : List.finRange tcpMaxSockets = 0 :: (List.finRange tcpMaxSockets).drop 1 := by
    decide
  rw [tcpFindSocket, hlist, h1, hport]
  simp [h0, hround.live, hround.port, hround.unbound]

/-- **A port is given out twice.**  A socket stays open while 15848 sockets are opened and
closed after it; the next one gets its port, and `tcp_find_socket` hands the segments of the
new socket to the old one. -/
theorem port_reused_after_round :
    let t := Runs.runFrom tcpCall (tcpInit 0x0F02000A fun _ => true) (roundTrip 15848)
    (t.sockets 0).inUse = true ∧ (t.sockets 1).inUse = true ∧
      (t.sockets 0).localPort = (t.sockets 1).localPort ∧
      ∀ remoteIp remotePort,
        tcpFindSocket t (t.sockets 1).localPort remoteIp remotePort = some 0 :=
  roundTrip_shares_port (by
    rw [Function.iterate_succ_apply', iterate_nextPort (by decide)]
    decide)

end Bangos.Net
