import Bangos.Drivers.VirtioRx

/-!
# The transmit queue of the network card

`virtio_net_send_packet` has one buffer and one descriptor for all packets.  It fills them,
makes the descriptor available and waits for the device, but for 500000 polls at most; then it
returns as if the packet had been sent.  The device takes as long as it likes.

Where every wait sees its packet completed, the buffer is free whenever it is filled, and the
device sends what was queued (`tx_sends_queued`).  Where the device is slower than the wait,
the next call overwrites the packet before it is sent (`slow_device_sends_overwritten`).
-/

namespace Bangos.Drivers

/-- `VIRTIO_NET_MAX_PKT_SIZE`. -/
def virtioNetMaxPktSize : ℕ := 1536

/-- The polls `virtio_net_send_packet` makes before it gives up. -/
def txTimeout : ℕ := 500000

/-- The transmit queue, as driver and device share it, and what each of them keeps. -/
structure TxQueue where
  /-- `net_present`. -/
  netPresent : Bool
  /-- `tx_queue.queue_size`. -/
  queueSize : ℕ
  /-- The available ring: the driver counts `avail->idx`, the device the entries it has
  completed. -/
  avail : IndexRing UInt16
  /-- `used->idx`. -/
  usedIdx : UInt16
  /-- `last_used_idx`. -/
  lastUsedIdx : UInt16
  /-- `tx_buffer->data`. -/
  txData : List UInt8
  /-- `desc[0].len`; `desc[0].addr` is always `tx_buffer`. -/
  descLen : UInt32
  /-- The frames the device has sent, oldest first. -/
  sent : List (List UInt8)

/-- The transmit queue after `virtio_net_init`; its pages and the buffer are zeroed. -/
def virtioNetInitTx (queueSize : ℕ) : TxQueue where
  netPresent := true
  queueSize := queueSize
  avail := ⟨fun _ => 0, 0, 0⟩
  usedIdx := 0
  lastUsedIdx := 0
  txData := List.replicate virtioNetMaxPktSize 0
  descLen := 0
  sent := []

/-- The device sends the packet of the next available entry and reports the entry as used.  It
reads descriptor and buffer when it sends; the descriptors other than 0 are empty. -/
def complete (q : TxQueue) : TxQueue :=
  if q.avail.cons = q.avail.prod then q
  else { q with
    avail := q.avail.pop
    usedIdx := q.usedIdx + 1
    sent := q.sent ++ [if q.avail.front q.queueSize = 0 then
      q.txData.take (q.descLen.toNat - virtioNetHdrSize) else []] }

/-- `virtio_net_send_packet` up to its waiting loop. -/
def txQueuePacket (q : TxQueue) (data : List UInt8) : TxQueue :=
  { q with
    txData := data ++ q.txData.drop data.length
    descLen := UInt32.ofNat (virtioNetHdrSize + data.length)
    avail := q.avail.push q.queueSize 0 }

/-- The waiting loop; `acts` says how many packets the device completes before each poll. -/
def txWait : ℕ → TxQueue → List ℕ → TxQueue
  | 0, q, _ => q
  | n + 1, q, acts =>
    let q := complete^[acts.headD 0] q
    if q.lastUsedIdx ≠ q.usedIdx then { q with lastUsedIdx := q.lastUsedIdx + 1 }
    else txWait n q acts.tail

/-- The arguments `virtio_net_send_packet` accepts. -/
def TxQueue.Accepts (q : TxQueue) (data : List UInt8) : Prop :=
  q.netPresent = true ∧ data.length ≠ 0 ∧ data.length ≤ virtioNetMaxPktSize

instance (q : TxQueue) (data : List UInt8) : Decidable (q.Accepts data) :=
  inferInstanceAs (Decidable (_ ∧ _ ∧ _))

/-- `virtio_net_send_packet`. -/
def virtioNetSendPacket (q : TxQueue) (data : List UInt8) (acts : List ℕ) : ℤ × TxQueue :=
  if q.Accepts data then (data.length, txWait txTimeout (txQueuePacket q data) acts) else (-1, q)

/-! ## Runs -/

/-- A call of `virtio_net_send_packet`, with what the device does meanwhile, or a step of the
device between two calls. -/
inductive TxEvent where
  | send (data : List UInt8) (acts : List ℕ)
  | complete

/-- The queue, and the data of the calls that queued a packet. -/
structure TxLog where
  queue : TxQueue
  queued : List (List UInt8)

/-- One event, recorded. -/
def txLogStep (l : TxLog) : TxEvent → TxLog
  | .send data acts =>
    { queue := (virtioNetSendPacket l.queue data acts).2
      queued := l.queued ++ if l.queue.Accepts data then [data] else [] }
  | .complete => { l with queue := complete l.queue }

/-- The event does not fill the buffer while a packet is available and not yet used. -/
def LeavesPending (l : TxLog) : TxEvent → Prop
  | .send data _ => l.queue.Accepts data → l.queue.avail.cons = l.queue.avail.prod
  | .complete => True

/-- The device completes a packet before one of the polls of the call. -/
def CompletesInTime (l : TxLog) : TxEvent → Prop
  | .send data acts => l.queue.Accepts data → ∃ n < txTimeout, acts.getD n 0 ≠ 0
  | .complete => True

/-! ## A device that is fast enough -/

/-- Between calls: nothing is available, and every completion has been seen. -/
structure TxIdle (l : TxLog) : Prop where
  zeros : ∀ j, l.queue.avail.ring j = 0
  idle : l.queue.avail.cons = l.queue.avail.prod
  seen : l.queue.lastUsedIdx = l.queue.usedIdx
  sent : l.queue.sent = l.queued

section Fast

variable {q : TxQueue}

lemma complete_of_idle (h : q.avail.cons = q.avail.prod) : complete q = q := if_pos h

lemma iterate_complete_of_idle (h : q.avail.cons = q.avail.prod) (n : ℕ) :
    complete^[n] q = q := by
  induction n with
  | zero => rfl
  | succ n ih => rw [Function.iterate_succ_apply, complete_of_idle h, ih]

lemma iterate_complete_of_one (h : q.avail.cons + 1 = q.avail.prod) {n : ℕ} (hn : n ≠ 0) :
    complete^[n] q = complete q := by
  have hne : ¬ q.avail.cons = q.avail.prod := by
    rw [← h]
    simp
  obtain ⟨n, rfl⟩ := Nat.exists_eq_succ_of_ne_zero hn
  rw [Function.iterate_succ_apply]
  refine iterate_complete_of_idle ?_ n
  rw [complete, if_neg hne]
  exact h

lemma txWait_of_one (h : q.avail.cons + 1 = q.avail.prod) (hseen : q.lastUsedIdx = q.usedIdx) :
    ∀ {m n : ℕ} {acts : List ℕ}, n < m → acts.getD n 0 ≠ 0 →
      txWait m q acts = { complete q with lastUsedIdx := q.lastUsedIdx + 1 } := by
  have hne : ¬ q.avail.cons = q.avail.prod := by
    rw [← h]
    simp
  have hused : (complete q).usedIdx = q.usedIdx + 1 ∧ (complete q).lastUsedIdx = q.lastUsedIdx := by
    rw [complete, if_neg hne]
    exact ⟨rfl, rfl⟩
  intro m
  induction m with
  | zero => intro n acts hn; omega
  | succ m ih =>
    intro n acts hn hact
    rw [txWait]
    dsimp only
    by_cases hzero : acts.headD 0 = 0
    · -- the device does nothing before this poll
      rw [hzero, Function.iterate_zero, id, if_neg (not_not.mpr hseen)]
      cases n with
      | zero =>
        cases acts with
        | nil => exact absurd rfl hact
        | cons a as => exact absurd hzero hact
      | succ n =>
        refine ih (n := n) (by omega) ?_
        cases acts with
        | nil => exact absurd rfl hact
        | cons a as => simpa using hact
    · rw [iterate_complete_of_one h hzero, if_pos (by rw [hused.1, hused.2, hseen]; simp), hused.2]

lemma frame_of_queued {data : List UInt8} (h : data.length ≤ virtioNetMaxPktSize) :
    (txQueuePacket q data).txData.take
      ((txQueuePacket q data).descLen.toNat - virtioNetHdrSize) = data := by
  have hlen : (txQueuePacket q data).descLen.toNat = virtioNetHdrSize + data.length := by
    rw [txQueuePacket, UInt32.toNat_ofNat']
    unfold virtioNetMaxPktSize at h
    unfold virtioNetHdrSize
    omega
  rw [hlen, Nat.add_sub_cancel_left]
  exact List.take_left

lemma txIdle_send {l : TxLog} (h : TxIdle l) {data : List UInt8} {acts : List ℕ}
    (htime : CompletesInTime l (.send data acts)) : TxIdle (txLogStep l (.send data acts)) := by
  rw [txLogStep, virtioNetSendPacket]
  by_cases hacc : l.queue.Accepts data
  · obtain ⟨n, hn, hact⟩ := htime hacc
    have hone : (txQueuePacket l.queue data).avail.cons + 1 =
        (txQueuePacket l.queue data).avail.prod := by
      simp [txQueuePacket, IndexRing.push, h.idle]
    have hzeros : ∀ j, (txQueuePacket l.queue data).avail.ring j = 0 := by
      intro j
      simp only [txQueuePacket, IndexRing.push, Function.update_apply]
      split_ifs
      · rfl
      · exact h.zeros j
    have hne : ¬ (txQueuePacket l.queue data).avail.cons =
        (txQueuePacket l.queue data).avail.prod := by
      rw [← hone]
      simp
    have hfront : (txQueuePacket l.queue data).avail.front
        (txQueuePacket l.queue data).queueSize = 0 := hzeros _
    rw [if_pos hacc, if_pos hacc, txWait_of_one hone h.seen hn hact, complete, if_neg hne,
      if_pos hfront, frame_of_queued hacc.2.2]
    refine ⟨hzeros, hone, ?_, ?_⟩
    · simp [txQueuePacket, h.seen]
    · simp [txQueuePacket, h.sent]
  · rw [if_neg hacc, if_neg hacc, List.append_nil]
    exact h

/-- **One event** leaves the queue idle, when the device is fast enough. -/
lemma txIdle_step {l : TxLog} {e : TxEvent} (h : TxIdle l) (htime : CompletesInTime l e) :
    TxIdle (txLogStep l e) := by
  cases e with
  | send data acts => exact txIdle_send h htime
  | complete =>
    rw [txLogStep, complete_of_idle h.idle]
    exact h

end Fast

/-- **The transmit buffer has one owner at a time**, in every run in which the device completes
a packet before one of the polls of each call: no call fills the buffer while an earlier
packet is available and not yet used, and the device sends the data of the calls, each once
and in order. -/
theorem tx_sends_queued (queueSize : ℕ) {es : List TxEvent}
    (hes : Runs.StepsMeet txLogStep CompletesInTime ⟨virtioNetInitTx queueSize, []⟩ es) :
    let l := Runs.runFrom txLogStep ⟨virtioNetInitTx queueSize, []⟩ es
    Runs.StepsMeet txLogStep LeavesPending ⟨virtioNetInitTx queueSize, []⟩ es ∧
      l.queue.sent = l.queued := by
  have hinit : TxIdle ⟨virtioNetInitTx queueSize, []⟩ := ⟨fun _ => rfl, rfl, rfl, rfl⟩
  have hstep : ∀ l e, TxIdle l → CompletesInTime l e → TxIdle (txLogStep l e) :=
    fun l e => txIdle_step
  refine ⟨Runs.stepsMeet_of_invariant hstep ?_ hinit hes,
    (Runs.invariant_runFrom hstep hinit hes).sent⟩
  intro l e hl _
  cases e with
  | send data acts => exact fun _ => hl.idle
  | complete => trivial

/-- Two calls, completed before the first and before the third poll. -/
theorem tx_sends_queued_twice :
    let es : List TxEvent := [.send [1] [1], .send [2] [0, 0, 1]]
    let l := Runs.runFrom txLogStep ⟨virtioNetInitTx 256, []⟩ es
    Runs.StepsMeet txLogStep LeavesPending ⟨virtioNetInitTx 256, []⟩ es ∧
      l.queue.sent = l.queued :=
  tx_sends_queued 256 ⟨fun _ => ⟨0, by decide, by decide⟩, fun _ => ⟨2, by decide, by decide⟩,
    trivial⟩

/-! ## A device that is slower than the wait -/

lemma txWait_nil {q : TxQueue} (h : q.lastUsedIdx = q.usedIdx) (n : ℕ) : txWait n q [] = q := by
  induction n with
  | zero => rfl
  | succ n ih => rw [txWait, List.headD_nil, Function.iterate_zero, id, if_neg (not_not.mpr h),
      List.tail_nil, ih]

lemma txLogStep_slow {l : TxLog} (h : l.queue.lastUsedIdx = l.queue.usedIdx)
    {data : List UInt8} (hacc : l.queue.Accepts data) :
    txLogStep l (.send data []) = ⟨txQueuePacket l.queue data, l.queued ++ [data]⟩ := by
  have hwait := txWait_nil (q := txQueuePacket l.queue data) h txTimeout
  rw [txLogStep, virtioNetSendPacket, if_pos hacc, if_pos hacc, hwait]

/-- **A slow device sends the wrong packet.**  Two calls run out of time before the device
has sent anything; then it sends two packets.  The second call filled the buffer while the
first packet was available and not yet used, and the device sends the second packet twice. -/
theorem slow_device_sends_overwritten :
    let es : List TxEvent := [.send [1] [], .send [2] [], .complete, .complete]
    let l := Runs.runFrom txLogStep ⟨virtioNetInitTx 256, []⟩ es
    ¬ Runs.StepsMeet txLogStep LeavesPending ⟨virtioNetInitTx 256, []⟩ es ∧
      l.queued = [[1], [2]] ∧ l.queue.sent = [[2], [2]] := by
  have h1 : txLogStep ⟨virtioNetInitTx 256, []⟩ (.send [1] []) =
      ⟨txQueuePacket (virtioNetInitTx 256) [1], [[1]]⟩ := txLogStep_slow rfl (by decide)
  have h2 : txLogStep ⟨txQueuePacket (virtioNetInitTx 256) [1], [[1]]⟩ (.send [2] []) =
      ⟨txQueuePacket (txQueuePacket (virtioNetInitTx 256) [1]) [2], [[1], [2]]⟩ :=
    txLogStep_slow rfl (by decide)
  simp only [Runs.stepsMeet_cons, Runs.runFrom_cons, h1, h2]
  refine ⟨fun h => ?_, ?_, ?_⟩
  · exact absurd (h.2.1 (by decide)) (by decide)
  · rfl
  · decide

end Bangos.Drivers
