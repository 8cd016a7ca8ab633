import Bangos.Lib.IndexRing
import Bangos.Lib.Runs

/-!
# The receive queue of the network card (`kernel/drivers/virtio_net.c`)

The driver posts `num_rx` buffers once and then takes packets with `virtio_net_poll_packet`,
which gives every buffer back as soon as it has copied the packet.  The device takes the
buffers it is offered in order, fills them and reports them, in any order, each once.  Two
rings with free-running 16-bit indices lie between the two parties.

Driver and device act in any interleaving, also between the two halves of a poll.  Every
buffer is in one place at all times, no entry of a ring is overwritten before it is read, and
the packets the driver returns are the packets the device reported, in its order
(`rx_conserves`).

The descriptor table is written once, `desc[i]` pointing at `rx_buffers[i]`, and is left out:
a descriptor is the number of its buffer.
-/

namespace Bangos.Drivers

/-- `VIRTIO_NET_RX_BUFFERS`. -/
def virtioNetRxBuffers : ℕ := 16

/-- `sizeof(virtio_net_hdr_t)`. -/
def virtioNetHdrSize : ℕ := 10

/-- `sizeof(virtio_net_rx_buf_t)`: header and data, rounded up to a multiple of 16. -/
def virtioNetRxBufSize : ℕ := 1552

/-- `struct vring_used_elem`. -/
structure VringUsedElem where
  id : UInt32
  len : UInt32
deriving DecidableEq, Repr

/-- The receive queue, as driver and device share it, and what each of them keeps. -/
structure RxQueue where
  /-- `net_present`. -/
  netPresent : Bool
  /-- `rx_queue.queue_size`. -/
  queueSize : ℕ
  /-- The available ring: the driver counts `avail->idx`, the device an index of its own. -/
  avail : IndexRing UInt16
  /-- The used ring: the device counts `used->idx`, the driver `last_used_idx`. -/
  used : IndexRing VringUsedElem
  /-- `rx_buffers[i].data`, with the padding after it. -/
  buffers : ℕ → List UInt8
  /-- The descriptors the device has taken and not yet reported. -/
  inFlight : List UInt16
  /-- The descriptor whose packet the driver has copied and which it has not yet given back. -/
  held : Option UInt32

/-- `num_rx` in `virtio_net_init`. -/
def numRx (queueSize : ℕ) : ℕ :=
  if queueSize < virtioNetRxBuffers then queueSize else virtioNetRxBuffers

/-- The available ring as `virtio_net_init` fills it. -/
def postedRing (n : ℕ) : ℕ → UInt16 :=
  (List.range n).foldl (fun r i => Function.update r i (UInt16.ofNat i)) fun _ => 0

/-- The part of `virtio_net_init` that populates the receive queue; the pages of the queue and
the buffers are zeroed. -/
def virtioNetInitRx (queueSize : ℕ) : RxQueue where
  netPresent := true
  queueSize := queueSize
  avail := ⟨postedRing (numRx queueSize), UInt16.ofNat (numRx queueSize), 0⟩
  used := ⟨fun _ => ⟨0, 0⟩, 0, 0⟩
  buffers := fun _ => List.replicate (virtioNetRxBufSize - virtioNetHdrSize) 0
  inFlight := []
  held := none

/-- The length `virtio_net_poll_packet` copies. -/
def packetLen (totalLen : UInt32) (maxLen : ℕ) : ℕ :=
  if totalLen.toNat > virtioNetHdrSize then min (totalLen.toNat - virtioNetHdrSize) maxLen else 0

/-- `virtio_net_poll_packet`: the bytes copied to `out_buf`. -/
def virtioNetPollPacket (q : RxQueue) (maxLen : ℕ) : List UInt8 × RxQueue :=
  if !q.netPresent || maxLen = 0 then ([], q)
  else if q.used.cons = q.used.prod then ([], q)
  else
    let elem := q.used.front q.queueSize
    let packet := (q.buffers elem.id.toNat).take (packetLen elem.len maxLen)
    (packet, { q with
      used := q.used.pop
      avail := q.avail.push q.queueSize elem.id.toUInt16 })

/-! ## The system of driver and device -/

/-- What driver and device do.  A poll is a `fetch` and a `recycle`. -/
inductive RxEvent where
  /-- The driver looks for a packet, copies it and counts `last_used_idx` up. -/
  | fetch (maxLen : ℕ)
  /-- The driver puts the descriptor back into the available ring. -/
  | recycle
  /-- The device takes the next available descriptor. -/
  | take
  /-- The device writes `bytes`, header first, to the buffer of the `n`-th descriptor it has
  taken, and reports it. -/
  | report (n : ℕ) (bytes : List UInt8)

/-- The first half of a poll finds a packet. -/
def RxQueue.Fetches (q : RxQueue) (maxLen : ℕ) : Prop :=
  q.netPresent = true ∧ maxLen ≠ 0 ∧ q.used.cons ≠ q.used.prod ∧ q.held = none

instance (q : RxQueue) (maxLen : ℕ) : Decidable (q.Fetches maxLen) :=
  inferInstanceAs (Decidable (_ ∧ _ ∧ _ ∧ _))

/-- The packet a `fetch` copies. -/
def RxQueue.packet (q : RxQueue) (maxLen : ℕ) : List UInt8 :=
  (q.buffers (q.used.front q.queueSize).id.toNat).take
    (packetLen (q.used.front q.queueSize).len maxLen)

/-- One step of driver or device. -/
def rxStep (q : RxQueue) : RxEvent → RxQueue
  | .fetch maxLen =>
    if q.Fetches maxLen then
      { q with used := q.used.pop, held := some (q.used.front q.queueSize).id }
    else q
  | .recycle =>
    match q.held with
    | none => q
    | some id => { q with avail := q.avail.push q.queueSize id.toUInt16, held := none }
  | .take =>
    if q.avail.cons = q.avail.prod then q
    else { q with
      avail := q.avail.pop
      inFlight := q.inFlight ++ [q.avail.front q.queueSize] }
  | .report n bytes =>
    match q.inFlight[n]? with
    | none => q
    | some id =>
      if bytes.length ≤ virtioNetRxBufSize then
        { q with
          buffers := Function.update q.buffers id.toNat
            (bytes.drop virtioNetHdrSize ++
              (q.buffers id.toNat).drop (bytes.length - virtioNetHdrSize))
          used := q.used.push q.queueSize ⟨id.toUInt32, UInt32.ofNat bytes.length⟩
          inFlight := q.inFlight.eraseIdx n }
      else q

/-- **A poll is its two halves**, with nothing of the device between them. -/
theorem virtioNetPollPacket_steps {q : RxQueue} (h : q.held = none) (maxLen : ℕ) :
    (virtioNetPollPacket q maxLen).2 = Runs.runFrom rxStep q [.fetch maxLen, .recycle] ∧
      (virtioNetPollPacket q maxLen).1 = if q.Fetches maxLen then q.packet maxLen else [] := by
  change _ = rxStep (rxStep q (.fetch maxLen)) .recycle ∧ _
  by_cases hf : q.Fetches maxLen
  · obtain ⟨h1, h2, h3, -⟩ := id hf
    have hfetch : rxStep q (.fetch maxLen) =
        { q with used := q.used.pop, held := some (q.used.front q.queueSize).id } := if_pos hf
    have hcheck : ¬ (!q.netPresent || decide (maxLen = 0)) = true := by simp [h1, h2]
    rw [hfetch, if_pos hf, virtioNetPollPacket, if_neg hcheck, if_neg h3, rxStep]
    exact ⟨by simp [h], rfl⟩
  · have hfetch : rxStep q (.fetch maxLen) = q := if_neg hf
    have hpoll : virtioNetPollPacket q maxLen = ([], q) := by
      by_cases hcheck : (!q.netPresent || decide (maxLen = 0)) = true
      · rw [virtioNetPollPacket, if_pos hcheck]
      · rw [virtioNetPollPacket, if_neg hcheck]
        refine if_pos ?_
        by_contra h3
        simp only [Bool.or_eq_true, decide_eq_true_eq, not_or] at hcheck
        exact hf ⟨by simpa using hcheck.1, hcheck.2, h3, h⟩
    rw [hfetch, hpoll, if_neg hf, rxStep, h]
    exact ⟨rfl, rfl⟩

/-! ## The record of a run -/

/-- The frame a step of the device reports. -/
def RxEvent.reports (q : RxQueue) : RxEvent → List (List UInt8)
  | .report n bytes =>
    if n < q.inFlight.length ∧ bytes.length ≤ virtioNetRxBufSize then
      [bytes.drop virtioNetHdrSize]
    else []
  | _ => []

/-- The packet a step of the driver returns, with the length it was asked for. -/
def RxEvent.returns (q : RxQueue) : RxEvent → List (ℕ × List UInt8)
  | .fetch maxLen => if q.Fetches maxLen then [(maxLen, q.packet maxLen)] else []
  | _ => []

/-- The queue, with the frames the device has reported and the packets the driver has
returned. -/
structure RxLog where
  queue : RxQueue
  reported : List (List UInt8)
  returned : List (ℕ × List UInt8)

/-- One step, recorded. -/
def rxLogStep (l : RxLog) (e : RxEvent) : RxLog where
  queue := rxStep l.queue e
  reported := l.reported ++ e.reports l.queue
  returned := l.returned ++ e.returns l.queue

/-- The descriptors, place by place: available, taken by the device, used and not yet polled,
and in the hands of the driver in the middle of a poll. -/
def RxQueue.places (q : RxQueue) : List ℕ :=
  (q.avail.pending q.queueSize).map UInt16.toNat ++ (q.inFlight.map UInt16.toNat ++
    ((q.used.pending q.queueSize).map (fun e => e.id.toNat) ++ q.held.toList.map UInt32.toNat))

/-- A packet is the frame the device reported, cut to the length that was asked for. -/
def Returns (r : ℕ × List UInt8) (frame : List UInt8) : Prop := r.2 = frame.take r.1

/-- The buffer of a used descriptor holds the frame. -/
def HoldsFrame (buffers : ℕ → List UInt8) (e : VringUsedElem) (frame : List UInt8) : Prop :=
  frame.length = e.len.toNat - virtioNetHdrSize ∧
    (buffers e.id.toNat).take frame.length = frame

/-- What holds along every run on a queue of `size` entries. -/
structure RxInv (size : ℕ) (l : RxLog) : Prop where
  size_eq : l.queue.queueSize = size
  places : l.queue.places.Perm (List.range (numRx size))
  /-- The frames returned, followed by those still in buffers, are those reported. -/
  frames : ∃ old new, l.reported = old ++ new ∧ List.Forall₂ Returns l.returned old ∧
    List.Forall₂ (HoldsFrame l.queue.buffers) (l.queue.used.pending size) new

/-! ## One step -/

section Step

variable {size : ℕ} {l : RxLog}

lemma numRx_le (size : ℕ) : numRx size ≤ size ∧ numRx size ≤ 16 := by
  unfold numRx virtioNetRxBuffers
  split_ifs <;> omega

lemma RxInv.counts (h : RxInv size l) :
    l.queue.avail.count + l.queue.inFlight.length + l.queue.used.count +
      l.queue.held.toList.length = numRx size := by
  have hlen := h.places.length_eq
  simp only [RxQueue.places, List.length_append, List.length_map, IndexRing.length_pending,
    List.length_range] at hlen
  omega

lemma RxInv.nodup (h : RxInv size l) : l.queue.places.Nodup :=
  h.places.nodup_iff.mpr List.nodup_range

lemma RxInv.lt_of_mem (h : RxInv size l) {id : ℕ} (hid : id ∈ l.queue.places) : id < 16 := by
  have hmem := List.mem_range.mp (h.places.mem_iff.mp hid)
  have := (numRx_le size).2
  omega

lemma packet_returns {q : RxQueue} {frame : List UInt8} (maxLen : ℕ)
    (h : HoldsFrame q.buffers (q.used.front q.queueSize) frame) :
    Returns (maxLen, q.packet maxLen) frame := by
  obtain ⟨hlen, hbuf⟩ := h
  have hpacket : packetLen (q.used.front q.queueSize).len maxLen = min maxLen frame.length := by
    unfold packetLen
    split_ifs <;> omega
  rw [Returns, RxQueue.packet, hpacket]
  conv_rhs => rw [← hbuf, List.take_take]

lemma rxInv_fetch (h : RxInv size l) (maxLen : ℕ) : RxInv size (rxLogStep l (.fetch maxLen)) := by
  unfold rxLogStep
  by_cases hf : l.queue.Fetches maxLen
  · obtain ⟨h1, h2, h3, h4⟩ := id hf
    have hpop : l.queue.used.pending size = _ := IndexRing.pending_pop h3
    have hstep : rxStep l.queue (.fetch maxLen) = { l.queue with
        used := l.queue.used.pop
        held := some (l.queue.used.front l.queue.queueSize).id } := if_pos hf
    rw [hstep]
    simp only [RxEvent.reports, RxEvent.returns, if_pos hf, List.append_nil]
    refine ⟨h.size_eq, ?_, ?_⟩
    · refine List.Perm.trans ?_ h.places
      simp only [RxQueue.places, h.size_eq, h4, hpop]
      simp only [List.map_cons, Option.toList_none, List.map_nil, List.append_nil,
        Option.toList_some]
      refine List.Perm.append_left _ (List.Perm.append_left _ ?_)
      exact List.perm_append_singleton _ _
    · obtain ⟨old, new, hrep, hret, hbuf⟩ := h.frames
      rw [hpop] at hbuf
      obtain ⟨f, new, hf', hrest, rfl⟩ := List.forall₂_cons_left_iff.mp hbuf
      refine ⟨old ++ [f], new, by simp [hrep], ?_, hrest⟩
      refine List.rel_append hret ?_
      rw [← h.size_eq] at hf'
      exact .cons (packet_returns maxLen hf') .nil
  · have hstep : rxStep l.queue (.fetch maxLen) = l.queue := if_neg hf
    rw [hstep]
    simpa [RxEvent.reports, RxEvent.returns, hf] using h

lemma rxInv_recycle (hd : size ∣ 65536) (h : RxInv size l) :
    RxInv size (rxLogStep l .recycle) := by
  unfold rxLogStep
  simp only [RxEvent.reports, RxEvent.returns, List.append_nil]
  cases hheld : l.queue.held with
  | none =>
    have hstep : rxStep l.queue .recycle = l.queue := by rw [rxStep, hheld]
    rw [hstep]
    exact h
  | some id =>
    have hstep : rxStep l.queue .recycle = { l.queue with
        avail := l.queue.avail.push l.queue.queueSize id.toUInt16
        held := none } := by rw [rxStep, hheld]
    have hid : id.toUInt16.toNat = id.toNat := by
      have hmem : id.toNat ∈ l.queue.places := by simp [RxQueue.places, hheld]
      have := h.lt_of_mem hmem
      rw [UInt32.toNat_toUInt16]
      omega
    have hcounts := h.counts
    have hle := numRx_le size
    simp only [hheld, Option.toList_some, List.length_singleton] at hcounts
    have hpush : (l.queue.avail.push size id.toUInt16).pending size = _ :=
      IndexRing.pending_push hd (by omega) (by omega) _
    rw [hstep]
    refine ⟨h.size_eq, ?_, h.frames⟩
    refine List.Perm.trans ?_ h.places
    simp only [RxQueue.places, h.size_eq, hheld, hpush, List.map_append, List.map_cons,
      List.map_nil, hid, Option.toList_none, Option.toList_some, List.append_nil]
    rw [List.append_assoc]
    refine List.Perm.append_left _ ?_
    rw [← List.append_assoc (l.queue.inFlight.map _)]
    exact List.perm_append_comm

lemma rxInv_take (h : RxInv size l) : RxInv size (rxLogStep l .take) := by
  unfold rxLogStep
  simp only [RxEvent.reports, RxEvent.returns, List.append_nil]
  by_cases hempty : l.queue.avail.cons = l.queue.avail.prod
  · have hstep : rxStep l.queue .take = l.queue := if_pos hempty
    rw [hstep]
    exact h
  · have hstep : rxStep l.queue .take = { l.queue with
        avail := l.queue.avail.pop
        inFlight := l.queue.inFlight ++ [l.queue.avail.front l.queue.queueSize] } := if_neg hempty
    have hpop : l.queue.avail.pending size = _ := IndexRing.pending_pop hempty
    rw [hstep]
    refine ⟨h.size_eq, ?_, h.frames⟩
    refine List.Perm.trans ?_ h.places
    simp only [RxQueue.places, h.size_eq, hpop, List.map_append, List.map_cons, List.map_nil,
      List.append_assoc, List.cons_append, List.nil_append]
    rw [← List.append_assoc]
    refine List.perm_middle.trans ?_
    rw [List.append_assoc]

lemma holdsFrame_written (buffers : ℕ → List UInt8) (id : UInt16) {bytes : List UInt8}
    (hlen : bytes.length ≤ virtioNetRxBufSize) :
    HoldsFrame (Function.update buffers id.toNat (bytes.drop virtioNetHdrSize ++
      (buffers id.toNat).drop (bytes.length - virtioNetHdrSize)))
      ⟨id.toUInt32, UInt32.ofNat bytes.length⟩ (bytes.drop virtioNetHdrSize) := by
  have hnat : (UInt32.ofNat bytes.length).toNat = bytes.length := by
    rw [UInt32.toNat_ofNat']
    unfold virtioNetRxBufSize at hlen
    omega
  refine ⟨by simp [hnat], ?_⟩
  rw [UInt16.toNat_toUInt32, Function.update_self, List.take_left]

lemma HoldsFrame.update {buffers : ℕ → List UInt8} {e : VringUsedElem} {frame : List UInt8}
    (h : HoldsFrame buffers e frame) {id : ℕ} (hne : e.id.toNat ≠ id) (data : List UInt8) :
    HoldsFrame (Function.update buffers id data) e frame := by
  refine ⟨h.1, ?_⟩
  rw [Function.update_of_ne hne]
  exact h.2

lemma rxInv_report (hd : size ∣ 65536) (h : RxInv size l) (n : ℕ) (bytes : List UInt8) :
    RxInv size (rxLogStep l (.report n bytes)) := by
  unfold rxLogStep
  by_cases hrep : n < l.queue.inFlight.length ∧ bytes.length ≤ virtioNetRxBufSize
  · obtain ⟨hn, hlen⟩ := hrep
    have hget : l.queue.inFlight[n]? = some l.queue.inFlight[n] := List.getElem?_eq_getElem hn
    generalize hid : l.queue.inFlight[n] = id at hget
    have hstep : rxStep l.queue (.report n bytes) = { l.queue with
        buffers := Function.update l.queue.buffers id.toNat
          (bytes.drop virtioNetHdrSize ++
            (l.queue.buffers id.toNat).drop (bytes.length - virtioNetHdrSize))
        used := l.queue.used.push l.queue.queueSize ⟨id.toUInt32, UInt32.ofNat bytes.length⟩
        inFlight := l.queue.inFlight.eraseIdx n } := by
      simp only [rxStep, hget, if_pos hlen]
    have herase : l.queue.inFlight.Perm (id :: l.queue.inFlight.eraseIdx n) := by
      rw [← hid]
      exact (List.getElem_cons_eraseIdx_perm hn).symm
    have hcounts := h.counts
    have hle := numRx_le size
    have hpush : (l.queue.used.push size ⟨id.toUInt32, UInt32.ofNat bytes.length⟩).pending size =
        _ := IndexRing.pending_push hd (by omega) (by omega) _
    rw [hstep]
    simp only [RxEvent.reports, RxEvent.returns, if_pos (And.intro hn hlen), List.append_nil]
    refine ⟨h.size_eq, ?_, ?_⟩
    · refine List.Perm.trans ?_ h.places
      simp only [RxQueue.places, h.size_eq, hpush, List.map_append, List.map_cons, List.map_nil,
        UInt16.toNat_toUInt32]
      refine List.Perm.append_left _ ?_
      have hmap := herase.map UInt16.toNat
      rw [List.map_cons] at hmap
      refine List.Perm.trans ?_ (hmap.symm.append_right _)
      rw [List.append_assoc, List.cons_append, List.nil_append, ← List.append_assoc]
      refine List.perm_middle.trans ?_
      rw [List.append_assoc, List.cons_append]
    · obtain ⟨old, new, hrp, hret, hbuf⟩ := h.frames
      refine ⟨old, new ++ [bytes.drop virtioNetHdrSize], by simp [hrp], hret, ?_⟩
      rw [h.size_eq, hpush]
      refine List.rel_append ?_ (.cons (holdsFrame_written _ _ hlen) .nil)
      -- the descriptor reported is none of those that wait to be polled
      have hfresh : ∀ e ∈ l.queue.used.pending size, e.id.toNat ≠ id.toNat := by
        intro e he heq
        have hnd := h.nodup
        rw [RxQueue.places, h.size_eq] at hnd
        have hdisj := List.disjoint_of_nodup_append (List.nodup_append.mp hnd).2.1
        refine hdisj (a := id.toNat) ?_ ?_
        · exact List.mem_map_of_mem (herase.mem_iff.mpr (List.mem_cons_self ..))
        · rw [← heq]
          exact List.mem_append_left _ (List.mem_map_of_mem he)
      exact ((List.forall₂_and_left _ _).mpr ⟨hfresh, hbuf⟩).imp fun e f hef =>
        hef.2.update hef.1 _
  · have hstep : rxStep l.queue (.report n bytes) = l.queue := by
      simp only [rxStep]
      cases hget : l.queue.inFlight[n]? with
      | none => rfl
      | some id =>
        have hn := (List.getElem?_eq_some_iff.mp hget).1
        exact if_neg fun hlen => hrep ⟨hn, hlen⟩
    rw [hstep]
    simpa [RxEvent.reports, RxEvent.returns, hrep] using h

/-- **One step** keeps the invariant. -/
lemma rxInv_step (hd : size ∣ 65536) (h : RxInv size l) (e : RxEvent) :
    RxInv size (rxLogStep l e) := by
  cases e with
  | fetch maxLen => exact rxInv_fetch h maxLen
  | recycle => exact rxInv_recycle hd h
  | take => exact rxInv_take h
  | report n bytes => exact rxInv_report hd h n bytes

/-- No step writes an entry of the available ring that the device has not read. -/
lemma avail_kept (hd : size ∣ 65536) (h : RxInv size l) (e : RxEvent) {j : ℕ}
    (hj : l.queue.avail.Unread size j) :
    (rxStep l.queue e).avail.ring j = l.queue.avail.ring j := by
  cases e with
  | fetch maxLen =>
    simp only [rxStep]
    split_ifs <;> rfl
  | recycle =>
    simp only [rxStep]
    cases hheld : l.queue.held with
    | none => rfl
    | some id =>
      have hcounts := h.counts
      have hle := numRx_le size
      simp only [hheld, Option.toList_some, List.length_singleton] at hcounts
      dsimp only
      rw [h.size_eq]
      exact IndexRing.push_ring_of_unread hd (by omega) _ hj
  | take =>
    simp only [rxStep]
    split_ifs <;> rfl
  | report n bytes =>
    simp only [rxStep]
    split
    · rfl
    · split_ifs <;> rfl

/-- No step writes an entry of the used ring that the driver has not polled. -/
lemma used_kept (hd : size ∣ 65536) (h : RxInv size l) (e : RxEvent) {j : ℕ}
    (hj : l.queue.used.Unread size j) :
    (rxStep l.queue e).used.ring j = l.queue.used.ring j := by
  cases e with
  | fetch maxLen =>
    simp only [rxStep]
    split_ifs <;> rfl
  | recycle =>
    simp only [rxStep]
    cases l.queue.held <;> rfl
  | take =>
    simp only [rxStep]
    split_ifs <;> rfl
  | report n bytes =>
    simp only [rxStep]
    split
    · rfl
    next id hget =>
      have hn := (List.getElem?_eq_some_iff.mp hget).1
      have hcounts := h.counts
      have hle := numRx_le size
      split_ifs
      · dsimp only
        rw [h.size_eq]
        exact IndexRing.push_ring_of_unread hd (by omega) _ hj
      · rfl

end Step

/-! ## Every run -/

lemma postedRing_apply {n j : ℕ} (hj : j < n) : postedRing n j = UInt16.ofNat j := by
  induction n with
  | zero => omega
  | succ n ih =>
    rw [postedRing, List.range_succ, List.foldl_append, List.foldl_cons, List.foldl_nil]
    rcases Nat.lt_succ_iff_lt_or_eq.mp hj with hlt | rfl
    · rw [Function.update_of_ne (by omega)]
      exact ih hlt
    · rw [Function.update_self]

lemma rxInv_init {size : ℕ} (hd : size ∣ 65536) : RxInv size ⟨virtioNetInitRx size, [], []⟩ := by
  have hle := numRx_le size
  have hused : (virtioNetInitRx size).used.pending size = [] := by
    simp [virtioNetInitRx, IndexRing.pending, IndexRing.count]
  refine ⟨rfl, ?_, [], [], rfl, .nil, by rw [hused]; exact .nil⟩
  have hcount : (virtioNetInitRx size).avail.count = numRx size := by
    simp only [IndexRing.count, virtioNetInitRx, UInt16.sub_zero, UInt16.toNat_ofNat']
    omega
  have havail : ((virtioNetInitRx size).avail.pending size).map UInt16.toNat =
      List.range (numRx size) := by
    rw [IndexRing.pending, hcount, List.map_map]
    conv_rhs => rw [← List.map_id (List.range (numRx size))]
    apply List.map_congr_left
    intro k hk
    have hk := List.mem_range.mp hk
    have hslot : IndexRing.slot size ((virtioNetInitRx size).avail.cons + UInt16.ofNat k) = k := by
      rw [IndexRing.slot_add hd]
      change (0 + k) % size = k
      rw [Nat.zero_add, Nat.mod_eq_of_lt (by omega)]
    rw [Function.comp_apply, hslot, id, virtioNetInitRx]
    dsimp only
    rw [postedRing_apply hk, UInt16.toNat_ofNat']
    omega
  rw [RxQueue.places, show (virtioNetInitRx size).queueSize = size from rfl, havail, hused]
  simp [virtioNetInitRx]

/-- **The receive queue conserves its buffers and its packets.**  On a queue whose size is a
power of two, in every state that driver and device reach together, in any interleaving and
after any number of packets: every posted descriptor is in exactly one place; no step
overwrites an entry of a ring that is still to be read; and the packets returned are the
frames the device reported, each once and in its order, cut to the length asked for, while
the frames not yet returned are as many as the used entries not yet polled. -/
theorem rx_conserves {k : ℕ} (hk : k ≤ 15) (es : List RxEvent) :
    let l := Runs.runFrom rxLogStep ⟨virtioNetInitRx (2 ^ k), [], []⟩ es
    l.queue.places.Perm (List.range (numRx (2 ^ k))) ∧
      (∀ e j, l.queue.avail.Unread (2 ^ k) j →
        (rxStep l.queue e).avail.ring j = l.queue.avail.ring j) ∧
      (∀ e j, l.queue.used.Unread (2 ^ k) j →
        (rxStep l.queue e).used.ring j = l.queue.used.ring j) ∧
      List.Forall₂ Returns l.returned (l.reported.take l.returned.length) ∧
      l.returned.length + l.queue.used.count = l.reported.length := by
  have hd : 2 ^ k ∣ 65536 := Nat.pow_dvd_pow 2 (by omega : k ≤ 16)
  have hrun := Runs.invariant_runFrom_of_step (I := RxInv (2 ^ k))
    (fun l e hl => rxInv_step hd hl e) (rxInv_init hd) es
  obtain ⟨old, new, hrep, hret, hbuf⟩ := hrun.frames
  have hold := hret.length_eq
  have hnew := hbuf.length_eq
  rw [IndexRing.length_pending] at hnew
  refine ⟨hrun.places, fun e j => avail_kept hd hrun e, fun e j => used_kept hd hrun e, ?_, ?_⟩
  · rw [hrep, hold, List.take_left]
    exact hret
  · rw [hrep, List.length_append]
    omega

/-- Two packets on a queue of two entries, the second taken first. -/
def twoPackets : List RxEvent :=
  [.take, .take, .report 1 (List.replicate 10 0 ++ [7, 8]), .report 0 (List.replicate 10 0 ++ [9]),
    .fetch 1, .recycle, .fetch 100]

theorem rx_conserves_twoPackets :
    let l := Runs.runFrom rxLogStep ⟨virtioNetInitRx (2 ^ 1), [], []⟩ twoPackets
    (l.queue.places.Perm (List.range (numRx (2 ^ 1))) ∧
      (∀ e j, l.queue.avail.Unread (2 ^ 1) j →
        (rxStep l.queue e).avail.ring j = l.queue.avail.ring j) ∧
      (∀ e j, l.queue.used.Unread (2 ^ 1) j →
        (rxStep l.queue e).used.ring j = l.queue.used.ring j) ∧
      List.Forall₂ Returns l.returned (l.reported.take l.returned.length) ∧
      l.returned.length + l.queue.used.count = l.reported.length) ∧
    l.returned = [(1, [7]), (100, [9])] :=
  ⟨rx_conserves (by decide) twoPackets, by decide +kernel⟩

end Bangos.Drivers
