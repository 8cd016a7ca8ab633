import Bangos.Net.Delivery

/-!
# The checksums of the packets that are sent

Every header with a checksum is completed in the same way: the field is cleared, `net_checksum` runs
over the message (for TCP with the pseudo header in front), and its result is stored in the field as
the machine stores a 16-bit number.  Here are the messages that the stack builds, among them those of
`icmp_ping`, and that `net_checksum` of each of them is 0.

`net_checksum` adds 16-bit words in a 32-bit counter and folds the carries at the end, which is the
sum of RFC 1071 as long as the counter does not overflow: for 131072 bytes.
-/

namespace Bangos.Net

open ByteMem OnesComplement

/-! ## Pings -/

/-- The id that `icmp_ping` uses. -/
def pingId : UInt16 := 0x4242

/-- The payload pattern of `icmp_ping`: 32 letters. -/
def pingPattern : List UInt8 := (List.range 32).map fun i => UInt8.ofNat (65 + i % 26)

/-- The echo request that `icmp_ping` builds. -/
def pingMessage (seq : UInt16) : List UInt8 :=
  let rest := be16Bytes pingId ++ be16Bytes seq ++ pingPattern
  [8, 0] ++ le16Bytes (netChecksum ([8, 0] ++ [0, 0] ++ rest)) ++ rest

namespace Stack

/-- The loop of `icmp_ping` that waits for the reply; time is over after `n` turns. -/
def pingWait : ℕ → Stack → Bool × Stack
  | 0, s => (false, s)
  | n + 1, s =>
    let s := netPoll ipv4Send s
    if s.pingReplyReceived then (true, s) else pingWait n s

/-- `icmp_ping`, with `seq` the value of `ping_seq_counter`. -/
def icmpPing (s : Stack) (dst : UInt32) (seq : UInt16) (turns : ℕ) : Bool × Stack :=
  let s := { s with
    pingExpectedId := pingId
    pingExpectedSeq := seq
    pingReplyReceived := false }
  let r := ipv4Send s dst ipProtoIcmp (pingMessage seq)
  if r.1 then pingWait turns r.2 else (false, r.2)

end Stack

/-! ## A field completed with the checksum -/

/-- A buffer whose 16-bit field at `off` has been cleared and then set to the checksum of the
buffer. -/
def withChecksum (buf : List UInt8) (off : ℕ) : List UInt8 :=
  let cleared := buf.take off ++ [0, 0] ++ buf.drop (off + 2)
  buf.take off ++ le16Bytes (netChecksum cleared) ++ buf.drop (off + 2)

lemma netChecksum_withChecksum {buf : List UInt8} {off : ℕ} (heven : Even off)
    (hoff : off + 2 ≤ buf.length) (hlen : buf.length ≤ 131072) :
    netChecksum (withChecksum buf off) = 0 := by
  refine netChecksum_stored ?_ ?_
  · rwa [List.length_take, Nat.min_eq_left (by omega)]
  · rw [List.length_take, List.length_drop]
    omega

lemma netChecksum_echoReply (p : List UInt8) : netChecksum (Stack.echoReply p) = 0 := by
  refine netChecksum_stored (p := [0, 0]) ⟨1, rfl⟩ ?_
  rw [List.length_drop, List.length_take]
  simp only [List.length_cons, List.length_nil]
  omega

lemma netChecksum_pingMessage (seq : UInt16) : netChecksum (pingMessage seq) = 0 :=
  netChecksum_stored (p := [8, 0]) ⟨1, rfl⟩ (show 2 + 36 ≤ 131070 by decide)

lemma netChecksum_tcpBytes (src : UInt32) (seg : TcpSegment)
    (hlen : tcpHdrSize + seg.payload.length ≤ tcpTxBufferSize) :
    netChecksum (Stack.tcpPseudoHdr src seg.dstIp (tcpHdrSize + seg.payload.length) ++
      Stack.tcpBytes src seg) = 0 := by
  have hstart : (Stack.tcpPseudoHdr src seg.dstIp (tcpHdrSize + seg.payload.length) ++
      Stack.tcpHdrStart seg).length = 28 := rfl
  have hrest : ([0, 0] ++ seg.payload).length = 2 + seg.payload.length := by
    rw [List.length_append]
    rfl
  have hfits : (Stack.tcpPseudoHdr src seg.dstIp (tcpHdrSize + seg.payload.length) ++
      Stack.tcpHdrStart seg).length + ([0, 0] ++ seg.payload).length ≤ 131070 := by
    unfold tcpHdrSize tcpTxBufferSize at hlen
    rw [hstart, hrest]
    omega
  have hsum := netChecksum_stored ⟨14, hstart⟩ hfits
  rw [List.append_assoc, List.append_assoc] at hsum
  rwa [Stack.tcpBytes, List.append_assoc]

/-! ## The sum of RFC 1071 -/

/-- The checksum that RFC 1071 gives a buffer, as a number in network order. -/
def rfcChecksum (buf : List UInt8) : UInt16 := ~~~ UInt16.ofNat (onesSum (netWords buf))

lemma foldCarry_checksumSum {buf : List UInt8} (hlen : buf.length ≤ 131072) :
    foldCarry 2 (checksumSum buf) = onesSum (hostWords buf) := by
  have hle := wordSum_le buf
  have hlt : wordSum buf < 2 ^ 32 := by omega
  have hsum := onesSum_folded (hostWords_lt buf)
  rw [hostWords_sum] at hsum
  rw [checksumSum, Nat.mod_eq_of_lt hlt]
  exact (foldCarry_folded hlt).unique hsum

/-- **`net_checksum` is the complement of the one's complement sum** of the machine's words. -/
lemma netChecksum_eq {buf : List UInt8} (hlen : buf.length ≤ 131072) :
    netChecksum buf = ~~~ UInt16.ofNat (onesSum (hostWords buf)) := by
  rw [netChecksum, foldCarry_checksumSum hlen]

/-- The bytes that a number and the number with its bytes exchanged have in the two orders. -/
lemma le16Bytes_complement {r : ℕ} (hr : r < 65536) :
    le16Bytes (~~~ UInt16.ofNat r) = be16Bytes (~~~ UInt16.ofNat (swap16 r)) := by
  obtain ⟨hi, lo, hhi, hlo, rfl⟩ : ∃ hi lo, hi < 256 ∧ lo < 256 ∧ r = 256 * hi + lo :=
    ⟨r / 256, r % 256, by omega, by omega, by omega⟩
  have hswap : swap16 (256 * hi + lo) = 256 * lo + hi := by
    unfold swap16
    omega
  have hnot : ∀ x y, x < 256 → y < 256 →
      (~~~ UInt16.ofNat (256 * x + y)).toNat = 256 * (255 - x) + (255 - y) := by
    intro x y hx hy
    rw [UInt16.toNat_not, UInt16.toNat_ofNat', Nat.mod_eq_of_lt (by omega)]
    change 65535 - (256 * x + y) = _
    omega
  have hbyte : ∀ x y, x % 256 = y % 256 → UInt8.ofNat x = UInt8.ofNat y := by
    intro x y hxy
    apply UInt8.toNat_inj.mp
    rwa [UInt8.toNat_ofNat', UInt8.toNat_ofNat']
  have hparts : ∀ x y, y < 256 → (256 * x + y) / 256 = x ∧ (256 * x + y) % 256 = y % 256 := by
    omega
  obtain ⟨hdiv, hmod⟩ := hparts (255 - hi) (255 - lo) (by omega)
  obtain ⟨hdiv', hmod'⟩ := hparts (255 - lo) (255 - hi) (by omega)
  have hfirst := hbyte (256 * (255 - hi) + (255 - lo)) (255 - lo) hmod
  have hsecond := hbyte (256 * (255 - lo) + (255 - hi)) (255 - hi) hmod'
  rw [hswap, le16Bytes, be16Bytes, hnot hi lo hhi hlo, hnot lo hi hlo hhi, hdiv, hdiv', hfirst,
    hsecond]

/-- In the packet, the checksum is the one of RFC 1071 in network order. -/
lemma le16Bytes_netChecksum {buf : List UInt8} (hlen : buf.length ≤ 131072) :
    le16Bytes (netChecksum buf) = be16Bytes (rfcChecksum buf) := by
  rw [netChecksum_eq hlen, rfcChecksum, onesSum_netWords,
    le16Bytes_complement (onesSum_folded (hostWords_lt buf)).lt]

/-- **Every packet carries a checksum that verifies**: the IPv4 header in the buffer of `ipv4_send`,
the answer to an echo request, the request of `icmp_ping`, and a TCP segment behind its pseudo
header.  So does every buffer with its checksum stored at an even offset; and `net_checksum` is the
complement of the sum of RFC 1071, as a number of the machine and as the bytes it leaves in a
packet. -/
theorem packets_verify :
    (∀ (s : Stack) (dst : UInt32) (protocol : UInt8) (payload : List UInt8),
      netChecksum (load (s.buildPacket dst protocol payload).ipv4TxBuffer 0 ipv4HdrSize) = 0) ∧
    (∀ p, netChecksum (Stack.echoReply p) = 0) ∧
    (∀ seq, netChecksum (pingMessage seq) = 0) ∧
    (∀ src seg, tcpHdrSize + seg.payload.length ≤ tcpTxBufferSize →
      netChecksum (Stack.tcpPseudoHdr src seg.dstIp (tcpHdrSize + seg.payload.length) ++
        Stack.tcpBytes src seg) = 0) ∧
    (∀ buf off, Even off → off + 2 ≤ buf.length → buf.length ≤ 131072 →
      netChecksum (withChecksum buf off) = 0) ∧
    ∀ buf, buf.length ≤ 131072 →
      netChecksum buf = ~~~ UInt16.ofNat (onesSum (hostWords buf)) ∧
        le16Bytes (netChecksum buf) = be16Bytes (rfcChecksum buf) := by
  refine ⟨fun s dst protocol payload => ?_, netChecksum_echoReply, netChecksum_pingMessage,
    netChecksum_tcpBytes, fun buf off => netChecksum_withChecksum,
    fun buf hlen => ⟨netChecksum_eq hlen, le16Bytes_netChecksum hlen⟩⟩
  have hhdr : load (s.buildPacket dst protocol payload).ipv4TxBuffer 0 ipv4HdrSize =
      ipv4Header s.cfg s.ipIdCounter dst protocol payload.length := by
    have hall := Stack.load_buildPacket s dst protocol payload
    rw [load_add] at hall
    exact (List.append_inj hall (by rw [length_load, length_ipv4Header])).1
  rw [hhdr, netChecksum_ipv4Header]

end Bangos.Net
