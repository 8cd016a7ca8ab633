import Bangos.Net.Addresses
import Bangos.Net.UdpDelivery

/-!
# The DNS client (`kernel/net/dns.c`)

`dns_resolve` builds a query in a buffer of 512 bytes, sends it and polls the card until the callback
bound to its port has found an address in a reply, or the time is up.

The callback reads the reply through a cursor.  Every read is checked here: `none` means that a read
left the payload, or that a loop did not end.  The cursor itself may pass the end of the payload.
-/

namespace Bangos.Net

open ByteMem

def dnsClientPort : UInt16 := 53535
def dnsPort : UInt16 := 53
def dnsTypeA : UInt16 := 1

/-- `sizeof(dns_hdr_t)`. -/
def dnsHdrSize : ℕ := 12

/-- `sizeof(query_buf)`. -/
def queryBufSize : ℕ := 512

/-- `dns_resolved`, `dns_result_ip` and `dns_query_id`. -/
structure Dns where
  resolved : Bool
  resultIp : UInt32
  queryId : UInt16
deriving DecidableEq

/-! ## Reading a reply -/

/-- Two bytes of the payload in network byte order. -/
def readBe16 (p : List UInt8) (i : ℕ) : Option UInt16 :=
  (p[i]?).bind fun hi => (p[i + 1]?).map fun lo => be16 [hi, lo] 0

/-- `(c & 0xC0) == 0xC0`: the first byte of a compression pointer. -/
def isPointer (c : UInt8) : Bool := c &&& 0xC0 == 0xC0

/-- The inner loop of the question section: the cursor after the labels, or after a pointer. -/
def skipQuestionName (p : List UInt8) : ℕ → ℕ → Option ℕ
  | 0, _ => none
  | fuel + 1, ptr =>
    if ptr < p.length then
      (p[ptr]?).bind fun c =>
        if c = 0 then some ptr
        else if isPointer c then some (ptr + 2)
        else skipQuestionName p fuel (ptr + (c.toNat + 1))
    else some ptr

/-- The inner loop of the answer section, which does not look for pointers. -/
def skipLabels (p : List UInt8) : ℕ → ℕ → Option ℕ
  | 0, _ => none
  | fuel + 1, ptr =>
    if ptr < p.length then
      (p[ptr]?).bind fun c =>
        if c = 0 then some ptr else skipLabels p fuel (ptr + (c.toNat + 1))
    else some ptr

/-- `if (ptr < end && *ptr == 0) ptr++`. -/
def skipZero (p : List UInt8) (ptr : ℕ) : Option ℕ :=
  if ptr < p.length then (p[ptr]?).map fun c => if c = 0 then ptr + 1 else ptr else some ptr

/-- The loop over the question section, with `n` questions left. -/
def skipQuestions (p : List UInt8) : ℕ → ℕ → Option ℕ
  | 0, ptr => some ptr
  | n + 1, ptr =>
    (skipQuestionName p (p.length + 1) ptr).bind fun ptr =>
      (skipZero p ptr).bind fun ptr => skipQuestions p n (ptr + 4)

/-- The name of an answer: a pointer, or labels up to a zero byte. -/
def skipAnswerName (p : List UInt8) (ptr : ℕ) : Option ℕ :=
  (p[ptr]?).bind fun c =>
    if isPointer c then some (ptr + 2)
    else (skipLabels p (p.length + 1) ptr).bind fun ptr => skipZero p ptr

/-- The four bytes of an address. -/
def readIp (p : List UInt8) (i : ℕ) : Option UInt32 :=
  (p[i]?).bind fun a => (p[i + 1]?).bind fun b => (p[i + 2]?).bind fun c =>
    (p[i + 3]?).map fun d => ipAddr a b c d

/-- The loop over the answer section, with `n` answers left: the address it finds. -/
def findAddress (p : List UInt8) : ℕ → ℕ → Option (Option UInt32)
  | 0, _ => some none
  | n + 1, ptr =>
    if p.length ≤ ptr then some none
    else
      (skipAnswerName p ptr).bind fun ptr =>
        if ptr + 10 > p.length then some none
        else
          (readBe16 p ptr).bind fun type =>
            (readBe16 p (ptr + 8)).bind fun rdlength =>
              if type = dnsTypeA ∧ rdlength = 4 ∧ ptr + 10 + 4 ≤ p.length then
                (readIp p (ptr + 10)).map some
              else findAddress p n (ptr + 10 + rdlength.toNat)

/-- `dns_udp_callback`. -/
def dnsUdpCallback (d : Dns) (p : List UInt8) : Option Dns :=
  if p.length < dnsHdrSize then some d
  else
    (readBe16 p 0).bind fun id =>
      if id ≠ d.queryId then some d
      else
        (readBe16 p 6).bind fun ancount =>
          (readBe16 p 4).bind fun qdcount =>
            if ancount = 0 then some d
            else
              (skipQuestions p qdcount.toNat dnsHdrSize).bind fun ptr =>
                (findAddress p ancount.toNat ptr).map fun found =>
                  match found with
                  | some ip => { d with resultIp := ip, resolved := true }
                  | none => d

/-! ## Building a query -/

/-- The loop of `encode_qname` over the characters that are left, with the characters since `start` and
the bytes written so far.  A label that is too long ends it. -/
def encodeLoop (bufSz : ℕ) :
    List UInt8 → List UInt8 → List UInt8 → Except (List UInt8) (List UInt8 × List UInt8)
  | [], label, out => .ok (label, out)
  | c :: hostname, label, out =>
    if c = dot then
      if label.length > 63 ∨ out.length + label.length + 1 ≥ bufSz then .error out
      else encodeLoop bufSz hostname [] (out ++ UInt8.ofNat label.length :: label)
    else encodeLoop bufSz hostname (label ++ [c]) out

/-- The last label of `encode_qname`, and the zero byte. -/
def encodeLast (bufSz : ℕ) (label out : List UInt8) : List UInt8 × ℕ :=
  if label.length > 0 then
    if label.length > 63 ∨ out.length + label.length + 2 ≥ bufSz then (out, 0)
    else
      let out := out ++ UInt8.ofNat label.length :: label
      (out ++ [0], out.length + 1)
  else (out ++ [0], out.length + 1)

/-- `encode_qname`: the bytes it writes to `out_buf`, from the first on, and its result. -/
def encodeQname (hostname : List UInt8) (bufSz : ℕ) : List UInt8 × ℕ :=
  match encodeLoop bufSz hostname [] [] with
  | .error out => (out, 0)
  | .ok (label, out) => encodeLast bufSz label out

/-- What `dns_resolve` writes to `query_buf`, as offsets and bytes in the order of the writes, and the
length of the query; no length when the name is rejected. -/
def queryWrites (id : UInt16) (hostname : List UInt8) : List (ℕ × List UInt8) × Option ℕ :=
  let start := [(0, List.replicate queryBufSize 0),
    (0, be16Bytes id ++ be16Bytes 0x0100 ++ be16Bytes 1)]
  let qname := encodeQname hostname (queryBufSize - dnsHdrSize)
  if qname.2 = 0 then (start ++ [(dnsHdrSize, qname.1)], none)
  else
    let offset := dnsHdrSize + qname.2
    (start ++ [(dnsHdrSize, qname.1), (offset, [0x00, 0x01, 0x00, 0x01])], some (offset + 4))

/-- The query that `dns_resolve` sends.  The buffer is taken to be followed by memory that nothing else
uses. -/
def dnsQuery (id : UInt16) (hostname : List UInt8) : Option (List UInt8) :=
  (queryWrites id hostname).2.map fun len =>
    load ((queryWrites id hostname).1.foldl (fun buf w => store buf w.1 w.2) fun _ => 0) 0 len

/-! ## Resolving a name -/

namespace Stack

/-- `udp_register_port`: the binding that is taken, if one is free. -/
def udpRegisterPort (s : Stack) (port : UInt16) : Option (Fin maxUdpPorts) × Stack :=
  match (List.finRange maxUdpPorts).find? fun i => !(s.udpBindings i).inUse with
  | none => (none, s)
  | some i => (some i, { s with udpBindings := Function.update s.udpBindings i ⟨port, true⟩ })

/-- `udp_unregister_port`. -/
def udpUnregisterPort (s : Stack) (port : UInt16) : Stack :=
  match s.boundTo port with
  | none => s
  | some i =>
    { s with udpBindings := Function.update s.udpBindings i { s.udpBindings i with inUse := false } }

end Stack

/-- The effect of the calls of callbacks on the DNS client, whose callback has binding `i`. -/
def dnsCalls (i : Option (Fin maxUdpPorts)) (d : Dns) (calls : List UdpCall) : Option Dns :=
  calls.foldlM (fun d call => if some call.binding = i then dnsUdpCallback d call.data else some d) d

/-- The polling loop of `dns_resolve`, which the clock ends after `turns` turns at the latest. -/
def dnsWait (i : Option (Fin maxUdpPorts)) : ℕ → Stack → Dns →
    Option (Option UInt32 × Stack × Dns)
  | 0, s, d => some (none, s, d)
  | turns + 1, s, d =>
    let s' := Stack.netPoll Stack.ipv4Send s
    (dnsCalls i d (s'.udpCalls.drop s.udpCalls.length)).bind fun d =>
      if d.resolved then some (some d.resultIp, s', d) else dnsWait i turns s' d

/-- Every character of the name is a digit or a dot. -/
def isNumeric (hostname : List UInt8) : Bool := hostname.all fun c => isDigit c || c == dot

/-- `dns_resolve`: the address, or `none` for -1. -/
def dnsResolve (s : Stack) (d : Dns) (hostname : List UInt8) (turns : ℕ) :
    Option (Option UInt32 × Stack × Dns) :=
  if isNumeric hostname then some (some (strToIp hostname), s, d)
  else
    let d : Dns := ⟨false, 0, d.queryId + 1⟩
    let reg := s.udpRegisterPort dnsClientPort
    match dnsQuery d.queryId hostname with
    | none => some (none, reg.2.udpUnregisterPort dnsClientPort, d)
    | some query =>
      let sent := reg.2.udpSend s.cfg.dnsIp dnsClientPort dnsPort query
      (dnsCalls reg.1 d (sent.2.udpCalls.drop s.udpCalls.length)).bind fun d =>
        if sent.1 then
          (dnsWait reg.1 turns sent.2 d).map fun r =>
            (r.1, r.2.1.udpUnregisterPort dnsClientPort, r.2.2)
        else some (none, sent.2.udpUnregisterPort dnsClientPort, d)

end Bangos.Net
