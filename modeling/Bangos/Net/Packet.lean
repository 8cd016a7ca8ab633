import Bangos.Net.Wire

/-!
# Packets (`kernel/net/{ethernet,arp,ipv4}.c`)

The packets that the stack builds and how it reads the ones it receives: Ethernet frames, ARP packets
and IPv4 headers; and the ARP cache.
-/

namespace Bangos.Net

/-! ## Configuration -/

/-- A hardware address. -/
abbrev Mac := Vector UInt8 6

/-- `net_config_t`. -/
structure NetConfig where
  localIp : UInt32
  gatewayIp : UInt32
  netmask : UInt32
  dnsIp : UInt32
  mac : Mac

/-- `IP_ADDR`. -/
def ipAddr (a b c d : UInt8) : UInt32 := le32 [a, b, c, d] 0

def defaultLocalIp : UInt32 := ipAddr 10 0 2 15
def defaultGatewayIp : UInt32 := ipAddr 10 0 2 2
def defaultNetmask : UInt32 := ipAddr 255 255 255 0
def defaultDnsIp : UInt32 := ipAddr 10 0 2 3

def broadcastMac : Mac := #v[0xFF, 0xFF, 0xFF, 0xFF, 0xFF, 0xFF]
def qemuGatewayMac : Mac := #v[0x52, 0x55, 0x0A, 0x00, 0x02, 0x02]

def broadcastIp : UInt32 := 0xFFFFFFFF

def ethertypeIpv4 : UInt16 := 0x0800
def ethertypeArp : UInt16 := 0x0806

/-- `ETH_HLEN`. -/
def ethHlen : ℕ := 14

/-- `sizeof(eth_tx_buffer)`, `sizeof(ipv4_tx_buffer)` and `sizeof(udp_tx_buffer)`. -/
def txBufferSize : ℕ := 2048

/-- `VIRTIO_NET_MAX_PKT_SIZE`. -/
def virtioNetMaxPktSize : ℕ := 1536

/-! ## The ARP cache -/

/-- `ARP_CACHE_SIZE`. -/
abbrev arpCacheSize : ℕ := 16

/-- `arp_entry_t`. -/
structure ArpEntry where
  ip : UInt32
  mac : Mac
  valid : Bool

abbrev ArpCache := Fin arpCacheSize → ArpEntry

/-- The entry of a cache that holds an address. -/
def arpFind (c : ArpCache) (ip : UInt32) : Option (Fin arpCacheSize) :=
  (List.finRange arpCacheSize).find? fun i => (c i).valid && (c i).ip == ip

/-- The cache search of `arp_resolve`. -/
def arpLookup (c : ArpCache) (ip : UInt32) : Option Mac := (arpFind c ip).map fun i => (c i).mac

/-- `arp_insert_cache`: a known address is updated; a new one takes the first free slot, or slot 0. -/
def arpInsertCache (c : ArpCache) (ip : UInt32) (mac : Mac) : ArpCache :=
  match arpFind c ip with
  | some i => Function.update c i { c i with mac := mac }
  | none =>
    match (List.finRange arpCacheSize).find? fun i => !(c i).valid with
    | some i => Function.update c i ⟨ip, mac, true⟩
    | none => Function.update c 0 ⟨ip, mac, true⟩

/-- A cache without entries. -/
def arpEmpty : ArpCache := fun _ => ⟨0, Vector.replicate 6 0, false⟩

/-- `arp_init`. -/
def arpInit : ArpCache := arpInsertCache arpEmpty defaultGatewayIp qemuGatewayMac

/-! ## Packets -/

/-- A hardware address in a packet. -/
def readMac (p : List UInt8) (off : ℕ) : Mac := Vector.ofFn fun i => p.getD (off + i.val) 0

/-- `arp_hdr_t`. -/
structure ArpHdr where
  htype : UInt16
  ptype : UInt16
  hlen : UInt8
  plen : UInt8
  opcode : UInt16
  srcMac : Mac
  srcIp : UInt32
  dstMac : Mac
  dstIp : UInt32

/-- `sizeof(arp_hdr_t)`. -/
def arpHdrSize : ℕ := 28

def arpHtypeEthernet : UInt16 := 1
def arpPtypeIpv4 : UInt16 := 0x0800
def arpOpRequest : UInt16 := 1
def arpOpReply : UInt16 := 2

def ArpHdr.bytes (h : ArpHdr) : List UInt8 :=
  be16Bytes h.htype ++ be16Bytes h.ptype ++ [h.hlen, h.plen] ++ be16Bytes h.opcode ++
    h.srcMac.toList ++ le32Bytes h.srcIp ++ h.dstMac.toList ++ le32Bytes h.dstIp

/-- Reading the header of an ARP packet. -/
def arpHdr (p : List UInt8) : ArpHdr where
  htype := be16 p 0
  ptype := be16 p 2
  hlen := p.getD 4 0
  plen := p.getD 5 0
  opcode := be16 p 6
  srcMac := readMac p 8
  srcIp := le32 p 14
  dstMac := readMac p 18
  dstIp := le32 p 24

/-- The frame that `ethernet_send` builds, padded with zeros to 60 bytes. -/
def ethFrame (cfg : NetConfig) (dst : Mac) (ethertype : UInt16) (payload : List UInt8) :
    List UInt8 :=
  let frame := dst.toList ++ cfg.mac.toList ++ be16Bytes ethertype ++ payload
  frame ++ List.replicate (60 - frame.length) 0

/-- `sizeof(ipv4_hdr_t)`. -/
def ipv4HdrSize : ℕ := 20

def ipProtoIcmp : UInt8 := 1
def ipProtoTcp : UInt8 := 6
def ipProtoUdp : UInt8 := 17

/-- The first ten bytes of the IPv4 header, up to the checksum. -/
def ipv4HdrStart (id : UInt16) (protocol : UInt8) (len : ℕ) : List UInt8 :=
  [0x45, 0] ++ be16Bytes (UInt16.ofNat (ipv4HdrSize + len)) ++ be16Bytes id ++ be16Bytes 0x4000 ++
    [64, protocol]

/-- The addresses that end the IPv4 header. -/
def ipv4HdrEnd (src dst : UInt32) : List UInt8 := le32Bytes src ++ le32Bytes dst

/-- The header that `ipv4_send` builds. -/
def ipv4Header (cfg : NetConfig) (id : UInt16) (dst : UInt32) (protocol : UInt8) (len : ℕ) :
    List UInt8 :=
  ipv4HdrStart id protocol len ++
    le16Bytes (netChecksum (ipv4HdrStart id protocol len ++ [0, 0] ++ ipv4HdrEnd cfg.localIp dst)) ++
    ipv4HdrEnd cfg.localIp dst

/-- The routing decision of `ipv4_send`. -/
def nextHop (cfg : NetConfig) (dst : UInt32) : UInt32 :=
  if dst &&& cfg.netmask = cfg.localIp &&& cfg.netmask then dst else cfg.gatewayIp

/-- The upper-layer handlers. -/
inductive IpHandler where
  | icmp
  | udp
  | tcp
deriving DecidableEq, Repr

/-- The handler of a protocol number. -/
def ipHandler (protocol : UInt8) : Option IpHandler :=
  if protocol = ipProtoIcmp then some .icmp
  else if protocol = ipProtoUdp then some .udp
  else if protocol = ipProtoTcp then some .tcp
  else none

/-- The call of an upper-layer handler that `ipv4_receive` makes, if any: the handler, the source
address and the bytes it is given, which are all that follow the header. -/
def ipv4Upcall (localIp : UInt32) (p : List UInt8) : Option (IpHandler × UInt32 × List UInt8) :=
  let versionIhl := p.getD 0 0
  let ihl := (versionIhl &&& 0x0F).toNat * 4
  if p.length < ipv4HdrSize then none
  else if versionIhl >>> 4 ≠ 4 then none
  else if ihl < ipv4HdrSize ∨ ihl > p.length then none
  else if netChecksum (p.take ihl) ≠ 0 then none
  else if le32 p 16 ≠ localIp ∧ le32 p 16 ≠ broadcastIp then none
  else (ipHandler (p.getD 9 0)).map fun h => (h, le32 p 12, p.drop ihl)

/-- What `ethernet_receive` does with a frame. -/
inductive FrameUse where
  | drop
  | arp (payload : List UInt8)
  | ipv4 (payload : List UInt8)
deriving DecidableEq, Repr

def frameUse (frame : List UInt8) : FrameUse :=
  if frame.length < ethHlen then .drop
  else if be16 frame 12 = ethertypeArp then .arp (frame.drop ethHlen)
  else if be16 frame 12 = ethertypeIpv4 then .ipv4 (frame.drop ethHlen)
  else .drop

/-- The call of an upper-layer handler that `ethernet_receive` makes on a host with this address. -/
def ethernetUpcall (localIp : UInt32) (frame : List UInt8) :
    Option (IpHandler × UInt32 × List UInt8) :=
  match frameUse frame with
  | .ipv4 p => ipv4Upcall localIp p
  | _ => none

end Bangos.Net
