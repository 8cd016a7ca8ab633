import Bangos.Net.Tcp

/-!
# Sockets as files (`kernel/net/socket.c`)

A slot of `net_socket_table` embeds the `vfs_node` that descriptors refer to.  Of that node
the reference count matters, and whether its `ops` field has been set to `socket_ops`: the
slot is cleared before it is known whether a TCP socket is left for it.

A `tcp_close` may wait and poll the network meanwhile; what the polls of the `n`-th such
call find is an input of the system (`closePolls`).
-/

namespace Bangos.Net

/-- `MAX_NET_SOCKETS`. -/
abbrev maxNetSockets : ℕ := 32

/-- `AF_INET`. -/
def afInet : ℤ := 2

/-- `SOCK_STREAM`. -/
def sockStream : ℤ := 1

/-- `SOCK_DGRAM`. -/
def sockDgram : ℤ := 2

/-- `net_socket_t`. -/
structure NetSocket where
  domain : ℤ
  type : ℤ
  protocol : ℤ
  /-- `tcp_sock`, as an index of the TCP socket table. -/
  tcpSock : Option (Fin tcpMaxSockets)
  /-- `vfs_node.ops == &socket_ops`. -/
  hasOps : Bool
  /-- `vfs_node.refcount`. -/
  refcount : ℤ
  inUse : Bool

/-- A cleared slot. -/
def NetSocket.zero : NetSocket := ⟨0, 0, 0, none, false, 0, false⟩

/-- The socket layer and the TCP layer below it. -/
structure Sockets where
  table : Fin maxNetSockets → NetSocket
  tcp : Tcp
  closePolls : ℕ → List Poll
  /-- The number of `tcp_close` calls made. -/
  closes : ℕ

namespace Sockets

/-- Write slot `i`. -/
def set (s : Sockets) (i : Fin maxNetSockets) (n : NetSocket) : Sockets :=
  { s with table := Function.update s.table i n }

@[simp] lemma set_table (s : Sockets) (i : Fin maxNetSockets) (n : NetSocket) :
    (s.set i n).table = Function.update s.table i n := rfl

end Sockets

/-- `socket_subsystem_init`. -/
def socketSubsystemInit (tcp : Tcp) (closePolls : ℕ → List Poll) : Sockets where
  table := fun _ => NetSocket.zero
  tcp := tcp
  closePolls := closePolls
  closes := 0

/-- The slot `socket_create` takes: the first that is not in use. -/
def freeSlot (s : Sockets) : Option (Fin maxNetSockets) :=
  (List.finRange maxNetSockets).find? fun i => !(s.table i).inUse

/-- `socket_create`. -/
def socketCreate (s : Sockets) (domain type protocol : ℤ) :
    Option (Fin maxNetSockets) × Sockets :=
  if domain ≠ afInet ∨ (type ≠ sockStream ∧ type ≠ sockDgram) then (none, s)
  else match freeSlot s with
    | none => (none, s)
    | some i =>
      let n : NetSocket :=
        { NetSocket.zero with inUse := true, domain := domain, type := type, protocol := protocol }
      if type = sockStream then
        match tcpSocketCreate s.tcp with
        | (none, tcp) => (none, { s.set i { n with inUse := false } with tcp := tcp })
        | (some t, tcp) =>
          (some i,
            { s.set i { n with tcpSock := some t, hasOps := true, refcount := 1 } with
              tcp := tcp })
      else (some i, s.set i { n with hasOps := true, refcount := 1 })

/-- `socket_close`. -/
def socketClose (s : Sockets) (i : Fin maxNetSockets) : Sockets :=
  let n := s.table i
  if !n.inUse then s
  else match n.tcpSock with
    | some t =>
      { s.set i { n with tcpSock := none, inUse := false } with
        tcp := tcpClose s.tcp t (s.closePolls s.closes)
        closes := s.closes + 1 }
    | none => s.set i { n with inUse := false }

end Bangos.Net
