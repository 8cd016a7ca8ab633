import Bangos.Net.Socket

/-!
# File descriptors (`kernel/fs/vfs.c`, `kernel/syscall/syscall.c`)

A descriptor refers to the node of a socket or to a node of one of the file systems.  The
latter have no `close` operation; of them only the reference count is kept here.
-/

namespace Bangos.Fs

open Bangos.Net

/-- `VFS_MAX_FD`. -/
abbrev vfsMaxFd : ℕ := 32

lemma fd_lt {fd : ℤ} (h : 0 ≤ fd ∧ fd.toNat < vfsMaxFd) : fd.toNat < vfsMaxFd := h.2

/-- A `vfs_node_t *` other than null: the node inside a socket slot, or a node of a file
system. -/
inductive NodeRef where
  | sock (i : Fin maxNetSockets)
  | file (id : ℕ)
deriving DecidableEq

/-- `file_desc_t`. -/
structure FileDesc where
  node : Option NodeRef
  offset : ℕ
  flags : ℕ
  inUse : Bool
deriving DecidableEq

/-- An unused descriptor. -/
def FileDesc.empty : FileDesc := ⟨none, 0, 0, false⟩

/-- A process's `fd_table`. -/
abbrev FdTable := Fin vfsMaxFd → FileDesc

/-- What descriptors refer to. -/
structure Files where
  sockets : Sockets
  /-- `refcount` of the nodes of the file systems. -/
  fileRefs : ℕ → ℤ

/-- Apply `f` to the reference count of a node. -/
def modifyRefcount (fs : Files) (f : ℤ → ℤ) : NodeRef → Files
  | .sock i =>
    let n := fs.sockets.table i
    { fs with sockets := fs.sockets.set i { n with refcount := f n.refcount } }
  | .file id => { fs with fileRefs := Function.update fs.fileRefs id (f (fs.fileRefs id)) }

/-- `node->ops->close(node)`, when there is such an operation. -/
def nodeClose (fs : Files) : NodeRef → Files
  | .sock i =>
    if (fs.sockets.table i).hasOps then { fs with sockets := socketClose fs.sockets i } else fs
  | .file _ => fs

/-- `fd_table_init`. -/
def fdTableInit : FdTable := fun _ => FileDesc.empty

/-- `fd_alloc` for a node of size `nodeSize`: the descriptor, and the table. -/
def fdAlloc (table : FdTable) (node : NodeRef) (nodeSize flags : ℕ) :
    Option (Fin vfsMaxFd) × FdTable :=
  match (List.finRange vfsMaxFd).find? fun i => decide (3 ≤ i.val) && !(table i).inUse with
  | some i =>
    (some i, Function.update table i
      ⟨some node, if flags.testBit 10 then nodeSize else 0, flags, true⟩)
  | none => (none, table)

/-- `fd_free`.  The node is closed whatever its reference count. -/
def fdFree (fs : Files) (table : FdTable) (fd : Fin vfsMaxFd) : ℤ × Files × FdTable :=
  if fd.val < 3 ∨ (table fd).inUse = false then (-1, fs, table)
  else
    let fs := match (table fd).node with
      | some n => modifyRefcount (nodeClose fs n) (fun r => if r > 0 then r - 1 else r) n
      | none => fs
    (0, fs, Function.update table fd FileDesc.empty)

/-- A turn of the loop of `fd_table_clone`: the reference a copied descriptor adds. -/
def cloneRef (fs : Files) (d : FileDesc) : Files :=
  match d.inUse, d.node with
  | true, some n => modifyRefcount fs (· + 1) n
  | _, _ => fs

/-- `fd_table_clone`: the copy is the table itself, and every node gains a reference. -/
def fdTableClone (fs : Files) (src : FdTable) : Files × FdTable :=
  ((List.finRange vfsMaxFd).foldl (fun fs i => cloneRef fs (src i)) fs, src)

/-- The loop of `process_exit` and `process_kill` over the descriptors from 3 on. -/
def fdFreeAll (fs : Files) (table : FdTable) : Files × FdTable :=
  (List.finRange vfsMaxFd).foldl
    (fun s fd =>
      if 3 ≤ fd.val ∧ (s.2 fd).inUse then ((fdFree s.1 s.2 fd).2.1, (fdFree s.1 s.2 fd).2.2)
      else s)
    (fs, table)

/-! ## System calls on sockets and descriptors -/

/-- `SYS_SOCKET`; the bits `SOCK_NONBLOCK` and `SOCK_CLOEXEC` are already masked out of
`type`. -/
def sysSocket (fs : Files) (table : FdTable) (domain type protocol : ℤ) : ℤ × Files × FdTable :=
  if domain ≠ afInet then (-97, fs, table)
  else if type ≠ sockStream ∧ type ≠ sockDgram then (-22, fs, table)
  else match socketCreate fs.sockets domain type protocol with
    | (none, sockets) => (-24, { fs with sockets := sockets }, table)
    | (some i, sockets) =>
      match fdAlloc table (.sock i) 0 0 with
      | (none, table) => (-24, { fs with sockets := socketClose sockets i }, table)
      | (some fd, table) => (fd.val, { fs with sockets := sockets }, table)

/-- `SYS_OPEN` when `vfs_open` finds or makes the node `id` of a file of size `size`, and takes a
reference to it, or finds nothing. -/
def sysOpen (fs : Files) (table : FdTable) (found : Option (ℕ × ℕ)) (flags : ℕ) :
    ℤ × Files × FdTable :=
  match found with
  | none => (-2, fs, table)
  | some (id, size) =>
    let fs := modifyRefcount fs (· + 1) (.file id)
    match fdAlloc table (.file id) size flags with
    | (none, table) =>
      (-24, modifyRefcount fs (fun r => if r > 0 then r - 1 else r) (.file id), table)
    | (some fd, table) => (fd.val, fs, table)

/-- `SYS_CLOSE`. -/
def sysClose (fs : Files) (table : FdTable) (fd : ℤ) : ℤ × Files × FdTable :=
  if h : 0 ≤ fd ∧ fd.toNat < vfsMaxFd then
    if fd < 3 then (0, fs, table)
    else
      let r := fdFree fs table ⟨fd.toNat, fd_lt h⟩
      (if r.1 ≠ 0 then -9 else 0, r.2)
  else (-9, fs, table)

/-- `socket_from_vfs_node`. -/
def socketFromVfsNode (fs : Files) : NodeRef → Option (Fin maxNetSockets)
  | .sock i => if (fs.sockets.table i).hasOps then some i else none
  | .file _ => none

/-- `SYS_SHUTDOWN`: the socket is closed, the descriptor stays. -/
def sysShutdown (fs : Files) (table : FdTable) (fd : ℤ) : ℤ × Files :=
  if h : 0 ≤ fd ∧ fd.toNat < vfsMaxFd then
    let d := table ⟨fd.toNat, fd_lt h⟩
    if d.inUse then
      match d.node with
      | none => (-9, fs)
      | some n =>
        match socketFromVfsNode fs n with
        | some i => (0, { fs with sockets := socketClose fs.sockets i })
        | none => (0, fs)
    else (-9, fs)
  else (-9, fs)

end Bangos.Fs
