import Bangos.Fs.Vfs
import Bangos.Process.System

/-!
# Pointers that processes pass to the kernel (`kernel/syscall/syscall.c`)

The system calls that read or write memory through a pointer argument, with the addresses they
use.  Some of them refuse a pointer into the kernel half of the address space: the test is on
the pointer alone, not on the range that starts there.

Each call takes the test as a parameter, so that the same code without it says which bytes a
call would use (`wanted`).  The results of the file systems, of TCP and of the devices are an
input (`Env`); what they leave in the kernel is not followed here.
-/

namespace Bangos.Syscall

open Bangos.Mm Bangos.Fs Bangos.Net Bangos.Proc

/-! ## Memory with the addresses used -/

/-- The memory a system call sees, and the addresses it has used, last first. -/
structure UserMem where
  bytes : ℕ → UInt8
  used : List ℕ

/-- A part of a system call. -/
abbrev UserM := StateM UserMem

/-- Read a byte; addresses wrap around. -/
def load (a : ℕ) : UserM UInt8 := fun m =>
  (m.bytes (u64 a), { m with used := u64 a :: m.used })

/-- Write a byte. -/
def store (a : ℕ) (c : UInt8) : UserM Unit := fun m =>
  ((), ⟨Function.update m.bytes (u64 a) c, u64 a :: m.used⟩)

/-- Read the little-endian number in the `n` bytes from `a` on. -/
def loadLe (a : ℕ) : ℕ → UserM ℕ
  | 0 => pure 0
  | n + 1 => do
    let c ← load a
    let v ← loadLe (a + 1) n
    pure (c.toNat + 256 * v)

/-- Read `n` bytes from `a` on that only go to a device or a file. -/
def loadBytes (a : ℕ) : ℕ → UserM Unit
  | 0 => pure ()
  | n + 1 => do
    let _ ← load a
    loadBytes (a + 1) n

/-- `kmemcpy` to `a`. -/
def storeBytes (a : ℕ) : List UInt8 → UserM Unit
  | [] => pure ()
  | c :: cs => do
    store a c
    storeBytes (a + 1) cs

/-- Write `v` as a little-endian number of `n` bytes. -/
def storeLe (a : ℕ) : ℕ → ℕ → UserM Unit
  | 0, _ => pure ()
  | n + 1, v => do
    store a (UInt8.ofNat v)
    storeLe (a + 1) n (v / 256)

/-- `kmemset(a, 0, n)`. -/
def clear (a n : ℕ) : UserM Unit := storeBytes a (List.replicate n 0)

/-- `kstrncpy` of a constant that fits to `a`. -/
def storeStr (a : ℕ) (s : String) : UserM Unit := storeBytes a (ascii s ++ [0])

/-- A 64-bit number as `int64_t`. -/
def i64 (n : ℕ) : ℤ := Int.bmod n (2 ^ 64)

/-! ## What the calls find -/

/-- The state of the kernel at the call, and what the file systems, TCP and the devices answer.
A `read` operation gives the bytes it stores at the start of the buffer and its result, a
`write` operation how many bytes it takes from there and its result. -/
structure Env where
  k : Kernel
  mounts : List (Mount ℕ)
  finddir : ℕ → List UInt8 → Option ℕ
  create : ℕ → List UInt8 → ℕ → Option ℕ
  inode : ℕ → ℕ
  size : ℕ → ℕ
  isDir : ℕ → Bool
  read : ℕ → Option (ℕ → ℕ → List UInt8 × ℤ)
  write : ℕ → Option (ℕ → ℕ → ℕ × ℤ)
  readdir : ℕ → Option (ℕ → Option (ℕ × Bool × List UInt8))
  tcpRecv : Fin tcpMaxSockets → ℕ → List UInt8 × ℤ
  tcpSend : Fin tcpMaxSockets → ℕ → ℕ × ℤ
  tcpConnect : Fin tcpMaxSockets → ℕ → ℕ → Bool
  socketPoll : Fin maxNetSockets → ℕ
  /-- The keys `console_getchar` will give. -/
  keys : ℕ → UInt8
  /-- The caller wakes up again if it goes to sleep. -/
  wakes : Bool
  /-- `rdtsc() - kernel_boot_tsc`. -/
  cycles : ℕ
  totalBytes : ℕ
  freeBytes : ℕ

/-- `fd_get` of the running process, when the descriptor has a node. -/
def fdNode (env : Env) (fd : ℤ) : Option (FileDesc × NodeRef) :=
  if h : 0 ≤ fd ∧ fd.toNat < vfsMaxFd then
    let d := env.k.current.fdTable ⟨fd.toNat, fd_lt h⟩
    if d.inUse then d.node.map fun n => (d, n) else none
  else none

/-- The descriptor is out of range. -/
def badFd (fd : ℤ) : Prop := fd < 0 ∨ (vfsMaxFd : ℤ) ≤ fd

instance (fd : ℤ) : Decidable (badFd fd) := inferInstanceAs (Decidable (_ ∨ _))

/-- `socket_recv`. -/
def socketRecv (env : Env) (i : Fin maxNetSockets) (buf len : ℕ) : UserM ℤ := do
  let sock := env.k.files.sockets.table i
  if buf = 0 then pure (-14)
  else if len = 0 then pure 0
  else if sock.type = sockStream then
    match sock.tcpSock with
    | none => pure (-9)
    | some t =>
      storeBytes buf (env.tcpRecv t len).1
      pure (env.tcpRecv t len).2
  else pure 0

/-- `socket_send`. -/
def socketSend (env : Env) (i : Fin maxNetSockets) (buf len : ℕ) : UserM ℤ := do
  let sock := env.k.files.sockets.table i
  if buf = 0 then pure (-14)
  else if len = 0 then pure 0
  else if sock.type = sockStream then
    match sock.tcpSock with
    | none => pure (-9)
    | some t =>
      loadBytes buf (env.tcpSend t len).1
      pure (if (env.tcpSend t len).2 < 0 then -32 else (env.tcpSend t len).2)
  else pure (i64 len)

/-- `socket_connect`. -/
def socketConnect (env : Env) (i : Fin maxNetSockets) (addr : ℕ) : UserM ℤ := do
  let sock := env.k.files.sockets.table i
  let family ← loadLe addr 2
  if family ≠ 2 then pure (-22)
  else if sock.type = sockStream then
    match sock.tcpSock with
    | none => pure (-9)
    | some t =>
      let port ← loadLe (addr + 2) 2
      let ip ← loadLe (addr + 4) 4
      pure (if env.tcpConnect t ip port then 0 else -111)
  else pure 0

/-- `node->ops->read` on a buffer at `buf`. -/
def nodeRead (env : Env) (offset size buf : ℕ) : NodeRef → Option (UserM ℤ)
  | .sock i =>
    if (env.k.files.sockets.table i).hasOps then some (socketRecv env i buf size) else none
  | .file id => (env.read id).map fun op => do
    storeBytes buf (op offset size).1
    pure (op offset size).2

/-- `node->ops->write` on a buffer at `buf`. -/
def nodeWrite (env : Env) (offset size buf : ℕ) : NodeRef → Option (UserM ℤ)
  | .sock i =>
    if (env.k.files.sockets.table i).hasOps then some (socketSend env i buf size) else none
  | .file id => (env.write id).map fun op => do
    loadBytes buf (op offset size).1
    pure (op offset size).2

/-- The operations on paths. -/
def pathOps (env : Env) : VfsOps ℕ UserM where
  finddir dir name := pure (env.finddir dir name)
  create dir name mode := pure (env.create dir name mode)

/-- The path at `p`. -/
def userPath (p i : ℕ) : UserM UInt8 := load (p + i)

/-- The number of characters after which a path without NUL starts over. -/
def pathFuel : ℕ := 2 ^ 64

/-! ## The calls that test their pointers -/

section Tested

variable (refuse : ℕ → Bool) (env : Env)

/-- A null pointer, or one that the test refuses. -/
def badPtr (p : ℕ) : Prop := p = 0 ∨ refuse p = true

instance (p : ℕ) : Decidable (badPtr refuse p) := inferInstanceAs (Decidable (_ ∨ _))

/-- The tests with which `SYS_READ`, `SYS_WRITE`, `SYS_SENDTO` and `SYS_RECVFROM` start. -/
def withBuffer (fd : ℤ) (buf count : ℕ) (body : UserM ℤ) : UserM ℤ :=
  if badFd fd then pure (-9)
  else if badPtr refuse buf ∧ 0 < count then pure (-14)
  else if count = 0 then pure 0
  else body

/-- The loop of `SYS_READ` on the console, `n` characters having been read. -/
def readConsole (buf : ℕ) : ℕ → ℕ → UserM ℤ
  | 0, n => pure (i64 n)
  | left + 1, n => do
    store (buf + n) (env.keys n)
    if env.keys n = 0x0A then pure (i64 (n + 1)) else readConsole buf left (n + 1)

/-- `SYS_READ`. -/
def sysRead (fd : ℤ) (buf count : ℕ) : UserM ℤ := withBuffer refuse fd buf count <|
  if fd < 3 then readConsole env buf count 0
  else match fdNode env fd with
    | none => pure (-9)
    | some (d, n) => (nodeRead env d.offset count buf n).getD (pure (-9))

/-- `SYS_WRITE`. -/
def sysWrite (fd : ℤ) (buf count : ℕ) : UserM ℤ := withBuffer refuse fd buf count <| do
  if fd = 1 ∨ fd = 2 then
    loadBytes buf count
    pure (i64 count)
  else if fd = 0 then pure (-9)
  else match fdNode env fd with
    | none => pure (-9)
    | some (d, n) => (nodeWrite env d.offset count buf n).getD (pure (-9))

/-- `SYS_OPEN` and `SYS_OPENAT`. -/
def sysOpenPath (path flags mode : ℕ) : UserM ℤ := do
  if badPtr refuse path then pure (-14)
  else
    let found ← vfsOpen pathFuel env.mounts (pathOps env) (userPath path) flags mode
    pure (sysOpen env.k.files env.k.current.fdTable (found.map fun id => (id, env.size id))
      flags).1

/-- `sizeof(struct stat)`. -/
def statSize : ℕ := 144

/-- Fill in a `struct stat` for a node of a file system. -/
def storeStat (st inode size : ℕ) (isDir : Bool) : UserM Unit := do
  clear st statSize
  storeLe (st + 8) 8 inode
  storeLe (st + 48) 8 size
  storeLe (st + 56) 8 1024
  storeLe (st + 64) 8 (u64 (size + 511) / 512)
  storeLe (st + 24) 4 (if isDir then 0o040755 else 0o100644)
  storeLe (st + 16) 8 1

/-- `SYS_STAT` and `SYS_NEWFSTATAT`. -/
def sysStat (path st : ℕ) : UserM ℤ := do
  if path = 0 ∨ st = 0 then pure (-14)
  else if refuse path = true ∨ refuse st = true then pure (-14)
  else
    match ← vfsLookup pathFuel env.mounts (pathOps env) (userPath path) with
    | none => pure (-2)
    | some id =>
      storeStat st (env.inode id) (env.size id) (env.isDir id)
      pure 0

/-- `SYS_FSTAT`.  The node of a socket has inode and size 0. -/
def sysFstat (fd : ℤ) (st : ℕ) : UserM ℤ := do
  if badFd fd ∨ st = 0 then pure (-14)
  else if refuse st = true then pure (-14)
  else if fd < 3 then
    clear st statSize
    storeLe (st + 24) 4 0o020620
    pure 0
  else match fdNode env fd with
    | none => pure (-9)
    | some (_, .sock _) =>
      storeStat st 0 0 false
      pure 0
    | some (_, .file id) =>
      storeStat st (env.inode id) (env.size id) (env.isDir id)
      pure 0

/-- An entry of a directory as `readdir` gives it: inode number, whether it is a directory, and
name. -/
abbrev DirItem := ℕ × Bool × List UInt8

/-- The length of the record of an entry. -/
def reclenOf (e : DirItem) : ℕ := (24 + e.2.2.length + 1 + 7) / 8 * 8

/-- The loop of `SYS_GETDENTS64`: the result, and what it stores in the offset of the descriptor, if
it gets there.  Every turn but the last writes a record, so `count` turns are enough. -/
def getdentsLoop (readdir : ℕ → Option DirItem) (dirp count : ℕ) : ℕ → ℕ → ℕ → UserM (ℤ × Option ℕ)
  | 0, written, index => pure (i64 written, some index)
  | fuel + 1, written, index =>
    if count ≤ written then pure (i64 written, some index)
    else match readdir index with
      | none => pure (i64 written, some index)
      | some e =>
        if count < u64 (written + reclenOf e) then
          pure (if written = 0 then (-22, none) else (i64 written, some index))
        else do
          let d := dirp + written
          storeLe d 8 e.1
          -- `index` is a `uint32_t`, and so is the sum
          storeLe (d + 8) 8 ((index + 1) % 2 ^ 32)
          storeLe (d + 16) 2 (reclenOf e)
          store (d + 18) (if e.2.1 then 4 else 8)
          storeBytes (d + 19) (e.2.2 ++ [0])
          getdentsLoop readdir dirp count fuel (written + reclenOf e) ((index + 1) % 2 ^ 32)

/-- `SYS_GETDENTS64`. -/
def sysGetdents64 (fd : ℤ) (dirp count : ℕ) : UserM ℤ := do
  if badFd fd ∨ dirp = 0 ∨ count = 0 then pure (-14)
  else if refuse dirp = true then pure (-14)
  else match fdNode env fd with
    | some (d, .file id) =>
      match env.isDir id, env.readdir id with
      | true, some readdir =>
        let r ← getdentsLoop readdir dirp count count 0 (d.offset % 2 ^ 32)
        pure r.1
      | _, _ => pure (-9)
    | _ => pure (-9)

/-- One turn of the loop of `SYS_POLL`, for the entry at `a`: whether it counts as ready. -/
def pollOne (a : ℕ) : UserM Bool := do
  storeLe (a + 6) 2 0
  let fd ← loadLe a 4
  -- a negative descriptor is a large number here
  if vfsMaxFd ≤ fd then
    storeLe (a + 6) 2 0x20
    pure true
  else if fd < 3 then
    let events ← loadLe (a + 4) 2
    storeLe (a + 6) 2 (events &&& 5)
    pure (events &&& 5 != 0)
  else match fdNode env fd with
    | none =>
      storeLe (a + 6) 2 0x20
      pure true
    | some (_, n) =>
      let events ← loadLe (a + 4) 2
      let revents := match socketFromVfsNode env.k.files n with
        | some i => env.socketPoll i
        | none => events &&& 5
      storeLe (a + 6) 2 revents
      pure (revents != 0)

/-- The loop of `SYS_POLL`. -/
def pollLoop (fds : ℕ) : ℕ → ℤ → UserM ℤ
  | 0, ready => pure ready
  | left + 1, ready => do
    let r ← pollOne env fds
    pollLoop (fds + 8) left (if r then ready + 1 else ready)

/-- `SYS_POLL`. -/
def sysPoll (fds nfds : ℕ) : UserM ℤ := do
  if badPtr refuse fds ∧ 0 < nfds then pure (-14)
  else if nfds = 0 then pure 0
  else pollLoop env fds nfds 0

/-- `SYS_CONNECT`. -/
def sysConnect (fd : ℤ) (addr addrlen : ℕ) : UserM ℤ := do
  if badFd fd then pure (-9)
  else if badPtr refuse addr then pure (-14)
  else if addrlen < 16 then pure (-22)
  else match fdNode env fd with
    | none => pure (-9)
    | some (_, n) =>
      match socketFromVfsNode env.k.files n with
      | none => pure (-88)
      | some i => socketConnect env i addr

/-- `SYS_SENDTO`. -/
def sysSendto (fd : ℤ) (buf len : ℕ) : UserM ℤ := withBuffer refuse fd buf len <|
  match fdNode env fd with
    | none => pure (-9)
    | some (d, n) =>
      match socketFromVfsNode env.k.files n with
      | none => (nodeWrite env d.offset len buf n).getD (pure (-88))
      | some i => socketSend env i buf len

/-- `SYS_RECVFROM`. -/
def sysRecvfrom (fd : ℤ) (buf len : ℕ) : UserM ℤ := withBuffer refuse fd buf len <|
  match fdNode env fd with
    | none => pure (-9)
    | some (d, n) =>
      match socketFromVfsNode env.k.files n with
      | none => (nodeRead env d.offset len buf n).getD (pure (-88))
      | some i => socketRecv env i buf len

end Tested

/-! ## The calls that test for null only -/

section Untested

variable (env : Env)

/-- One turn of the loop of `SYS_WRITEV`: the bytes it adds to the total. -/
def writevOne (iov : ℕ) : UserM ℕ := do
  let base ← loadLe iov 8
  if base = 0 then pure 0
  else
    let len ← loadLe (iov + 8) 8
    loadBytes base len
    pure len

/-- The loop of `SYS_WRITEV`. -/
def writevLoop (iov : ℕ) : ℕ → ℕ → UserM ℕ
  | 0, total => pure total
  | left + 1, total => do
    let n ← writevOne iov
    writevLoop (iov + 16) left (total + n)

/-- `SYS_WRITEV`. -/
def sysWritev (fd : ℤ) (iov : ℕ) (iovcnt : ℤ) : UserM ℤ := do
  if fd ≠ 1 ∧ fd ≠ 2 then pure (-9)
  else if iov = 0 then pure (-14)
  else if iovcnt < 0 then pure (-22)
  else
    let total ← writevLoop iov iovcnt.toNat 0
    pure (i64 total)

/-- `SYS_GETSOCKNAME` and `SYS_GETPEERNAME`. -/
def sysGetsockname (addr addrlen : ℕ) : UserM ℤ := do
  if addr = 0 ∨ addrlen = 0 then pure 0
  else
    let len ← loadLe addrlen 4
    if 16 ≤ len then
      storeLe addr 2 2
      storeLe addrlen 4 16
    pure 0

/-- `SYS_UNAME`. -/
def sysUname (u : ℕ) : UserM ℤ := do
  if u = 0 then pure (-14)
  else
    clear u (6 * 65)
    storeStr u "BangOS"
    storeStr (u + 65) "bangos"
    storeStr (u + 130) "0.3.0"
    storeStr (u + 195) "#1 SMP Bare-Metal x86_64 UEFI"
    storeStr (u + 260) "x86_64"
    storeStr (u + 325) "local"
    pure 0

/-- `SYS_SYSINFO`; a `struct sysinfo` has 344 bytes. -/
def sysSysinfo (info : ℕ) : UserM ℤ := do
  if info = 0 then pure (-14)
  else
    clear info 344
    storeLe info 8 (env.cycles / 1000000000)
    storeLe (info + 32) 8 env.totalBytes
    storeLe (info + 40) 8 env.freeBytes
    storeLe (info + 80) 2 1
    storeLe (info + 104) 4 1
    pure 0

/-- `SYS_CLOCK_GETTIME`. -/
def sysClockGettime (ts : ℕ) : UserM ℤ := do
  if ts = 0 then pure (-14)
  else
    storeLe ts 8 (env.cycles / 1000000000)
    storeLe (ts + 8) 8 (env.cycles % 1000000000)
    pure 0

/-- `SYS_NANOSLEEP`; `none` when the caller does not wake up again. -/
def sysNanosleepPtr (req rem : ℕ) : UserM (Option ℤ) := do
  if req = 0 then pure (some (-14))
  else
    let sec ← loadLe req 8
    if i64 sec < 0 then pure (some (-22))
    else
      let nsec ← loadLe (req + 8) 8
      match (sysNanosleep env.k (i64 sec) (i64 nsec)).1 with
      | some r => pure (some r)
      | none =>
        if env.wakes then
          if rem ≠ 0 then
            storeLe rem 8 0
            storeLe (rem + 8) 8 0
          pure (some 0)
        else pure none

/-- A pass of the loop of `process_wait4`; `none` when it goes on waiting. -/
def sysWait4 (pid : ℤ) (status : ℕ) : UserM (Option ℤ) := do
  let k := env.k
  match (List.finRange maxProcesses).find? fun i =>
      wait4Matches k.current.pid pid (k.procs i) &&
        ((k.procs i).state == .zombie || (k.procs i).exited) with
  | some i =>
    if status ≠ 0 then storeLe status 4 (wait4Status (k.procs i).exitCode).toNat
  | none => pure ()
  pure (processWait4 k pid status).1

/-- `SYS_FUTEX`; `none` when a waiter is not woken. -/
def sysFutex (uaddr op val : ℕ) : UserM (Option ℤ) := do
  -- `FUTEX_PRIVATE_FLAG` is masked out
  let op := if op.testBit 7 then op - 128 else op
  if op = 0 then
    if uaddr = 0 then pure (some (-14))
    else
      let word ← loadLe uaddr 4
      match (futexWait env.k uaddr val word).1 with
      | some r => pure (some r)
      | none => pure (if env.wakes then some 0 else none)
  else if op = 1 then pure (some (futexWake env.k.procs uaddr (Int.bmod val (2 ^ 32))).1)
  else pure (some (-22))

/-- `SYS_CLONE`.  The child's pointer `ctid` is only recorded. -/
def sysClone (flags childStack ptid ctid newtls : ℕ) (frame : ContextFrame) : UserM ℤ := do
  if flags.testBit 8 ∧ (forkSlot env.k.procs).isSome ∧ ptid ≠ 0 ∧ flags.testBit 20 then
    storeLe ptid 4 env.k.nextPid.toNat
  pure (processClone env.k flags childStack ptid ctid newtls frame).1

end Untested

/-! ## The calls together -/

/-- A system call that reads or writes memory through a pointer argument. -/
inductive PtrCall where
  | read (fd : ℤ) (buf count : ℕ)
  | write (fd : ℤ) (buf count : ℕ)
  | writev (fd : ℤ) (iov : ℕ) (iovcnt : ℤ)
  | openPath (path flags mode : ℕ)
  | stat (path st : ℕ)
  | fstat (fd : ℤ) (st : ℕ)
  | getdents64 (fd : ℤ) (dirp count : ℕ)
  | poll (fds nfds : ℕ)
  | connect (fd : ℤ) (addr addrlen : ℕ)
  | sendto (fd : ℤ) (buf len : ℕ)
  | recvfrom (fd : ℤ) (buf len : ℕ)
  | getsockname (addr addrlen : ℕ)
  | uname (u : ℕ)
  | sysinfo (info : ℕ)
  | clockGettime (ts : ℕ)
  | nanosleep (req rem : ℕ)
  | wait4 (pid : ℤ) (status : ℕ)
  | futex (uaddr op val : ℕ)
  | clone (flags childStack ptid ctid newtls : ℕ) (frame : ContextFrame)

/-- `do_syscall` on these calls; `none` when the call does not return. -/
def ptrCall (refuse : ℕ → Bool) (env : Env) : PtrCall → UserM (Option ℤ)
  | .read fd buf count => some <$> sysRead refuse env fd buf count
  | .write fd buf count => some <$> sysWrite refuse env fd buf count
  | .writev fd iov iovcnt => some <$> sysWritev fd iov iovcnt
  | .openPath path flags mode => some <$> sysOpenPath refuse env path flags mode
  | .stat path st => some <$> sysStat refuse env path st
  | .fstat fd st => some <$> sysFstat refuse env fd st
  | .getdents64 fd dirp count => some <$> sysGetdents64 refuse env fd dirp count
  | .poll fds nfds => some <$> sysPoll refuse env fds nfds
  | .connect fd addr addrlen => some <$> sysConnect refuse env fd addr addrlen
  | .sendto fd buf len => some <$> sysSendto refuse env fd buf len
  | .recvfrom fd buf len => some <$> sysRecvfrom refuse env fd buf len
  | .getsockname addr addrlen => some <$> sysGetsockname addr addrlen
  | .uname u => some <$> sysUname u
  | .sysinfo info => some <$> sysSysinfo env info
  | .clockGettime ts => some <$> sysClockGettime env ts
  | .nanosleep req rem => sysNanosleepPtr env req rem
  | .wait4 pid status => sysWait4 env pid status
  | .futex uaddr op val => sysFutex env uaddr op val
  | .clone flags childStack ptid ctid newtls frame =>
    some <$> sysClone env flags childStack ptid ctid newtls frame

/-- Where the kernel half of the address space starts. -/
def kernelHalf : ℕ := 0xFFFF800000000000

/-- The test of the source. -/
def inKernelHalf (p : ℕ) : Bool := decide (kernelHalf ≤ p)

/-- A call, from a memory of these bytes: what it returns and the memory with the addresses it
has used. -/
def runCall (refuse : ℕ → Bool) (env : Env) (c : PtrCall) (bytes : ℕ → UInt8) :
    Option ℤ × UserMem := ptrCall refuse env c ⟨bytes, []⟩

/-- The addresses that a call would use if it refused no pointer. -/
def wanted (env : Env) (c : PtrCall) (bytes : ℕ → UInt8) : List ℕ :=
  (runCall (fun _ => false) env c bytes).2.used

/-- If any byte that the call would use lies in the kernel half, the call returns `-14`
(`-EFAULT`) and uses none of these bytes. -/
def RefusesKernelHalf (env : Env) (c : PtrCall) (bytes : ℕ → UInt8) : Prop :=
  (∃ a ∈ wanted env c bytes, kernelHalf ≤ a) →
    (runCall inKernelHalf env c bytes).1 = some (-14) ∧
      ∀ a ∈ wanted env c bytes, a ∉ (runCall inKernelHalf env c bytes).2.used

/-- The pointers that a call tests. -/
def PtrCall.tested : PtrCall → List ℕ
  | .read _ buf _ | .write _ buf _ | .sendto _ buf _ | .recvfrom _ buf _ => [buf]
  | .openPath path _ _ => [path]
  | .stat path st => [path, st]
  | .fstat _ st => [st]
  | .getdents64 _ dirp _ => [dirp]
  | .poll fds _ => [fds]
  | .connect _ addr _ => [addr]
  | _ => []

section Proofs

variable {env : Env} {c : PtrCall} {refuse : ℕ → Bool}

/-- A call none of whose tests fires runs as if it had none. -/
lemma ptrCall_of_not_refused (h : ∀ p ∈ c.tested, refuse p = false) :
    ptrCall refuse env c = ptrCall (fun _ => false) env c := by
  cases c <;> simp only [PtrCall.tested, List.mem_cons, List.not_mem_nil, or_false,
    forall_eq, forall_eq_or_imp] at h
  all_goals
    simp only [ptrCall, sysRead, sysWrite, sysOpenPath, sysStat, sysFstat, sysGetdents64, sysPoll,
      sysConnect, sysSendto, sysRecvfrom, withBuffer, badPtr, h, Bool.false_eq_true, or_false]

/-- What a fired test leads to: the call returns `-14` and uses nothing, or it would use nothing
anyway. -/
def Stopped (x y : UserM ℤ) : Prop := ∀ s, x s = (-14, s) ∨ (y s).2 = s

lemma stopped_withBuffer {buf : ℕ} (h : refuse buf = true) (fd : ℤ) (count : ℕ)
    (x y : UserM ℤ) :
    Stopped (withBuffer refuse fd buf count x) (withBuffer (fun _ => false) fd buf count y) := by
  intro s
  rw [withBuffer, withBuffer]
  by_cases hfd : badFd fd
  · right
    rw [if_pos hfd]
    rfl
  by_cases hcount : count = 0
  · right
    rw [if_neg hfd, if_neg (by omega), if_pos hcount]
    rfl
  · left
    rw [if_neg hfd, if_pos ⟨Or.inr h, by omega⟩]
    rfl

lemma stopped_open {path : ℕ} (h : refuse path = true) (flags mode : ℕ) (y : UserM ℤ) :
    Stopped (sysOpenPath refuse env path flags mode) y := by
  intro s
  left
  rw [sysOpenPath, if_pos (show badPtr refuse path from Or.inr h)]
  rfl

lemma stopped_stat {path st : ℕ} (h : refuse path = true ∨ refuse st = true) (y : UserM ℤ) :
    Stopped (sysStat refuse env path st) y := by
  intro s
  left
  rw [sysStat, if_pos h, ite_self]
  rfl

lemma stopped_fstat {st : ℕ} (h : refuse st = true) (fd : ℤ) (y : UserM ℤ) :
    Stopped (sysFstat refuse env fd st) y := by
  intro s
  left
  rw [sysFstat, if_pos h, ite_self]
  rfl

lemma stopped_getdents64 {dirp : ℕ} (h : refuse dirp = true) (fd : ℤ) (count : ℕ)
    (y : UserM ℤ) : Stopped (sysGetdents64 refuse env fd dirp count) y := by
  intro s
  left
  rw [sysGetdents64, if_pos h, ite_self]
  rfl

lemma stopped_poll {fds : ℕ} (h : refuse fds = true) (nfds : ℕ) :
    Stopped (sysPoll refuse env fds nfds) (sysPoll (fun _ => false) env fds nfds) := by
  intro s
  rw [sysPoll, sysPoll]
  by_cases hn : nfds = 0
  · right
    rw [if_neg (by omega), if_pos hn]
    rfl
  · left
    rw [if_pos ⟨Or.inr h, by omega⟩]
    rfl

lemma stopped_connect {addr : ℕ} (h : refuse addr = true) (fd : ℤ) (addrlen : ℕ) :
    Stopped (sysConnect refuse env fd addr addrlen)
      (sysConnect (fun _ => false) env fd addr addrlen) := by
  intro s
  rw [sysConnect, sysConnect]
  by_cases hfd : badFd fd
  · right
    rw [if_pos hfd]
    rfl
  · left
    rw [if_neg hfd, if_pos (show badPtr refuse addr from Or.inr h)]
    rfl

/-- A call one of whose tests would fire returns `-14` and uses nothing, or would use nothing
anyway. -/
lemma ptrCall_of_refused (h : ∃ p ∈ c.tested, refuse p = true) (s : UserMem) :
    ptrCall refuse env c s = (some (-14), s) ∨ (ptrCall (fun _ => false) env c s).2 = s := by
  have lift : ∀ x y : UserM ℤ, Stopped x y →
      (some <$> x : UserM (Option ℤ)) s = (some (-14), s) ∨
        ((some <$> y : UserM (Option ℤ)) s).2 = s := by
    intro x y hxy
    refine (hxy s).imp (fun hx => ?_) id
    change (some (x s).1, (x s).2) = _
    rw [hx]
  cases c <;> simp only [PtrCall.tested, List.mem_cons, List.not_mem_nil, or_false,
    exists_eq_left, exists_eq_or_imp, false_and, exists_false] at h
  case read | write | sendto | recvfrom => exact lift _ _ (stopped_withBuffer h _ _ _ _)
  case openPath => exact lift _ _ (stopped_open h _ _ _)
  case stat => exact lift _ _ (stopped_stat h _)
  case fstat => exact lift _ _ (stopped_fstat h _ _)
  case getdents64 => exact lift _ _ (stopped_getdents64 h _ _ _)
  case poll => exact lift _ _ (stopped_poll h _)
  case connect => exact lift _ _ (stopped_connect h _ _)

end Proofs

/-- **When the kernel half is out of reach.**  A call that would use a byte of the kernel half is
refused, and uses nothing, exactly if it is one of the calls that test a pointer and the pointer
itself lies in the kernel half. -/
theorem refusesKernelHalf_iff (env : Env) (c : PtrCall) (bytes : ℕ → UInt8) :
    RefusesKernelHalf env c bytes ↔
      (∀ a ∈ wanted env c bytes, a < kernelHalf) ∨ ∃ p ∈ c.tested, kernelHalf ≤ p := by
  by_cases htest : ∃ p ∈ c.tested, kernelHalf ≤ p
  · refine iff_of_true (fun ⟨a, ha, _⟩ => ?_) (Or.inr htest)
    obtain ⟨p, hp, hle⟩ := htest
    have hrefuse : inKernelHalf p = true := decide_eq_true hle
    rcases ptrCall_of_refused ⟨p, hp, hrefuse⟩ ⟨bytes, []⟩ with h | h
    · rw [runCall, h]
      exact ⟨rfl, fun _ _ => List.not_mem_nil⟩
    · rw [wanted, runCall, h] at ha
      cases ha
  · have hpass : ∀ p ∈ c.tested, inKernelHalf p = false :=
      fun p hp => decide_eq_false fun hle => htest ⟨p, hp, hle⟩
    have hrun : runCall inKernelHalf env c bytes = runCall (fun _ => false) env c bytes := by
      rw [runCall, ptrCall_of_not_refused hpass, runCall]
    refine ⟨fun h => Or.inl fun a ha => ?_, fun h ⟨a, ha, hle⟩ => ?_⟩
    · by_contra hge
      have hno := (h ⟨a, ha, Nat.le_of_not_lt hge⟩).2 a ha
      rw [hrun] at hno
      exact hno ha
    · exact absurd (h.resolve_right htest a ha) (by omega)

/-- A freshly started kernel with no file system mounted, at whose console `x` is typed. -/
def quietEnv : Env where
  k := freshKernel
  mounts := []
  finddir _ _ := none
  create _ _ _ := none
  inode _ := 0
  size _ := 0
  isDir _ := false
  read _ := none
  write _ := none
  readdir _ := none
  tcpRecv _ _ := ([], 0)
  tcpSend _ _ := (0, 0)
  tcpConnect _ _ _ := false
  socketPoll _ := 0
  keys _ := 0x78
  wakes := true
  cycles := 0
  totalBytes := 0
  freeBytes := 0

/-- A call that returns something other than `-14` although it would use the kernel half. -/
lemma not_refusesKernelHalf {env : Env} {c : PtrCall} {bytes : ℕ → UInt8} {a : ℕ} {r : ℤ}
    (ha : a ∈ wanted env c bytes) (hle : kernelHalf ≤ a)
    (hret : (runCall inKernelHalf env c bytes).1 = some r) (hr : r ≠ -14) :
    ¬ RefusesKernelHalf env c bytes := by
  intro h
  have hrefused := (h ⟨a, ha, hle⟩).1
  rw [hret] at hrefused
  exact hr (Option.some.inj hrefused)

/-- `uname` fills a `struct utsname` at the start of the kernel half and returns 0, and `read`
stores the second of two characters there. -/
theorem kernel_half_used :
    ¬ RefusesKernelHalf quietEnv (.uname kernelHalf) (fun _ => 0) ∧
      ¬ RefusesKernelHalf quietEnv (.read 0 (kernelHalf - 1) 2) (fun _ => 0) := by
  constructor
  · exact not_refusesKernelHalf (a := kernelHalf) (r := 0) (by decide +kernel) le_rfl
      (by decide +kernel) (by decide)
  · exact not_refusesKernelHalf (a := kernelHalf) (r := 2) (by decide +kernel) le_rfl
      (by decide +kernel) (by decide)

end Bangos.Syscall
