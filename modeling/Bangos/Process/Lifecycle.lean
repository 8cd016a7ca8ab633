import Bangos.Mm.PageTable
import Bangos.Process.Process

/-!
# Creating, waiting for and ending processes (`kernel/process/process.c`)
-/

namespace Bangos.Proc

open Bangos.Mm Bangos.Fs Bangos.Net Bangos.Loader Bangos.Syscall ByteMem

/-! ## Creation -/

/-- `process_create_from_elf`: the slot of the new process, which becomes the current one. -/
def processCreateFromElf (k : Kernel) (info : ElfInfo) (name : List UInt8) :
    Option (Fin maxProcesses) × Kernel :=
  match (List.finRange maxProcesses).find? fun i => !(k.procs i).active with
  | none => (none, k)
  | some idx =>
    let kst := allocPages k.mem kernelStackPages
    let ust := allocPages kst.2 userStackPages
    let kstackTop := kst.1.getD 0 + kernelStackPages * pageSize
    let stackPhys := ust.1.getD 0
    let m := mapUserPages ust.2 stackVirtBase stackPhys userStackPages
    let m := writeArgs m (stackPhys + userStackPages * pageSize) name
    let frame := kstackTop - contextFrameSize
    let m := writeFrame m frame (startFrame info.entryPoint startRsp)
    let proc : Process :=
      { Process.zero with
        pid := k.nextPid
        tgid := k.nextPid
        active := true
        state := .ready
        entryPoint := info.entryPoint
        heapCurr := pageAlign info.maxVaddr
        name := kstrncpy name 31
        vm := programVm k.nextPid info.segments
        segments := info.segments
        kstack := kst.1.getD 0
        kstackTop := kstackTop
        stackPhysBase := stackPhys
        stackNumPages := userStackPages
        userRsp := startRsp
        savedFrame := frame }
    (some idx,
      { k with
        procs := Function.update k.procs idx proc
        currentProcIdx := idx
        nextPid := k.nextPid + 1
        mem := m
        pos := Function.update k.pos idx .user })

/-- `process_jump_to_user`. -/
def processJumpToUser (k : Kernel) (i : Fin maxProcesses) : Kernel :=
  let p := k.procs i
  { k.setProc i { p with state := .running } with
    tssRsp0 := p.kstackTop
    kernelRspTemp := p.kstackTop
    schedulerEnabled := true }

/-- The slot that `process_fork` and `process_clone` take; slot 0 is never reused. -/
def forkSlot (ps : ProcTable) : Option (Fin maxProcesses) :=
  (List.finRange maxProcesses).find? fun i => decide (1 ≤ i.val) && !(ps i).active

/-- The new slot as far as it is written before the parent is read: cleared, with its pid.
A process that has killed itself can be its own child, and then reads its fields back from
here. -/
def freshChild (pid : ℤ) : Process := { Process.zero with pid := pid }

/-- The parent as `process_fork` and `process_clone` see it. -/
def parentView (k : Kernel) (child : Fin maxProcesses) : Process :=
  if child = k.currentProcIdx then freshChild k.nextPid else k.current

/-- The frame a child starts with: that of the system call, returning 0. -/
def childFrame (frame : ContextFrame) : ContextFrame :=
  { frame with rax := 0, rflags := frame.rflags ||| 0x202 }

/-- `process_fork`. -/
def processFork (k : Kernel) (frame : ContextFrame) : ℤ × Kernel :=
  match forkSlot k.procs with
  | none => (-12, k)
  | some ci =>
    let parent := parentView k ci
    let kst := allocPages k.mem kernelStackPages
    let ust := allocPages kst.2 userStackPages
    let kstackTop := kst.1.getD 0 + kernelStackPages * pageSize
    let stackPhys := ust.1.getD 0
    let stackSrc := if ci = k.currentProcIdx then stackPhys else parent.stackPhysBase
    let m := { ust.2 with
      phys := copy ust.2.phys stackPhys ust.2.phys stackSrc (userStackPages * pageSize) }
    let childFramePtr := kstackTop - contextFrameSize
    let m := writeFrame m childFramePtr (childFrame frame)
    let fds := fdTableClone k.files parent.fdTable
    let child : Process :=
      { Process.zero with
        pid := k.nextPid
        ppid := parent.pid
        tgid := k.nextPid
        active := true
        state := .ready
        entryPoint := parent.entryPoint
        heapCurr := parent.heapCurr
        fsBase := parent.fsBase
        name := kstrncpy parent.name 31
        segments := parent.segments
        kstack := kst.1.getD 0
        kstackTop := kstackTop
        stackPhysBase := stackPhys
        stackNumPages := userStackPages
        savedFrame := childFramePtr
        userRsp := frame.rsp
        vm := parent.vm
        fdTable := fds.2 }
    (k.nextPid,
      { k with
        procs := Function.update k.procs ci child
        nextPid := k.nextPid + 1
        mem := m
        files := fds.1
        pos := Function.update k.pos ci .user })

/-- `*ptid = thread->pid`, if `CLONE_PARENT_SETTID` asks for it. -/
def storePtid (m : Mem) (flags ptid : ℕ) (pid : ℤ) : Mem :=
  if ptid ≠ 0 ∧ flags.testBit 20 then storeInt m ptid (pid % 2 ^ 32).toNat else m

/-- The part of `process_clone` that makes a thread; the pointers are 0 when null. -/
def cloneThread (k : Kernel) (flags childStack ptid ctid newtls : ℕ) (frame : ContextFrame) :
    ℤ × Kernel :=
  match forkSlot k.procs with
  | none => (-12, k)
  | some ti =>
    let parent := parentView k ti
    let fds := fdTableClone k.files parent.fdTable
    let kst := allocPages k.mem kernelStackPages
    let kstackTop := kst.1.getD 0 + kernelStackPages * pageSize
    let tframe := childFrame
      { frame with rsp := if childStack ≠ 0 then childStack else frame.rsp }
    let tframePtr := kstackTop - contextFrameSize
    let thread : Process :=
      { Process.zero with
        pid := k.nextPid
        ppid := parent.pid
        tgid := if parent.tgid ≠ 0 then parent.tgid else parent.pid
        isThread := true
        active := true
        state := .ready
        entryPoint := parent.entryPoint
        heapCurr := parent.heapCurr
        fsBase := if newtls ≠ 0 then newtls else parent.fsBase
        stackPhysBase := parent.stackPhysBase
        name := kstrncpy parent.name 31
        fdTable := fds.2
        segments := parent.segments
        kstack := kst.1.getD 0
        kstackTop := kstackTop
        savedFrame := tframePtr
        userRsp := tframe.rsp
        clearChildTid := if flags.testBit 21 then ctid else 0
        vm := parent.vm }
    (k.nextPid,
      { k with
        procs := Function.update k.procs ti thread
        nextPid := k.nextPid + 1
        mem := storePtid (writeFrame kst.2 tframePtr tframe) flags ptid k.nextPid
        files := fds.1
        pos := Function.update k.pos ti .user })

/-- `process_clone`. -/
def processClone (k : Kernel) (flags childStack ptid ctid newtls : ℕ) (frame : ContextFrame) :
    ℤ × Kernel :=
  if flags.testBit 8 then cloneThread k flags childStack ptid ctid newtls frame
  else processFork k frame

/-! ## Replacing the program -/

/-- The part of `process_execve` after the image has been loaded. -/
def execveCommit (k : Kernel) (info : ElfInfo) (name : List UInt8) : Kernel :=
  let proc := k.current
  let ust := if proc.stackPhysBase = 0 then allocPages k.mem userStackPages
    else (some proc.stackPhysBase, k.mem)
  let stackPhys := ust.1.getD 0
  let m := mapUserPages ust.2 stackVirtBase stackPhys userStackPages
  let m := writeArgs m (stackPhys + userStackPages * pageSize) name
  let frame := proc.kstackTop - contextFrameSize
  let m := writeFrame m frame (startFrame info.entryPoint startRsp)
  let k := { k with mem := m }
  processJumpToUser
    (k.setCurrent
      { proc with
        entryPoint := info.entryPoint
        heapCurr := pageAlign info.maxVaddr
        name := kstrncpy name 31
        vm := programVm proc.pid info.segments
        segments := info.segments
        stackPhysBase := stackPhys
        stackNumPages := if proc.stackPhysBase = 0 then userStackPages else proc.stackNumPages
        userRsp := startRsp
        savedFrame := frame })
    k.currentProcIdx

/-- `process_execve`.  A null path is `none`, and so is a missing `argv[0]`.  The file is read where
it lies in the archive. -/
def processExecve (k : Kernel) (path argv0 : Option (List UInt8)) : ℤ × Kernel :=
  match path with
  | none => (-14, k)
  | some path =>
    match tarfsLookup k.archive path with
    | none => (-2, k)
    | some (data, size) =>
      match elfLoadBinary k.mem (u64 (k.ramdisk.addr + data)) size with
      | (none, m) => (-8, { k with mem := m })
      | (some info, m) => (0, execveCommit { k with mem := m } info (argv0.getD path))

/-! ## Waiting and waking -/

/-- The processes `process_wait4` looks for. -/
def wait4Matches (parentPid pid : ℤ) (p : Process) : Bool :=
  p.active && (p.pid == pid || (decide (pid ≤ 0) && p.ppid == parentPid))

/-- `(code & 0xFF) << 8`. -/
def wait4Status (code : ℤ) : ℤ := code % 256 * 256

/-- `*status_ptr = (code & 0xFF) << 8`, unless the pointer is null. -/
def storeStatus (m : Mem) (statusPtr : ℕ) (code : ℤ) : Mem :=
  if statusPtr = 0 then m else storeInt m statusPtr (wait4Status code).toNat

/-- One pass of the loop of `process_wait4`: `none` when it goes on waiting. -/
def processWait4 (k : Kernel) (pid : ℤ) (statusPtr : ℕ) : Option ℤ × Kernel :=
  let me := k.current.pid
  match (List.finRange maxProcesses).find? fun i =>
      wait4Matches me pid (k.procs i) &&
        ((k.procs i).state == .zombie || (k.procs i).exited) with
  | some i =>
    (some (k.procs i).pid,
      { k.setProc i { k.procs i with active := false, exited := false, state := .free } with
        mem := storeStatus k.mem statusPtr (k.procs i).exitCode })
  | none =>
    if (List.finRange maxProcesses).any fun i => wait4Matches me pid (k.procs i) then (none, k)
    else (some (-10), k)

/-- `futex_wake` looks for this. -/
def futexSleeper (uaddr : ℕ) (p : Process) : Bool :=
  p.active && p.state == .sleeping && p.waitChannel == uaddr

/-- The loop of `futex_wake`: at most `n` sleepers on `uaddr` are woken, in table order. -/
def futexWakeLoop (uaddr : ℕ) : List (Fin maxProcesses) → ℕ → ProcTable → ℕ × ProcTable
  | [], _, ps => (0, ps)
  | _, 0, ps => (0, ps)
  | i :: is, n + 1, ps =>
    if futexSleeper uaddr (ps i) then
      let r := futexWakeLoop uaddr is n
        (Function.update ps i { ps i with waitChannel := 0, state := .ready })
      (r.1 + 1, r.2)
    else futexWakeLoop uaddr is (n + 1) ps

/-- `futex_wake`. -/
def futexWake (ps : ProcTable) (uaddr : ℕ) (count : ℤ) : ℕ × ProcTable :=
  if uaddr = 0 ∨ count ≤ 0 then (0, ps)
  else futexWakeLoop uaddr (List.finRange maxProcesses) count.toNat ps

/-- `futex_wait` up to its loop, when the word at `uaddr` is `word`: `none` when it starts
waiting. -/
def futexWait (k : Kernel) (uaddr val word : ℕ) : Option ℤ × Kernel :=
  if uaddr = 0 then (some (-14), k)
  else if word ≠ val then (some (-11), k)
  else
    (none, (k.setCurrent { k.current with waitChannel := uaddr, state := .sleeping }).setPos
      (.futexWait uaddr))

/-- `total_ticks` of `SYS_NANOSLEEP`. -/
def nanosleepTicks (sec nsec : ℕ) : ℕ :=
  let t := u64 (sec * 100 + (nsec + 9999999) / 10000000)
  if t = 0 then 1 else t

/-- `SYS_NANOSLEEP` with a request that is not null, up to its loop. -/
def sysNanosleep (k : Kernel) (sec nsec : ℤ) : Option ℤ × Kernel :=
  if sec < 0 ∨ nsec < 0 ∨ 1000000000 ≤ nsec then (some (-22), k)
  else
    let ticks := nanosleepTicks sec.toNat nsec.toNat
    (none, (k.setCurrent
      { k.current with sleepTicksRemaining := ticks, state := .sleeping }).setPos .nanosleep)

/-! ## Ending -/

/-- "Wake parent if waiting": every active process with this pid that sleeps is made ready,
whatever it sleeps for. -/
def wakeParent (ps : ProcTable) (ppid : ℤ) : ProcTable := fun i =>
  if (ps i).active ∧ (ps i).pid = ppid ∧ (ps i).state = .sleeping then
    { ps i with state := .ready }
  else ps i

/-- The children of an exiting process end with it. -/
def endChildren (ps : ProcTable) (pid code : ℤ) : ProcTable := fun i =>
  if (ps i).active ∧ (ps i).ppid = pid then
    { ps i with exited := true, exitCode := code, state := .zombie, active := false }
  else ps i

/-- The first part of `process_exit`: the descriptors from 3 on are freed. -/
def exitFds (k : Kernel) : Kernel :=
  let fds := fdFreeAll k.files k.current.fdTable
  { k.setCurrent { k.current with fdTable := fds.2 } with files := fds.1 }

/-- The second part: `*clear_child_tid` is set to 0, and one waiter on it is woken. -/
def exitClearTid (k : Kernel) : Kernel :=
  if k.current.clearChildTid = 0 then k
  else
    { k with
      mem := storeInt k.mem k.current.clearChildTid 0
      procs := (futexWake k.procs k.current.clearChildTid 1).2 }

/-- The last part: the machine halts, a thread disappears, a process becomes a zombie, ends
its children and wakes its parent. -/
def exitFinish (k : Kernel) (code : ℤ) : Kernel :=
  let proc := k.current
  if proc.pid = 1 then { k with halted := true }
  else if proc.isThread then
    k.setCurrent { proc with state := .zombie, exitCode := code, active := false }
  else
    let ps := Function.update k.procs k.currentProcIdx
      { proc with exited := true, exitCode := code, state := .zombie }
    { k with procs := wakeParent (endChildren ps proc.pid code) proc.ppid }

/-- `process_exit`. -/
def processExit (k : Kernel) (code : ℤ) : Kernel :=
  (exitFinish (exitClearTid (exitFds k)) code).setPos .exited

/-- The slot `process_kill` finds. -/
def killSlot (ps : ProcTable) (pid : ℤ) : Option (Fin maxProcesses) :=
  (List.finRange maxProcesses).find? fun i => (ps i).active && (ps i).pid == pid

/-- `process_kill`. -/
def processKill (k : Kernel) (pid sig : ℤ) : ℤ × Kernel :=
  match killSlot k.procs pid with
  | none => (-3, k)
  | some i =>
    let p := k.procs i
    let fds := fdFreeAll k.files p.fdTable
    let ps := Function.update k.procs i
      { p with
        exited := true, exitCode := sig, state := .zombie, active := false, fdTable := fds.2 }
    (0, { k with procs := wakeParent ps p.ppid, files := fds.1 })

end Bangos.Proc
