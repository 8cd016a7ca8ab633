import Bangos.Fs.Descriptors
import Bangos.Fs.Tarfs
import Bangos.Loader.Elf
import Bangos.Syscall.Memory

/-!
# Processes (`kernel/process/process.c`, `kernel/process/process.h`)

The process table and the state of the kernel around it.  System calls run with interrupts
masked, so each is one step, up to the loops of `futex_wait`, `SYS_NANOSLEEP`,
`process_wait4` and `process_exit`, which wait with `sti; hlt`; where such a loop stands is
the process's `Pos`.

What the kernel reads through a user pointer is an argument.  What `process_clone`,
`process_wait4` and `process_exit` store through one goes to memory through the page table
(`storeInt`), as the pointer may lead anywhere.  The saved FPU state is left out, and so are the
model-specific registers.
-/

namespace Bangos.Proc

open Bangos.Mm Bangos.Fs Bangos.Net Bangos.Loader Bangos.Syscall ByteMem

/-- `MAX_PROCESSES`. -/
abbrev maxProcesses : ℕ := 32

/-- `USER_STACK_TOP`. -/
def userStackTop : ℕ := 0x7FFFF0000000

/-- `USER_STACK_PAGES`. -/
def userStackPages : ℕ := 16

/-- `KERNEL_STACK_PAGES`. -/
def kernelStackPages : ℕ := 4

/-- The lowest address of a user stack. -/
def stackVirtBase : ℕ := userStackTop - userStackPages * pageSize

/-- `process_state_t`. -/
inductive ProcState where
  | free
  | ready
  | running
  | sleeping
  | zombie
deriving DecidableEq, Repr

/-- `context_frame_t`. -/
structure ContextFrame where
  /-- `r15`, `r14`, …, `rbx`. -/
  regs : Fin 14 → ℕ
  rax : ℕ
  vecNum : ℕ
  errorCode : ℕ
  rip : ℕ
  cs : ℕ
  rflags : ℕ
  rsp : ℕ
  ss : ℕ

/-- `sizeof(context_frame_t)`. -/
def contextFrameSize : ℕ := 176

/-- The frame as it lies in memory. -/
def ContextFrame.words (f : ContextFrame) : List ℕ :=
  List.ofFn f.regs ++ [f.rax, f.vecNum, f.errorCode, f.rip, f.cs, f.rflags, f.rsp, f.ss]

/-- `process_t`. -/
structure Process where
  pid : ℤ
  ppid : ℤ
  tgid : ℤ
  isThread : Bool
  active : Bool
  exited : Bool
  state : ProcState
  exitCode : ℤ
  entryPoint : ℕ
  userRsp : ℕ
  heapCurr : ℕ
  fsBase : ℕ
  /-- `mmap_curr_base` and `vmas`. -/
  vm : ProcVm
  /-- The first `num_segments` entries of `segments`. -/
  segments : List ElfSegment
  stackPhysBase : ℕ
  stackNumPages : ℕ
  fdTable : FdTable
  kstack : ℕ
  kstackTop : ℕ
  savedFrame : ℕ
  sleepTicksRemaining : ℕ
  waitChannel : ℕ
  clearChildTid : ℕ
  name : List UInt8

/-- A cleared slot of the process table. -/
def Process.zero : Process where
  pid := 0
  ppid := 0
  tgid := 0
  isThread := false
  active := false
  exited := false
  state := .free
  exitCode := 0
  entryPoint := 0
  userRsp := 0
  heapCurr := 0
  fsBase := 0
  vm := ⟨0, fun _ => VmArea.empty⟩
  segments := []
  stackPhysBase := 0
  stackNumPages := 0
  fdTable := fdTableInit
  kstack := 0
  kstackTop := 0
  savedFrame := 0
  sleepTicksRemaining := 0
  waitChannel := 0
  clearChildTid := 0
  name := []

/-- Where a process stands: in user code (or about to be scheduled there), or in one of the
waiting loops of the kernel. -/
inductive Pos where
  | user
  | futexWait (uaddr : ℕ)
  | nanosleep
  | wait4 (pid : ℤ) (statusPtr : ℕ)
  | exited
deriving DecidableEq

/-- The process table. -/
abbrev ProcTable := Fin maxProcesses → Process

/-- `tar_archive_base` and `tar_archive_size`; `loaded` says that the base is not null. -/
structure RamdiskAt where
  addr : ℕ
  size : ℕ
  loaded : Bool

/-- The state of the kernel. -/
structure Kernel where
  procs : ProcTable
  currentProcIdx : Fin maxProcesses
  nextPid : ℤ
  schedulerEnabled : Bool
  /-- Where the kernel stack of each slot has been left. -/
  pos : Fin maxProcesses → Pos
  mem : Mem
  files : Files
  brk : Brk
  ramdisk : RamdiskAt
  /-- The `rsp0` field of the task state segment. -/
  tssRsp0 : ℕ
  kernelRspTemp : ℕ
  /-- Set when process 1 has exited. -/
  halted : Bool

namespace Kernel

/-- `process_get_current`. -/
def current (k : Kernel) : Process := k.procs k.currentProcIdx

/-- The archive, as it reads through the page table. -/
def archive (k : Kernel) : Ramdisk :=
  ⟨image k.mem k.ramdisk.addr, k.ramdisk.size, k.ramdisk.loaded⟩

/-- Write slot `i` of the process table. -/
def setProc (k : Kernel) (i : Fin maxProcesses) (p : Process) : Kernel :=
  { k with procs := Function.update k.procs i p }

/-- Write the slot of the running process. -/
def setCurrent (k : Kernel) (p : Process) : Kernel := k.setProc k.currentProcIdx p

/-- Record where the running process stands. -/
def setPos (k : Kernel) (q : Pos) : Kernel :=
  { k with pos := Function.update k.pos k.currentProcIdx q }

end Kernel

/-- `process_init`, on a kernel whose memory, files and ramdisk have been set up. -/
def processInit (mem : Mem) (files : Files) (ramdisk : RamdiskAt) : Kernel where
  procs := fun _ => Process.zero
  currentProcIdx := 0
  nextPid := 1
  schedulerEnabled := false
  pos := fun _ => .user
  mem := mem
  files := files
  brk := Brk.init
  ramdisk := ramdisk
  tssRsp0 := 0
  kernelRspTemp := 0
  halted := false

/-! ## Setting up memory of a new process -/

/-- Store 64-bit words from address `a` on. -/
def putWords (b : ℕ → UInt8) (a : ℕ) : List ℕ → ℕ → UInt8
  | [] => b
  | w :: ws => putWords (putLe b a 8 w) (a + 8) ws

/-- Store bytes from address `a` on. -/
def putBytes (b : ℕ → UInt8) (a : ℕ) : List UInt8 → ℕ → UInt8
  | [] => b
  | c :: cs => putBytes (Function.update b a c) (a + 1) cs

/-- `kstrncpy(dst, src, n)`, as the string it leaves in `dst`. -/
def kstrncpy (src : List UInt8) (n : ℕ) : List UInt8 := src.take (n - 1)

/-- The initial stack of a program: the name of the program, and below it `argc`, `argv`,
`envp` and an empty auxiliary vector. -/
def writeArgs (m : Mem) (physTop : ℕ) (name : List UInt8) : Mem :=
  { m with
    phys := putWords (putBytes m.phys (physTop - 64) (kstrncpy name 63 ++ [0])) (physTop - 256)
      [1, userStackTop - 64, 0, 0, 0, 0] }

/-- Write a context frame. -/
def writeFrame (m : Mem) (addr : ℕ) (f : ContextFrame) : Mem :=
  { m with phys := putWords m.phys addr f.words }

/-- The frame with which a program starts. -/
def startFrame (entry rsp : ℕ) : ContextFrame where
  regs := fun _ => 0
  rax := 0
  vecNum := 0
  errorCode := 0
  rip := entry
  cs := 0x23
  rflags := 0x202
  rsp := rsp
  ss := 0x1B

/-- `proc->user_rsp` of a program that has just been loaded. -/
def startRsp : ℕ := (userStackTop - 256) / 16 * 16

/-- The areas of the recorded segments, added to a table. -/
def segmentVmas (vs : VmaTable) (segments : List ElfSegment) : VmaTable :=
  segments.foldl
    (fun vs s => (vmaCreate vs s.virtAddr (u64 (s.virtAddr + s.numPages * pageSize))
      (vmaProtRead ||| vmaProtWrite ||| vmaProtExec) vmaMapPrivate).2) vs

/-- The areas of a loaded program: its segments and its stack. -/
def programVm (pid : ℤ) (segments : List ElfSegment) : ProcVm :=
  let vm := vmmInitProcess pid
  { vm with
    vmas := (vmaCreate (segmentVmas vm.vmas segments) stackVirtBase userStackTop
      (vmaProtRead ||| vmaProtWrite) (vmaMapPrivate ||| vmaMapAnonymous)).2 }

end Bangos.Proc
