import Bangos.Process.Scheduler

/-!
# The kernel as a transition system

The running process makes system calls while it is in user code; a process that waits in a
kernel loop looks at its condition again when it runs (`resume`); the timer interrupts either
(`tick`), and user code may fault on a page (`pageFault`).  On the one processor there are no
other interleavings: system calls run with interrupts masked.
-/

namespace Bangos.Proc

open Bangos.Mm Bangos.Fs Bangos.Net Bangos.Loader Bangos.Syscall

/-- The system calls. -/
inductive Call where
  | futexWait (uaddr val word : ℕ)
  | futexWake (uaddr : ℕ) (count : ℤ)
  | nanosleep (sec nsec : ℤ)
  | fork (frame : ContextFrame)
  | clone (flags childStack ptid ctid newtls : ℕ) (frame : ContextFrame)
  | execve (path argv0 : Option (List UInt8))
  | exit (code : ℤ)
  | kill (pid sig : ℤ)
  | wait4 (pid : ℤ) (statusPtr : ℕ)
  | setTidAddress (addr : ℕ)
  | socket (domain type protocol : ℤ)
  | close (fd : ℤ)
  | shutdown (fd : ℤ)
  | mmap (addr len prot flags : ℕ)
  | munmap (addr len : ℕ)
  | mprotect (addr len prot : ℕ)
  | brk (newBrk : ℕ)

/-- The steps of the kernel. -/
inductive KEvent where
  | tick (frame : ℕ)
  | resume
  | create (info : ElfInfo) (name : List UInt8)
  | pageFault (faultAddr errorCode : ℕ)
  | call (c : Call)

/-- A waiting `process_wait4` records that it waits. -/
def wait4Call (k : Kernel) (pid : ℤ) (statusPtr : ℕ) : Kernel :=
  match processWait4 k pid statusPtr with
  | (some _, k) => k.setPos .user
  | (none, k) => k.setPos (.wait4 pid statusPtr)

/-- A file-system call of the running process. -/
def fileCall (k : Kernel) (r : Files × FdTable) : Kernel :=
  { k.setCurrent { k.current with fdTable := r.2 } with files := r.1 }

/-- A memory call of the running process. -/
def memCall (k : Kernel) (r : Mem × ProcVm) : Kernel :=
  { k.setCurrent { k.current with vm := r.2 } with mem := r.1 }

/-- The effect of a system call. -/
def doSyscall (k : Kernel) : Call → Kernel
  | .futexWait uaddr val word => (futexWait k uaddr val word).2
  | .futexWake uaddr count => { k with procs := (futexWake k.procs uaddr count).2 }
  | .nanosleep sec nsec => (sysNanosleep k sec nsec).2
  | .fork frame => (processFork k frame).2
  | .clone flags childStack ptid ctid newtls frame =>
    (processClone k flags childStack ptid ctid newtls frame).2
  | .execve path argv0 => (processExecve k path argv0).2
  | .exit code => processExit k code
  | .kill pid sig => (processKill k pid sig).2
  | .wait4 pid statusPtr => wait4Call k pid statusPtr
  | .setTidAddress addr => k.setCurrent { k.current with clearChildTid := addr }
  | .socket domain type protocol =>
    fileCall k (sysSocket k.files k.current.fdTable domain type protocol).2
  | .close fd => fileCall k (sysClose k.files k.current.fdTable fd).2
  | .shutdown fd => { k with files := (sysShutdown k.files k.current.fdTable fd).2 }
  | .mmap addr len prot flags => memCall k (sysMmap k.mem k.current.vm addr len prot flags).2
  | .munmap addr len => memCall k (sysMunmap k.mem k.current.vm addr len).2
  | .mprotect addr len prot => memCall k (sysMprotect k.mem k.current.vm addr len prot).2
  | .brk newBrk =>
    let r := sysBrk k.mem k.brk newBrk
    { k with mem := r.2.1, brk := r.2.2 }

/-- A waiting process that runs looks at the condition of its loop. -/
def resume (k : Kernel) : Kernel :=
  match k.pos k.currentProcIdx with
  | .user => k
  | .futexWait uaddr => if k.current.waitChannel = uaddr then k else k.setPos .user
  | .nanosleep => if 0 < k.current.sleepTicksRemaining then k else k.setPos .user
  | .wait4 pid statusPtr => wait4Call k pid statusPtr
  | .exited => k

/-- What `exception_handler` does with a page fault that is not resolved: the process ends,
or, if it is process 1, the machine stops. -/
def segfault (k : Kernel) : Kernel :=
  if 1 < k.current.pid then processExit k (-11) else { k with halted := true }

/-- `exception_handler` on a page fault of the running process. -/
def handleFault (k : Kernel) (faultAddr errorCode : ℕ) : Kernel :=
  let r := vmmHandlePageFault k.mem k.current.vm.vmas k.current.active faultAddr errorCode
  if r.1 = 0 then { k with mem := r.2 } else segfault { k with mem := r.2 }

/-- A step of the kernel.  Nothing happens once the machine has halted, and no system call or
page fault while the running process waits inside a call. -/
def kstep (k : Kernel) (e : KEvent) : Kernel :=
  if k.halted then k
  else match e with
    | .tick frame => (schedulerTick k frame).2
    | .resume => resume k
    | .create info name => (processCreateFromElf k info name).2
    | .pageFault faultAddr errorCode =>
      if k.pos k.currentProcIdx = .user then handleFault k faultAddr errorCode else k
    | .call c => if k.pos k.currentProcIdx = .user then doSyscall k c else k

/-- The state in which the first program starts. -/
def boot (mem : Mem) (files : Files) (ramdisk : RamdiskAt) (info : ElfInfo) (name : List UInt8) :
    Kernel :=
  processJumpToUser (processCreateFromElf (processInit mem files ramdisk) info name).2 0

/-- A kernel just booted, with empty memory and no files. -/
def freshKernel : Kernel :=
  boot (mmInit (fun _ => 0) fun _ => false)
    ⟨socketSubsystemInit (tcpInit 0 fun _ => true) fun _ => [], fun _ => 0⟩
    ⟨0, 0, false⟩ ⟨0x400000, 0x400000, 0x401000, []⟩ []

/-- Some frame of a system call. -/
def someFrame : ContextFrame := startFrame 0x400000 startRsp

end Bangos.Proc
