import Bangos.Process.Lifecycle

/-!
# The scheduler (`scheduler_tick` of `kernel/process/process.c`)
-/

namespace Bangos.Proc

open Bangos.Mm Bangos.Loader

/-- Step 1 of `scheduler_tick` for one process: its timer advances while it sleeps. -/
def countdown (p : Process) : Process :=
  if p.active ∧ p.state = .sleeping ∧ 0 < p.sleepTicksRemaining then
    { p with
      sleepTicksRemaining := p.sleepTicksRemaining - 1
      state := if p.sleepTicksRemaining = 1 ∧ p.waitChannel = 0 then .ready else .sleeping }
  else p

/-- Step 2: the frame of the running process is saved, and it is ready again. -/
def saveCurrent (p : Process) (frame : ℕ) : Process :=
  if p.active then
    { p with
      savedFrame := frame
      state := if p.state = .running then .ready else p.state }
  else p

/-- The process table after steps 1 and 2. -/
def tickTable (ps : ProcTable) (c : Fin maxProcesses) (frame : ℕ) : ProcTable :=
  let ps : ProcTable := fun i => countdown (ps i)
  Function.update ps c (saveCurrent (ps c) frame)

/-- The slots in round-robin order after `c`, ending with `c` itself. -/
def roundRobin (c : Fin maxProcesses) : List (Fin maxProcesses) :=
  (List.range maxProcesses).map fun i => Fin.ofNat maxProcesses (c.val + (i + 1))

/-- Step 3: the slot to run next. -/
def nextIdx (ps : ProcTable) (c : Fin maxProcesses) : Fin maxProcesses :=
  match (roundRobin c).find? fun i => (ps i).active && (ps i).state == .ready with
  | some i => i
  | none =>
    if (ps c).active ∧ ((ps c).state = .ready ∨ (ps c).state = .running) then c else 0

/-- The mappings of a process's recorded segments. -/
def mapSegments (m : Mem) (segments : List ElfSegment) : Mem :=
  segments.foldl (fun m s => mapUserPages m s.virtAddr s.physAddr s.numPages) m

/-- The mappings that a switch to a process restores: its segments, and its stack. -/
def remap (m : Mem) (p : Process) : Mem :=
  let m := mapSegments m p.segments
  if p.stackPhysBase ≠ 0 then mapUserPages m stackVirtBase p.stackPhysBase userStackPages else m

/-- The memory after a switch: a thread of the same group needs no new mappings. -/
def switchMem (m : Mem) (curr next : Process) : Mem :=
  if !next.isThread ∨ next.tgid ≠ curr.tgid then remap m next else m

/-- `scheduler_tick`, interrupting a context saved at `frame`: the frame to return to, and
the state. -/
def schedulerTick (k : Kernel) (frame : ℕ) : ℕ × Kernel :=
  if !k.schedulerEnabled then (frame, k)
  else
    let c := k.currentProcIdx
    let ps := tickTable k.procs c frame
    let next := nextIdx ps c
    let mem := if next ≠ c then switchMem k.mem (ps c) (ps next) else k.mem
    ((ps next).savedFrame,
      { k with
        procs := Function.update ps next { ps next with state := .running }
        currentProcIdx := next
        mem := mem
        tssRsp0 := (ps next).kstackTop
        kernelRspTemp := (ps next).kstackTop })

end Bangos.Proc
