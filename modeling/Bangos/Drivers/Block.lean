import Bangos.Lib.ByteMem

/-!
# Block devices (`kernel/drivers/block.h`)

A device holds bytes and answers requests for whole sectors.  It may fail a request after some
of its sectors have been transferred; which requests it fails is part of its state, as the
stream of the outcomes to come.
-/

namespace Bangos.Drivers

open ByteMem

/-- `block_dev_t` with the disk behind it. -/
structure BlockDev where
  bytes : ℕ → UInt8
  totalSectors : ℕ
  sectorSize : ℕ
  /-- The coming requests: `none` for one that succeeds, `some s` for one that fails when `s`
  sectors have been transferred. -/
  outcomes : ℕ → Option ℕ

/-- The device after it has answered a request. -/
def BlockDev.answered (d : BlockDev) : BlockDev :=
  { d with outcomes := fun n => d.outcomes (n + 1) }

/-- Whether a request succeeds, and how many sectors are transferred. -/
def BlockDev.transfer (d : BlockDev) (lba count : ℕ) : Bool × ℕ :=
  if count = 0 ∨ d.totalSectors < lba + count then (false, 0)
  else match d.outcomes 0 with
    | none => (true, count)
    | some s => (false, min s count)

/-- `dev->read_blocks`: whether it succeeds, the buffer, and the device. -/
def readBlocks (d : BlockDev) (lba count : ℕ) (buffer : ℕ → UInt8) :
    Bool × (ℕ → UInt8) × BlockDev :=
  let t := d.transfer lba count
  (t.1, copy buffer 0 d.bytes (lba * d.sectorSize) (t.2 * d.sectorSize), d.answered)

/-- `dev->write_blocks`: whether it succeeds, and the device. -/
def writeBlocks (d : BlockDev) (lba count : ℕ) (buffer : ℕ → UInt8) : Bool × BlockDev :=
  let t := d.transfer lba count
  (t.1, { d.answered with
    bytes := copy d.bytes (lba * d.sectorSize) buffer 0 (t.2 * d.sectorSize) })

end Bangos.Drivers
