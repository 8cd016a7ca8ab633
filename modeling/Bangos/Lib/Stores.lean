import Bangos.Lib.ByteMem

/-!
# Stores to the blocks of a disk

A disk is a function from block numbers to blocks.  A store puts the first bytes of a buffer into
a block, as many as the device has accepted.
-/

namespace ByteMem

/-- The first `len` bytes of a buffer go to a block. -/
structure Store where
  block : ℕ
  len : ℕ
  bytes : ℕ → UInt8

/-- The disk after a list of stores. -/
def applyStores : List Store → (ℕ → ℕ → UInt8) → ℕ → ℕ → UInt8
  | [], d => d
  | s :: l, d => applyStores l (Function.update d s.block (copy (d s.block) 0 s.bytes 0 s.len))

variable {d : ℕ → ℕ → UInt8} {s : Store} {n : ℕ}

lemma applyStores_one_self (s : Store) (d : ℕ → ℕ → UInt8) :
    applyStores [s] d s.block = copy (d s.block) 0 s.bytes 0 s.len :=
  Function.update_self ..

lemma applyStores_one_of_ne (h : n ≠ s.block) : applyStores [s] d n = d n :=
  Function.update_of_ne h ..

end ByteMem
