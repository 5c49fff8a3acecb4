import QueryHost.Assoc
import QueryHost.Memory.Accounts

/-!
# A heap under a hook

Blocks that the allocator has given out, each under a name, beside the accounts that its hooks keep.
-/

namespace QueryHost

structure Heap where
  accounts : Accounts := {}
  /-- The size of each block. -/
  blocks : Assoc String Nat := {}
  deriving DecidableEq, Repr

namespace Heap

def update (h : Heap) (f : Accounts → Accounts) : Heap := { h with accounts := f h.accounts }

/-- Gives a block back; says whether it was given out. -/
def free (h : Heap) (block : String) : Heap × Bool :=
  match h.blocks.get? block with
  | none => (h, false)
  | some size => ({ accounts := h.accounts.onFree size, blocks := h.blocks.erase block }, true)

/-- Gives out a block. One that had the name before is given back after that. -/
def allocate (h : Heap) (block : String) (size : Nat) : Heap :=
  let freed := ((h.update (·.onAllocate size)).free block).1
  { freed with blocks := freed.blocks.put block size }

/-- Gives a block another size; says whether it was given out. -/
def reallocate (h : Heap) (block : String) (size : Nat) : Heap × Bool :=
  match h.free block with
  | (_, false) => (h, false)
  | (freed, true) =>
    ({ accounts := freed.accounts.onAllocate size, blocks := freed.blocks.put block size }, true)

end Heap

end QueryHost
