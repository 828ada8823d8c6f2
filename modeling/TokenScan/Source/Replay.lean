/-
  TokenScan.Source.Replay — a source that gives prepared answers in turn.

  An answer may be `none` with more answers behind it, so this source shows what the layers
  above make of one that goes on after it has said that there is nothing.
-/

import TokenScan.Source

namespace TokenScan

/-- A source that answers with the entries 0, 1, … `count - 1`. -/
structure Replay (α : Type) where
  entry : Nat → Option α
  count : Nat
  /-- Whether the entries start over once they have all been given. -/
  repeats : Bool
  /-- What the source says about how many items are left, whatever is the case. -/
  hint : SizeHint
  /-- How many entries have been given in this round. -/
  position : Nat

namespace Replay

variable {α : Type}

def next (r : Replay α) : Option α × Replay α :=
  let here := if r.repeats && r.count ≤ r.position then 0 else r.position
  if here < r.count then (r.entry here, { r with position := here + 1 }) else (none, { r with position := here })

instance {m : Type → Type} [Monad m] : Source m (Replay α) α where
  next := ScanT.ofStep fun r => (.ok r.next.1, r.next.2)

instance : HasSizeHint (Replay α) := ⟨hint⟩

end Replay

end TokenScan
