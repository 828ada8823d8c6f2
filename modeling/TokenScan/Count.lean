/-
  TokenScan.Count — counts of items, which fit a machine word of 64 bits, and what is known
  beforehand about how many items a source still has.
-/

namespace TokenScan

def maxCount : Nat := 0xFFFFFFFFFFFFFFFF

/-- Bounds on how many items are left: at least `low`, and at most `high` if that is known. -/
structure SizeHint where
  low : Nat
  high : Option Nat
  deriving DecidableEq, Repr

namespace SizeHint

def unknown : SizeHint := ⟨0, none⟩

/-- The bounds once `n` items more are left. The lower one stays at the greatest count rather
    than pass it, and an upper one that passes it says nothing. -/
def more (hint : SizeHint) (n : Nat) : SizeHint where
  low := min (hint.low + n) maxCount
  high := hint.high.bind fun high => if high + n ≤ maxCount then some (high + n) else none

end SizeHint

class HasSizeHint (σ : Type) where
  sizeHint : σ → SizeHint

/-- How many items one open-ended scan may look at. -/
structure ScanLimits where
  items : Nat
  deriving DecidableEq, Repr

namespace ScanLimits

/-- The usual limit, which ends a scan for something that never comes. -/
def guarded : ScanLimits := ⟨10000⟩

def unbounded : ScanLimits := ⟨maxCount⟩

instance : Inhabited ScanLimits := ⟨guarded⟩

end ScanLimits

end TokenScan
