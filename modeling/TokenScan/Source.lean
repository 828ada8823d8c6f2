/-
  TokenScan.Source — producers of items, one at a time.

  `next` answers `none` when there is no item now. Nothing says that there never will be one
  again: a source that has answered `none` once may go on later.
-/

import TokenScan.Count
import TokenScan.Scan

namespace TokenScan

class Source (m : Type → Type) (σ : Type) (α : outParam Type) where
  next : ScanT m σ (Option α)

namespace Source

variable {m : Type → Type} [Monad m] {σ α : Type} [Source m σ α]

/-- At most `n` items behind `items`, stopping early at the first `none` or fault: all of them,
    how it ended, and the state it left. -/
@[specialize] def takeFrom (items : Array α) (s : σ) : Nat → m (Array α × Except Fault Unit × σ)
  | 0 => pure (items, .ok (), s)
  | n + 1 => do
    match ← (next : ScanT m σ (Option α)) s with
    | (.ok (some item), s) => takeFrom (items.push item) s n
    | (.ok none, s) => pure (items, .ok (), s)
    | (.error fault, s) => pure (items, .error fault, s)

@[inline] def take (s : σ) (n : Nat) : m (Array α × Except Fault Unit × σ) := takeFrom #[] s n

end Source

end TokenScan
