/-
  TokenScan.Scan — computations that scan: they have a state, may break off with a `Fault`,
  and may report what they do.

  `ScanT m σ` is such a computation with state `σ` on top of `m`. A fault does not undo what
  was done before it: the state that it leaves behind is the state at the point of the fault.
  `ScanT.zoom` runs a computation on a part of a larger state.

  What is reported are `Event`s, through `MonadTrace`. Over `Id` they are dropped and a
  computation is a plain function of its state; over `Traced` they are kept in order.
-/

import TokenScan.Fault
import TokenScan.Kind

namespace TokenScan

/-! ## Events -/

inductive Event where
  /-- To look `distance` items ahead, `pulled` items were taken from the source, after which
      `buffered` items were waiting. -/
  | refill (distance pulled buffered : Nat)
  /-- A word token was made. -/
  | word (kind : WordKind) (e : Encoding) (start stop : Nat)
  deriving DecidableEq, Repr

class MonadTrace (m : Type → Type) where
  emit : Event → m Unit

def Traced (α : Type) : Type := StateM (Array Event) α

namespace Traced

instance : Monad Traced := inferInstanceAs (Monad (StateM (Array Event)))

instance : MonadTrace Traced := ⟨fun event => (modify (·.push event) : StateM (Array Event) Unit)⟩

def run {α : Type} (x : Traced α) : α × Array Event := StateT.run (m := Id) (x : StateM (Array Event) α) #[]

end Traced

instance : MonadTrace Id := ⟨fun _ => ()⟩

instance {m : Type → Type} {σ : Type} [Monad m] [MonadTrace m] : MonadTrace (StateT σ m) :=
  ⟨fun event => StateT.lift (MonadTrace.emit event)⟩

instance {m : Type → Type} {ε : Type} [Monad m] [MonadTrace m] : MonadTrace (ExceptT ε m) :=
  ⟨fun event => ExceptT.lift (MonadTrace.emit event)⟩

/-! ## Scans -/

/-- Computations on a state `σ` that may break off with a fault and keep the state when they do. -/
abbrev ScanT (m : Type → Type) (σ : Type) : Type → Type := ExceptT Fault (StateT σ m)

namespace ScanT

variable {m : Type → Type} [Monad m] {σ τ α : Type}

def ofStep (f : σ → Except Fault α × σ) : ScanT m σ α := fun s => pure (f s)

/-- A computation on the part of the state that `get` reads and `set` replaces. -/
@[inline] def zoom (get : τ → σ) (set : σ → τ → τ) (x : ScanT m σ α) : ScanT m τ α := fun t => do
  let (answer, s) ← x (get t)
  pure (answer, set s t)

end ScanT

end TokenScan
