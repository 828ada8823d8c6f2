/-
  TokenScan.Buffer — a source with a queue of items that were looked at before their time.

  Looking ahead pulls items from the source into the queue; consuming takes from the queue
  first, so items are consumed in the order in which the source produced them. A buffer is a
  value: a copy goes its own way. It is a source again, so buffers can stand on buffers.
-/

import TokenScan.Lookahead
import TokenScan.Queue
import TokenScan.Stream

namespace TokenScan

/-- A source and what has been pulled from it and not been consumed. -/
structure Buffer (σ α : Type) where
  source : σ
  pending : Queue α
  limits : ScanLimits

namespace Buffer

variable {m : Type → Type} [Monad m] {σ α : Type}

def ofSource (source : σ) : Buffer σ α := ⟨source, ∅, .guarded⟩

def withLimits (b : Buffer σ α) (limits : ScanLimits) : Buffer σ α := { b with limits }

def buffered (b : Buffer σ α) : Nat := b.pending.size

def parts (b : Buffer σ α) : σ × List α := (b.source, b.pending.toList)

def isAtEnd {ρ : Type} {e : Encoding} [ReadsFrom σ ρ] [Reader ρ e] (b : Buffer σ α) : Bool :=
  b.pending.isEmpty && Reader.atEnd (ReadsFrom.reader b.source)

/-! ## Consuming and looking ahead -/

/-- The source's next item, whatever waits in the queue. -/
@[inline] def pull [Source m σ α] : ScanT m (Buffer σ α) (Option α) :=
  ScanT.zoom source (fun source b => { b with source }) Source.next

def next [Source m σ α] : ScanT m (Buffer σ α) (Option α) := fun b =>
  match b.pending.pop? with
  | some (item, pending) => pure (.ok (some item), { b with pending })
  | none => pull b

/-- Pulls `missing` items into the queue, or fewer if the source has none; answers with how
    many came, on top of `pulled`. -/
@[specialize] def refill [Source m σ α] (pulled : Nat) : (missing : Nat) → ScanT m (Buffer σ α) Nat
  | 0 => pure pulled
  | missing + 1 => do
    match ← pull with
    | none => pure pulled
    | some item =>
      modify fun b => { b with pending := b.pending.push item }
      refill (pulled + 1) missing

/-- The item at this distance, 1 being the next; the queue is refilled as far as that takes.
    At distance 0, the item that waits longest, and nothing is pulled. -/
def peekAt [Source m σ α] [MonadTrace m] : Nat → ScanT m (Buffer σ α) (Option α)
  | 0 => do return (← get).pending.get? 0
  | distance + 1 => do
    let pulled ← refill 0 (distance + 1 - (← get).buffered)
    if 0 < pulled then MonadTrace.emit (.refill (distance + 1) pulled (← get).buffered)
    return (← get).pending.get? distance

def lookahead [Source m σ α] [MonadTrace m] : Lookahead (ScanT m (Buffer σ α)) α :=
  ⟨next, peekAt, do return (← get).limits.items⟩

instance [Source m σ α] : Source m (Buffer σ α) α := ⟨next⟩

instance [HasSizeHint σ] : HasSizeHint (Buffer σ α) :=
  ⟨fun b => (HasSizeHint.sizeHint b.source).more b.buffered⟩

end Buffer

end TokenScan
