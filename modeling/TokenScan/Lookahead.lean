/-
  TokenScan.Lookahead — taking items one by one with a view of those still to come.

  A `Lookahead` is given by three operations: `next` consumes an item, `peekAt d` shows the
  `d`-th item from here without consuming any (`peekAt 1` is what `next` would answer), and
  `scanLimit` bounds open-ended scans. All else is made of these. A predicate is itself a
  computation: it may count its calls, and it may look at the very items it decides about.

  A scan looks at no more items than its limit, and reaching the limit is like reaching the
  end of the input.
-/

import TokenScan.Count
import TokenScan.Token

namespace TokenScan

class Kinded (α : Type) (κ : outParam Type) where
  kindOf : α → κ

instance {e : Encoding} {κ : Type} : Kinded (Token e κ) κ := ⟨Token.kind⟩

/-- How to take items of type `α`, and to look at them beforehand. -/
structure Lookahead (m : Type → Type) (α : Type) where
  /-- Consumes an item. -/
  next : m (Option α)
  /-- Shows the item at this distance; at distance 0, the first one that waits already, if any. -/
  peekAt : Nat → m (Option α)
  /-- How many items an open-ended scan may look at. -/
  scanLimit : m Nat

namespace Lookahead

variable {m : Type → Type} {α κ : Type}

def lift {n : Type → Type} [MonadLiftT m n] (l : Lookahead m α) : Lookahead n α :=
  ⟨liftM l.next, fun d => liftM (l.peekAt d), liftM l.scanLimit⟩

variable [Monad m]

def peek (l : Lookahead m α) : m (Option α) := l.peekAt 1

/-- Consumes items until there is none, or `n` of them; they come behind `items`. -/
@[specialize] def collectFrom (l : Lookahead m α) (items : Array α) : Nat → m (Array α)
  | 0 => pure items
  | n + 1 => do
    match ← l.next with
    | none => pure items
    | some item => collectFrom l (items.push item) n

def collect (l : Lookahead m α) (n : Nat) : m (Array α) := l.collectFrom #[] n

/-! ## Looking ahead -/

/-- Whether the predicate holds for one of the `limit` items from this distance on. -/
@[specialize] def peekUntilFrom (l : Lookahead m α) (p : α → m Bool) (distance : Nat) : (limit : Nat) → m Bool
  | 0 => pure false
  | limit + 1 => do
    match ← l.peekAt distance with
    | none => pure false
    | some item => if ← p item then pure true else peekUntilFrom l p (distance + 1) limit

/-- Whether the predicate holds for one of the next `limit` items. Nothing is consumed. -/
def peekUntilWithin (l : Lookahead m α) (p : α → m Bool) (limit : Nat) : m Bool := l.peekUntilFrom p 1 limit

def peekUntil (l : Lookahead m α) (p : α → m Bool) : m Bool := do l.peekUntilWithin p (← l.scanLimit)

/-! ## Consuming -/

def nextIf (l : Lookahead m α) (p : α → m Bool) : m (Option α) := do
  match ← l.peek with
  | none => pure none
  | some item => if ← p item then l.next else pure none

/-- Consumes items until the predicate holds for the next one, or `limit` of them; answers with
    the last one consumed, or with `last` if none was. -/
@[specialize] def nextUntilFrom (l : Lookahead m α) (p : α → m Bool) (last : Option α) :
    (limit : Nat) → m (Option α)
  | 0 => pure last
  | limit + 1 => do
    match ← l.peek with
    | none => pure last
    | some item => if ← p item then pure last else nextUntilFrom l p (← l.next) limit

/-- Consumes at most `limit` items, until the predicate holds for the next one, which stays;
    answers with the last one consumed. -/
def nextUntilWithin (l : Lookahead m α) (p : α → m Bool) (limit : Nat) : m (Option α) :=
  l.nextUntilFrom p none limit

def nextUntil (l : Lookahead m α) (p : α → m Bool) : m (Option α) := do l.nextUntilWithin p (← l.scanLimit)

def skipIf (l : Lookahead m α) (p : α → m Bool) : m Bool := Option.isSome <$> l.nextIf p

def skipUntilWithin (l : Lookahead m α) (p : α → m Bool) (limit : Nat) : m Bool :=
  Option.isSome <$> l.nextUntilWithin p limit

def skipUntil (l : Lookahead m α) (p : α → m Bool) : m Bool := Option.isSome <$> l.nextUntil p

/-! ## By kind -/

variable [Kinded α κ] [DecidableEq κ]

def nextIfKind (l : Lookahead m α) (kind : κ) : m (Option α) :=
  l.nextIf fun item => pure (Kinded.kindOf item == kind)

def nextUntilIn (l : Lookahead m α) (kinds : List κ) : m (Option α) :=
  l.nextUntil fun item => pure (kinds.contains (Kinded.kindOf item))

def nextUntilNotIn (l : Lookahead m α) (kinds : List κ) : m (Option α) :=
  l.nextUntil fun item => pure (!kinds.contains (Kinded.kindOf item))

def skipUntilIn (l : Lookahead m α) (kinds : List κ) : m Bool := Option.isSome <$> l.nextUntilIn kinds

def skipUntilNotIn (l : Lookahead m α) (kinds : List κ) : m Bool := Option.isSome <$> l.nextUntilNotIn kinds

end Lookahead

end TokenScan
