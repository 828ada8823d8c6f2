/-
  TokenScan.Token — tokens: a kind and the half-open range of the text that it covers.

  `Token.ofSpan` makes a token and refuses a range that covers nothing; all tokens that
  streams emit are made there. A token written down field by field may have any range.
-/

import TokenScan.Fault
import TokenScan.Kind

namespace TokenScan

/-- The offsets from `start` up to, not including, `stop`. -/
structure Span where
  start : Nat
  stop : Nat
  deriving DecidableEq, Repr

/-- A classified part of a text whose offsets are counted in `e`. -/
structure Token (e : Encoding) (κ : Type) extends Span where
  kind : κ
  deriving DecidableEq, Repr

namespace Token

variable {e : Encoding} {κ μ ν : Type}

/-- A token over the range, which has to cover something. -/
def ofSpan (kind : κ) (span : Span) : Except Fault (Token e κ) :=
  if span.start < span.stop then .ok { span with kind } else .error (.emptyToken e span.start span.stop)

def ofSpan? (kind : κ) : Option Span → Except Fault (Option (Token e κ))
  | none => .ok none
  | some span => some <$> ofSpan kind span

/-- A token from the start of `first` to the end of `last`; none if there is no `last`. -/
def spanning (kind : κ) (first : Token e μ) (last : Option (Token e ν)) : Except Fault (Option (Token e κ)) :=
  ofSpan? kind (last.map fun t => ⟨first.start, t.stop⟩)

def compareStart (a b : Token e κ) : Ordering := compare a.start b.start

/-- The tokens in the order of their starts; those that start together keep their order. -/
def sortByStart (tokens : List (Token e κ)) : List (Token e κ) :=
  tokens.mergeSort fun a b => (a.compareStart b).isLE

def slice? (t : Token e κ) (text : List Char) : Option (List Char) := e.slice? t.start t.stop text

def describe [KindName κ] (t : Token e κ) : String :=
  KindName.name t.kind ++ " " ++ e.describeRange t.start t.stop

def display [KindName κ] (t : Token e κ) : String := "<" ++ t.describe ++ ">"

end Token

end TokenScan
