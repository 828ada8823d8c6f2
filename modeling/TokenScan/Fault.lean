/-
  TokenScan.Fault — the ways in which scanning can break off, and what is said about them.

  A fault is never an answer about the text: it reports a caller's mistake (an empty token,
  a look past the end, a buffer in use) or a reader that does not move forward.
-/

import TokenScan.Encoding

namespace TokenScan

/-- What one character of a text is: a user-perceived one, or a single scalar. -/
inductive CharacterUnit where
  | cluster
  | scalar
  deriving DecidableEq, Repr

def CharacterUnit.readerName (unit : CharacterUnit) (e : Encoding) : String :=
  match unit, e with
  | cluster, .utf8 => "StrReader"
  | cluster, .utf16 => "Utf16Reader"
  | scalar, .utf8 => "ScalarReader"
  | scalar, .utf16 => "Utf16ScalarReader"

inductive Fault where
  /-- A token was to cover no text. -/
  | emptyToken (e : Encoding) (start stop : Nat)
  /-- A reader advanced and its index, `offset` before, did not grow. -/
  | stalled (e : Encoding) (offset : Nat)
  /-- A reader was told to advance at the end of its text. -/
  | exhausted (unit : CharacterUnit) (e : Encoding) (offset : Nat)
  /-- A buffer was to change while someone reads it. -/
  | beingRead
  /-- A handle was used that is not there any more. -/
  | deadHandle (handle : Nat)
  deriving DecidableEq, Repr

def Fault.message : Fault → String
  | emptyToken e start stop => "empty token range " ++ e.describeRange start stop
  | stalled e offset => "reader failed to advance past " ++ e.describeOffset offset
  | exhausted unit e offset => s!"{unit.readerName e} failed to advance at {e.unitName} {offset}"
  | beingRead => "buffer is being read"
  | deadHandle handle => s!"no handle {handle}"

end TokenScan
