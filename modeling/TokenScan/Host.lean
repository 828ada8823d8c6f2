/-
  TokenScan.Host — ranges as a host counts them, which edits text by UTF-16 code units.

  An offset that comes from a host may be past the end of the text or inside a surrogate
  pair; `Encoding.ofHostOffset` finds the place it means or says what is wrong with it. The
  other way (`Encoding.toHostOffset`) there is nothing to go wrong.
-/

import TokenScan.Token

namespace TokenScan

inductive HostRangeError where
  | reversed (start stop : Nat)
  | outOfBounds (offset length : Nat)
  | splitsSurrogatePair (offset : Nat)
  deriving DecidableEq, Repr

def HostRangeError.message : HostRangeError → String
  | reversed start stop => s!"host range {start}..{stop} is reversed"
  | outOfBounds offset length => s!"host offset {offset} is past the end of the text ({length} code units)"
  | splitsSurrogatePair offset => s!"host offset {offset} falls inside a surrogate pair"

namespace Encoding

/-- The byte at which the code unit `offset` starts, given that `rest` starts `units` code units
    and `bytes` bytes after the start of the text. -/
def byteOfUnit (offset units bytes : Nat) (rest : List Char) : Except HostRangeError Nat :=
  if units = offset then .ok bytes
  else if offset < units then .error (.splitsSurrogatePair offset)
  else
    match rest with
    | [] => .error (.outOfBounds offset units)
    | c :: rest => byteOfUnit offset (units + utf16.width c) (bytes + utf8.width c) rest

def ofHostOffset (e : Encoding) (text : List Char) (offset : Nat) : Except HostRangeError Nat :=
  match e with
  | utf8 => byteOfUnit offset 0 0 text
  | utf16 => (byteOfUnit offset 0 0 text).map fun _ => offset

/-- The code units of the scalars of `rest` that start before the byte `offset`, on top of
    `units`, given that `rest` starts at `bytes`. -/
def unitsBefore (offset bytes units : Nat) : List Char → Nat
  | [] => units
  | c :: rest =>
    if bytes < offset then unitsBefore offset (bytes + utf8.width c) (units + utf16.width c) rest else units

def toHostOffset (e : Encoding) (text : List Char) (offset : Nat) : Nat :=
  match e with
  | utf8 => unitsBefore offset 0 0 text
  | utf16 => offset

def tryNativeRange (e : Encoding) (text : List Char) (host : Span) : Except HostRangeError Span := do
  if host.stop < host.start then throw (.reversed host.start host.stop)
  let start ← e.ofHostOffset text host.start
  let stop ← e.ofHostOffset text host.stop
  return ⟨start, stop⟩

def nativeRange? (e : Encoding) (text : List Char) (host : Span) : Option Span :=
  (e.tryNativeRange text host).toOption

end Encoding

namespace Token

variable {e : Encoding} {κ : Type}

/-- A token over a host's range; none if the range means nothing, or nothing is in it. -/
def ofHostRange? (kind : κ) (host : Span) (text : List Char) : Except Fault (Option (Token e κ)) :=
  ofSpan? kind ((e.nativeRange? text host).filter fun span => span.start < span.stop)

def hostRange (t : Token e κ) (text : List Char) : Span :=
  ⟨e.toHostOffset text t.start, e.toHostOffset text t.stop⟩

end Token

end TokenScan
