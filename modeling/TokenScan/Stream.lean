/-
  TokenScan.Stream — sources of tokens over a reader: one token per character
  (`CharStream`), or one token per maximal run of letters of one case or of digits and one
  per character for the rest (`RunStream`).
-/

import TokenScan.Reader
import TokenScan.Source

namespace TokenScan

class ReadsFrom (σ : Type) (ρ : outParam Type) where
  reader : σ → ρ

/-- One token per character. -/
structure CharStream (ρ : Type) where
  reader : ρ
  deriving DecidableEq, Repr

/-- One token per run of letters or digits of one set, and per other character. -/
structure RunStream (ρ : Type) where
  reader : ρ
  deriving DecidableEq, Repr

variable {ρ : Type} {e : Encoding} [Reader ρ e]

namespace CharStream

def next (s : CharStream ρ) : Except Fault (Option (Token e CharKind)) × CharStream ρ :=
  if Reader.atEnd s.reader then (.ok none, s)
  else
    let kind := classify (Reader.current s.reader)
    match Reader.advanceRange s.reader with
    | (.error fault, r) => (.error fault, ⟨r⟩)
    | (.ok span?, r) => (Token.ofSpan? kind span?, ⟨r⟩)

instance {m : Type → Type} [Monad m] : Source m (CharStream ρ) (Token e CharKind) := ⟨ScanT.ofStep next⟩

instance : ReadsFrom (CharStream ρ) ρ := ⟨reader⟩

instance : HasSizeHint (CharStream ρ) := ⟨fun _ => .unknown⟩

end CharStream

namespace RunStream

/-- Consumes the run that a character of the given kind starts: one of the kind's set, or
    just that character. -/
def advance (kind : CharKind) (r : ρ) : Except Fault (Option Span) × ρ :=
  match kind with
  | .member set => Reader.advanceWhileIn set r
  | .mark _ | .other => Reader.advanceRange r

def next (s : RunStream ρ) : Except Fault (Option (Token e RunKind)) × RunStream ρ :=
  if Reader.atEnd s.reader then (.ok none, s)
  else
    let kind := classify (Reader.current s.reader)
    match advance kind s.reader with
    | (.error fault, r) => (.error fault, ⟨r⟩)
    | (.ok span?, r) => (Token.ofSpan? kind.toRun span?, ⟨r⟩)

instance {m : Type → Type} [Monad m] : Source m (RunStream ρ) (Token e RunKind) := ⟨ScanT.ofStep next⟩

instance : ReadsFrom (RunStream ρ) ρ := ⟨reader⟩

instance : HasSizeHint (RunStream ρ) := ⟨fun _ => .unknown⟩

end RunStream

end TokenScan
