/-
  TokenScan.Reader.Text — readers over a text, by grapheme clusters or by scalars, with
  offsets in bytes or in UTF-16 code units.

  The reader keeps what is left of the text, how far it has come in bytes and in the units
  of its encoding, and how many scalars the current character has, so that moving on does
  not look at the text before it.
-/

import TokenScan.Reader
import TokenScan.Unicode.Cluster

namespace TokenScan

/-- Where a text is cut into characters: behind every cluster, or behind every scalar. -/
inductive Grain where
  | clusters (first : Unicode.FirstCluster)
  | scalar

namespace Grain

/-- User-perceived characters. -/
def cluster : Grain := clusters .standard

def unit : Grain → CharacterUnit
  | clusters _ => .cluster
  | scalar => .scalar

/-- How many scalars the first character of a text has; 0 for the empty text. -/
def firstLength : Grain → List Char → Nat
  | clusters first, text => first.length text
  | scalar, [] => 0
  | scalar, _ :: _ => 1

end Grain

/-- A cursor over the characters of `text`, which are of this grain, with offsets in `e`. -/
structure TextReader (grain : Grain) (e : Encoding) where
  text : List Char
  /-- The text from the current character on. -/
  rest : List Char
  /-- Bytes before the current character. -/
  byteOffset : Nat
  /-- Units of `e` before the current character. -/
  offset : Nat
  /-- How many scalars of `rest` are the current character. -/
  length : Nat
  deriving DecidableEq, Repr

namespace TextReader

variable {grain : Grain} {e : Encoding}

def ofText (text : List Char) : TextReader grain e := ⟨text, text, 0, 0, grain.firstLength text⟩

def atEnd (r : TextReader grain e) : Bool := r.rest.isEmpty

def current (r : TextReader grain e) : List Char := r.rest.take r.length

def currentChar? (r : TextReader grain e) : Option Char := r.rest.head?

def moved (r : TextReader grain e) : TextReader grain e where
  text := r.text
  rest := r.rest.drop r.length
  byteOffset := r.byteOffset + Encoding.utf8.size r.current
  offset := r.offset + e.size r.current
  length := grain.firstLength (r.rest.drop r.length)

def advance (r : TextReader grain e) : Except Fault Bool × TextReader grain e :=
  if r.length = 0 then (.error (.exhausted grain.unit e r.offset), r) else (.ok (!r.moved.atEnd), r.moved)

instance : Reader (TextReader grain e) e where
  atEnd := atEnd
  index := offset
  current := current
  advance := advance
  bound r := r.offset + e.size r.rest
  index_le_bound r := Nat.le_add_right _ _
  bound_advance_le r := by
    simp only [advance]
    split
    · exact Nat.le_refl _
    · have := e.size_take_add_size_drop r.length r.rest
      simp only [moved, current]
      omega

end TextReader

end TokenScan
