/-
  TokenScan.Word — grouping characters into words, numbers, white space and symbols.

  The first character decides what a group is, and its kind decides which characters it goes
  on with. A group is as long as it can be, except that a scan limit cuts it.
-/

import TokenScan.Buffer
import TokenScan.Reader.Text

namespace TokenScan

/-! ## The rule -/

namespace CharKind

/-- What words go on with. -/
def wordCharacters : List CharKind := [lowercaseLetter, uppercaseLetter, mark .underscore, digit]

def whitespace : List CharKind := [mark .newline, mark .tab, mark .space]

/-- What symbols do not go on with. -/
def symbolTerminators : List CharKind :=
  [mark .newline, mark .tab, mark .space, lowercaseLetter, uppercaseLetter, mark .underscore, digit]

end CharKind

variable {m : Type → Type} [Monad m] {e : Encoding}

namespace WordKind

/-- The kind of the group that a character starts: a letter or an underscore starts a word. -/
def ofFirst : CharKind → WordKind
  | .member .lowercaseLetters | .member .uppercaseLetters | .mark .underscore => word
  | .member .decimalDigits => number
  | kind => if kind.isWhitespace then whitespace else symbol

/-- Consumes what a group of this kind goes on with and answers with the last of it. -/
def continues (kind : WordKind) (chars : Lookahead m (Token e CharKind)) : m (Option (Token e CharKind)) :=
  match kind with
  | word => chars.nextUntilNotIn CharKind.wordCharacters
  | number => chars.nextUntil fun c => pure (c.kind != .digit)
  | whitespace => chars.nextUntilNotIn CharKind.whitespace
  | symbol => chars.nextUntilIn CharKind.symbolTerminators

end WordKind

/-- Consumes the group that starts with the next character and answers with its token. A scan
    limit of 0 takes that character alone. -/
def nextWord [MonadExceptOf Fault m] [MonadTrace m] (chars : Lookahead m (Token e CharKind)) :
    m (Option (Token e WordKind)) := do
  match ← chars.peek with
  | none => return none
  | some first =>
    let kind := WordKind.ofFirst first.kind
    let last ←
      match ← kind.continues chars with
      | some last => pure (some last)
      | none => chars.next
    match Token.spanning kind first last with
    | .error fault => throw fault
    | .ok none => return none
    | .ok (some token) =>
      MonadTrace.emit (.word token.kind e token.start token.stop)
      return some token

/-! ## Streams of words -/

/-- Words over the characters of a buffer that the stream owns. -/
structure WordStream (σ : Type) (e : Encoding) where
  chars : Buffer σ (Token e CharKind)

namespace WordStream

variable {σ : Type}

def ofReader {ρ : Type} (reader : ρ) : WordStream (CharStream ρ) e := ⟨.ofSource ⟨reader⟩⟩

def isAtEnd {ρ : Type} [ReadsFrom σ ρ] [Reader ρ e] (s : WordStream σ e) : Bool := s.chars.isAtEnd

instance [MonadTrace m] [Source m σ (Token e CharKind)] : Source m (WordStream σ e) (Token e WordKind) where
  next := ScanT.zoom chars (fun chars s => { s with chars }) (nextWord Buffer.lookahead)

instance : HasSizeHint (WordStream σ e) := ⟨fun _ => .unknown⟩

end WordStream

/-- The words of a text, to be looked ahead at, with offsets in bytes. -/
def words (text : List Char) :
    Buffer (WordStream (CharStream (TextReader .cluster .utf8)) .utf8) (Token .utf8 WordKind) :=
  .ofSource (.ofReader (TextReader.ofText text))

end TokenScan
