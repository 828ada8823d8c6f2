/-
  TokenScan.Kind — what a token can be: one character (`CharKind`), a run of letters or
  digits of one set (`RunKind`), or a word-like group (`WordKind`).

  `classify` sorts a character into its kind: first the table of marks (white space, quotes,
  brackets, punctuation), then the three sets of letters and digits, and what is left is
  `other`. Every text has a kind, the empty one too. A run kind is a character kind in which
  the name of the set stands for a whole run (`CharKind.toRun`).
-/

import TokenScan.CharSet

namespace TokenScan

class KindName (κ : Type) where
  name : κ → String

/-! ## Marks -/

/-- The kinds of character that are told by the character itself. -/
inductive Mark where
  | tab | space | newline
  | singleQuote | doubleQuote | backtick
  | openBrace | closeBrace | openBracket | closeBracket | openParen | closeParen
  | lessThan | greaterThan
  | tilde | exclamation | question | atSign | percent | caret | ampersand | dollar | star | slash
  | pound | pipe | backslash | dash | plus | equals | period | comma | colon | semicolon | underscore
  deriving DecidableEq, Repr

namespace Mark

def all : List Mark :=
  [tab, space, newline, singleQuote, doubleQuote, backtick, openBrace, closeBrace, openBracket, closeBracket,
   openParen, closeParen, lessThan, greaterThan, tilde, exclamation, question, atSign, percent, caret, ampersand,
   dollar, star, slash, pound, pipe, backslash, dash, plus, equals, period, comma, colon, semicolon, underscore]

def name : Mark → String
  | tab => "Tab"
  | space => "Space"
  | newline => "Newline"
  | singleQuote => "SingleQuote"
  | doubleQuote => "DoubleQuote"
  | backtick => "Backtick"
  | openBrace => "OpenBrace"
  | closeBrace => "CloseBrace"
  | openBracket => "OpenBracket"
  | closeBracket => "CloseBracket"
  | openParen => "OpenParen"
  | closeParen => "CloseParen"
  | lessThan => "LessThan"
  | greaterThan => "GreaterThan"
  | tilde => "Tilde"
  | exclamation => "Exclamation"
  | question => "Question"
  | atSign => "At"
  | percent => "Percent"
  | caret => "Caret"
  | ampersand => "Ampersand"
  | dollar => "Dollar"
  | star => "Star"
  | slash => "Slash"
  | pound => "Pound"
  | pipe => "Pipe"
  | backslash => "Backslash"
  | dash => "Dash"
  | plus => "Plus"
  | equals => "Equals"
  | period => "Period"
  | comma => "Comma"
  | colon => "Colon"
  | semicolon => "Semicolon"
  | underscore => "Underscore"

def ofChar? (c : Char) : Option Mark :=
  match c with
  | '\t' => some tab
  | '\n' | '\r' => some newline
  | ' ' => some space
  | '\x27' => some singleQuote
  | '\x22' => some doubleQuote
  | '\x60' => some backtick
  | '\x7b' => some openBrace
  | '\x7d' => some closeBrace
  | '[' => some openBracket
  | ']' => some closeBracket
  | '(' => some openParen
  | ')' => some closeParen
  | '<' => some lessThan
  | '>' => some greaterThan
  | '~' => some tilde
  | '!' => some exclamation
  | '?' => some question
  | '@' => some atSign
  | '%' => some percent
  | '^' => some caret
  | '&' => some ampersand
  | '$' => some dollar
  | '*' => some star
  | '/' => some slash
  | '#' => some pound
  | '|' => some pipe
  | '\x5c' => some backslash
  | '-' => some dash
  | '+' => some plus
  | '=' => some equals
  | '.' => some period
  | ',' => some comma
  | '_' => some underscore
  | ';' => some semicolon
  | ':' => some colon
  | _ => none

/-- The mark that a character is: a single scalar of the table, or CR and LF together. -/
def ofCharacter? (character : List Char) : Option Mark :=
  if character = ['\r', '\n'] then some newline
  else
    match character with
    | [c] => ofChar? c
    | _ => none

end Mark

/-! ## Kinds of one character -/

inductive CharKind where
  | mark (m : Mark)
  | member (set : CharSet)
  | other
  deriving DecidableEq, Repr

namespace CharKind

abbrev digit : CharKind := member .decimalDigits
abbrev lowercaseLetter : CharKind := member .lowercaseLetters
abbrev uppercaseLetter : CharKind := member .uppercaseLetters

def name : CharKind → String
  | mark m => m.name
  | member .decimalDigits => "Digit"
  | member .lowercaseLetters => "LowercaseLetter"
  | member .uppercaseLetters => "UppercaseLetter"
  | other => "OtherCharacter"

def all : List CharKind := other :: CharSet.all.map member ++ Mark.all.map mark

def ofName? (s : String) : Option CharKind := all.find? (·.name == s)

instance : KindName CharKind := ⟨name⟩

def isWhitespace : CharKind → Bool
  | mark .tab | mark .space | mark .newline => true
  | _ => false

def isLetter : CharKind → Bool
  | member .lowercaseLetters | member .uppercaseLetters => true
  | _ => false

end CharKind

/-- The kind of a character, or of any text taken as one. -/
def classify (character : List Char) : CharKind :=
  match Mark.ofCharacter? character with
  | some m => .mark m
  | none =>
    match CharSet.all.find? (·.contains character) with
    | some set => .member set
    | none => .other

def classifyChar (c : Char) : CharKind := classify [c]

/-! ## Kinds of runs -/

/-- What a token of a run stream is: one mark, a run of one set, or one other character. -/
inductive RunKind where
  | mark (m : Mark)
  | run (set : CharSet)
  | other
  deriving DecidableEq, Repr

namespace RunKind

def name : RunKind → String
  | mark m => m.name
  | run .decimalDigits => "NumberRun"
  | run .lowercaseLetters => "LowercaseRun"
  | run .uppercaseLetters => "UppercaseRun"
  | other => "OtherCharacter"

def all : List RunKind := other :: CharSet.all.map run ++ Mark.all.map mark

def ofName? (s : String) : Option RunKind := all.find? (·.name == s)

instance : KindName RunKind := ⟨name⟩

end RunKind

def CharKind.toRun : CharKind → RunKind
  | mark m => .mark m
  | member set => .run set
  | other => .other

/-! ## Kinds of word-like groups -/

inductive WordKind where
  | word
  | number
  | symbol
  | whitespace
  deriving DecidableEq, Repr

namespace WordKind

def name : WordKind → String
  | word => "Word"
  | number => "Number"
  | symbol => "Symbol"
  | whitespace => "Whitespace"

def all : List WordKind := [word, number, symbol, whitespace]

def ofName? (s : String) : Option WordKind := all.find? (·.name == s)

instance : KindName WordKind := ⟨name⟩

end WordKind

end TokenScan
