/-
  TokenScan.CharSet — the three sets of scalars by which letters and digits are known.

  A character is a user-perceived one and may have several scalars: it is in a set when all
  of them are. The empty text is in no set.
-/

import TokenScan.Unicode.GeneralCategory

namespace TokenScan

/-- A set of scalars, given by general category. -/
inductive CharSet where
  | decimalDigits
  | lowercaseLetters
  | uppercaseLetters
  deriving DecidableEq, Repr

namespace CharSet

open Unicode

/-- The sets, in the order in which classification asks for them. -/
def all : List CharSet := [decimalDigits, lowercaseLetters, uppercaseLetters]

def name : CharSet → String
  | decimalDigits => "DecimalDigits"
  | lowercaseLetters => "LowercaseLetters"
  | uppercaseLetters => "UppercaseLetters"

def ofName? (s : String) : Option CharSet := all.find? (·.name == s)

def admits (set : CharSet) (category : GeneralCategory) : Bool :=
  match set with
  | decimalDigits => category == .decimalNumber
  | lowercaseLetters => category == .lowercaseLetter
  | uppercaseLetters =>
    match category with
    | .uppercaseLetter | .titlecaseLetter => true
    | _ => false

def containsChar (set : CharSet) (c : Char) : Bool := set.admits (.ofChar c)

def contains (set : CharSet) (text : List Char) : Bool := !text.isEmpty && text.all set.containsChar

end CharSet

end TokenScan
