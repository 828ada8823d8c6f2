/-
  TokenScan.Unicode.Cluster — extended grapheme clusters: where a text may be cut without
  taking a user-perceived character apart.

  `joins before next` decides one boundary. `before` holds the scalars left of it, nearest
  first, and `next` is the scalar right of it; the rules are tried in order and the first
  that fits decides. `clusterLength` reads the first cluster of a text and gives the rules
  the scalars of that cluster only, so a text can be cut piece by piece.

  What cuts a text has only to know how long its first cluster is, by these rules or by
  those of another edition (`FirstCluster`).
-/

import TokenScan.Unicode.GraphemeBreak

namespace TokenScan.Unicode

open GraphemeBreak

/-! ## Rules for one boundary -/

namespace GraphemeBreak.BreakClass

/-- Classes that stand alone: there is a boundary on both sides, except between CR and LF. -/
def isControl : BreakClass → Bool
  | cr | lf | control => true
  | _ => false

/-- Pairs that go on with a Hangul syllable. -/
def joinsSyllable : BreakClass → BreakClass → Bool
  | hangulL, hangulL | hangulL, hangulV | hangulL, hangulLV | hangulL, hangulLVT => true
  | hangulLV, hangulV | hangulLV, hangulT | hangulV, hangulV | hangulV, hangulT => true
  | hangulLVT, hangulT | hangulT, hangulT => true
  | _, _ => false

def attaches : BreakClass → Bool
  | extend | zwj | spacingMark => true
  | _ => false

end GraphemeBreak.BreakClass

/-- Whether a text, read from its end, is a conjunct consonant followed by marks of a conjunct,
    a linker among them; `linked` says that a linker has been read already. -/
def endsInLinkedConsonant (linked : Bool) : List Char → Bool
  | [] => false
  | c :: earlier =>
    if isConjunctLinker c then endsInLinkedConsonant true earlier
    else if isConjunctExtend c then endsInLinkedConsonant linked earlier
    else linked && isConjunctConsonant c

/-- Whether a text, read from its end, is a pictograph followed by scalars of class Extend. -/
def endsInPictograph : List Char → Bool
  | [] => false
  | c :: earlier =>
    match breakClass c with
    | .extend => endsInPictograph earlier
    | .pictographic => true
    | _ => false

/-- How many regional indicators stand in a row at the end of a text that is read from its end. -/
def trailingIndicators (before : List Char) : Nat :=
  (before.takeWhile (breakClass · == .regionalIndicator)).length

/-- Whether `next` belongs to the cluster that the scalar at the head of `before` belongs to. -/
def joins (before : List Char) (next : Char) : Bool :=
  match before with
  | [] => false
  | last :: earlier =>
    let left := breakClass last
    let right := breakClass next
    if left == .cr && right == .lf then true
    else if left.isControl || right.isControl then false
    else if left.joinsSyllable right then true
    else if right.attaches || left == .prepend then true
    else if isConjunctConsonant next then endsInLinkedConsonant false before
    else if left == .zwj && right == .pictographic then endsInPictograph earlier
    else if left == .regionalIndicator && right == .regionalIndicator then trailingIndicators before % 2 == 1
    else false

/-! ## The first cluster of a text -/

section

variable (joins : List Char → Char → Bool)

/-- The length of the cluster of which `length` scalars, nearest first in `before`, have been
    read and which may go on with `rest`. -/
@[specialize] def clusterLengthFrom (before : List Char) (length : Nat) : List Char → Nat
  | [] => length
  | c :: rest => if joins before c then clusterLengthFrom (c :: before) (length + 1) rest else length

@[specialize] def clusterLength : List Char → Nat
  | [] => 0
  | c :: rest => clusterLengthFrom joins [c] 1 rest

variable {joins}

theorem le_clusterLengthFrom (before rest : List Char) (length : Nat) :
    length ≤ clusterLengthFrom joins before length rest := by
  induction rest generalizing before length with
  | nil => simp [clusterLengthFrom]
  | cons c rest ih =>
    simp only [clusterLengthFrom]
    split
    · exact Nat.le_trans (Nat.le_succ length) (ih _ _)
    · exact Nat.le_refl length

theorem clusterLengthFrom_le (before rest : List Char) (length : Nat) :
    clusterLengthFrom joins before length rest ≤ length + rest.length := by
  induction rest generalizing before length with
  | nil => simp [clusterLengthFrom]
  | cons c rest ih =>
    simp only [clusterLengthFrom, List.length_cons]
    split
    · have := ih (c :: before) (length + 1); omega
    · omega

theorem clusterLength_pos (c : Char) (rest : List Char) : 0 < clusterLength joins (c :: rest) :=
  le_clusterLengthFrom [c] rest 1

theorem clusterLength_le (text : List Char) : clusterLength joins text ≤ text.length := by
  cases text with
  | nil => simp [clusterLength]
  | cons c rest =>
    have := @clusterLengthFrom_le joins [c] rest 1
    simp only [clusterLength, List.length_cons]
    omega

end

/-- How many scalars the first cluster of a text has, by whatever rules: it is not empty if the text is not, and it
    lies within the text. -/
structure FirstCluster where
  length : List Char → Nat
  length_pos : ∀ c rest, 0 < length (c :: rest)
  length_le : ∀ text, length text ≤ text.length

namespace FirstCluster

def ofJoins (joins : List Char → Char → Bool) : FirstCluster := ⟨clusterLength joins, clusterLength_pos, clusterLength_le⟩

def standard : FirstCluster := ofJoins joins

end FirstCluster

end TokenScan.Unicode
