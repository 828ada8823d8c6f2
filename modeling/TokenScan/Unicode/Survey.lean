/-
  TokenScan.Unicode.Survey — a property of scalars over an interval of code points, told as
  the runs of neighbours that share a value.
-/

namespace TokenScan.Unicode

/-- Code points from `first` to `last` that share a value. -/
structure Stretch (β : Type) where
  first : Nat
  last : Nat
  value : β
  deriving DecidableEq, Repr

/-- The stretches with code point `n` added behind them: as part of the last one, if that ends
    just before it and has its value. Numbers that are no scalar are left out, and so end a stretch. -/
def Stretch.extend {β : Type} [DecidableEq β] (value : Char → β) (stretches : Array (Stretch β)) (n : Nat) :
    Array (Stretch β) :=
  if n.isValidChar then
    let v := value (Char.ofNat n)
    match stretches.back? with
    | some s =>
      if s.last + 1 = n ∧ s.value = v then stretches.pop.push { s with last := n }
      else stretches.push ⟨n, n, v⟩
    | none => #[⟨n, n, v⟩]
  else stretches

def surveyFrom {β : Type} [DecidableEq β] (value : Char → β) (stretches : Array (Stretch β)) (n : Nat) :
    (count : Nat) → Array (Stretch β)
  | 0 => stretches
  | count + 1 => surveyFrom value (Stretch.extend value stretches n) (n + 1) count

/-- The stretches of equal value among the scalars from `first` to `last`. -/
def survey {β : Type} [DecidableEq β] (value : Char → β) (first last : Nat) : Array (Stretch β) :=
  surveyFrom value #[] first (min last 0x10FFFF + 1 - first)

end TokenScan.Unicode
