/-
  TokenScan.Reader.Listed — a reader that has its characters and its offsets from a list,
  whatever they are: a character may be empty, and an offset need not grow.
-/

import TokenScan.Reader

namespace TokenScan

/-- A cursor over listed characters. -/
structure ListedReader (e : Encoding) where
  /-- The offset of the current character. -/
  offset : Nat
  /-- The characters from the current one on, each with the offset behind it. -/
  rest : List (List Char × Nat)
  deriving DecidableEq, Repr

namespace ListedReader

variable {e : Encoding}

def advance (r : ListedReader e) : Except Fault Bool × ListedReader e :=
  match r.rest with
  | [] => (.ok false, r)
  | (_, offset) :: rest => (.ok (!rest.isEmpty), ⟨offset, rest⟩)

def greatest (r : ListedReader e) : Nat := (r.rest.map (·.2)).foldr max r.offset

theorem greatest_advance_le (r : ListedReader e) : r.advance.2.greatest ≤ r.greatest := by
  obtain ⟨offset, rest⟩ := r
  cases rest with
  | nil => exact Nat.le_refl _
  | cons entry rest =>
    have grow (a b : Nat) (l : List Nat) : l.foldr max a ≤ max a (l.foldr max b) := by
      induction l with
      | nil => simp only [List.foldr_nil]; omega
      | cons x l ih => simp only [List.foldr_cons]; omega
    have := grow entry.2 offset (rest.map (·.2))
    simpa [advance, greatest] using this

instance : Reader (ListedReader e) e where
  atEnd r := r.rest.isEmpty
  index := offset
  current r := (r.rest.head?.map (·.1)).getD []
  advance := advance
  bound := greatest
  index_le_bound r := by
    obtain ⟨offset, rest⟩ := r
    simp only [greatest]
    induction rest with
    | nil => exact Nat.le_refl _
    | cons entry rest ih => simp only [List.map_cons, List.foldr_cons]; omega
  bound_advance_le := greatest_advance_le

end ListedReader

end TokenScan
