/-
  TokenScan.Reader — forward-only cursors over a text, one character at a time.

  A reader says whether it is at the end, where it is (`index`), and what the current
  character is; `advance` moves past that character and says whether more text follows.
  `advanceRange` and `advanceWhile` consume one character, or a run of them, and answer with
  the range they consumed.

  Nothing is assumed about how well a reader behaves: whenever its index does not grow, both
  break off with the fault `stalled`. A reader has only to name a `bound` that its index
  never passes and that never grows, as the greatest machine word bounds any counter that is
  one. That bound is why `advanceWhile` ends, also over a reader that never reports an end.
-/

import TokenScan.Token

namespace TokenScan

/-- A cursor over a text whose places are counted in `e`. -/
class Reader (ρ : Type) (e : outParam Encoding) where
  /-- Whether the cursor is at the end of the text. -/
  atEnd : ρ → Bool
  /-- The offset of the current character. -/
  index : ρ → Nat
  /-- The current character; the empty text at the end. -/
  current : ρ → List Char
  /-- Moves past the current character; the answer says whether the cursor is still inside the text. -/
  advance : ρ → Except Fault Bool × ρ
  /-- A number that the index never passes. -/
  bound : ρ → Nat
  index_le_bound : ∀ r, index r ≤ bound r
  bound_advance_le : ∀ r, bound (advance r).2 ≤ bound r

namespace Reader

variable {ρ : Type} {e : Encoding} [Reader ρ e] {τ : Type}

/-- Consumes one character and answers with its range; none at the end. -/
def advanceRange (r : ρ) : Except Fault (Option Span) × ρ :=
  if atEnd r then (.ok none, r)
  else
    match advance r with
    | (.error fault, r') => (.error fault, r')
    | (.ok _, r') =>
      if index r < index r' then (.ok (some ⟨index r, index r'⟩), r')
      else (.error (.stalled e (index r)), r')

/-- The run that starts with the current character, whatever it is, and goes on as long as
    `extends?`, asked about each following character in turn, says so. Every step has to move
    the index, and that is checked before `extends?` is asked. -/
def scan (extends? : List Char → StateM τ Bool) (r : ρ) (t : τ) : Except Fault Unit × ρ × τ :=
  match _step : advance r with
  | (.error fault, r') => (.error fault, r', t)
  | (.ok inside, r') =>
    if index r < index r' then
      if inside then
        match extends? (current r') t with
        | (true, t') => scan extends? r' t'
        | (false, t') => (.ok (), r', t')
      else (.ok (), r', t)
    else (.error (.stalled e (index r)), r', t)
termination_by bound r - index r
decreasing_by
  have := bound_advance_le r
  rw [_step] at this
  have := index_le_bound r'
  simp only at *
  omega

def advanceWhile (extends? : List Char → StateM τ Bool) (r : ρ) (t : τ) : Except Fault (Option Span) × ρ × τ :=
  if atEnd r then (.ok none, r, t)
  else
    match scan extends? r t with
    | (.error fault, r', t') => (.error fault, r', t')
    | (.ok (), r', t') => (.ok (some ⟨index r, index r'⟩), r', t')

def advanceWhileIn (set : CharSet) (r : ρ) : Except Fault (Option Span) × ρ :=
  match advanceWhile (fun c => (pure (set.contains c) : StateM Unit Bool)) r () with
  | (answer, r', _) => (answer, r')

end Reader

end TokenScan
