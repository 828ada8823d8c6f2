/-
  TokenScan.Reader.Free — readers that do what they like.

  Nothing is asked of the four things that a reader does: its index may stall or go back, and
  what it says about its end may be wrong. Only the index is a machine word, and so the
  greatest word bounds it.
-/

import TokenScan.Count
import TokenScan.Reader

namespace TokenScan

/-- What a reader says of its states, and where moving on takes them. -/
structure Behaviour (ρ : Type) where
  atEnd : ρ → Bool
  index : ρ → UInt64
  current : ρ → List Char
  advance : ρ → Except Fault Bool × ρ

/-- A reader that behaves so, with offsets that count units of `e`. -/
structure FreeReader {ρ : Type} (b : Behaviour ρ) (e : Encoding) where
  state : ρ

namespace FreeReader

variable {ρ : Type} {b : Behaviour ρ} {e : Encoding}

instance : Reader (FreeReader b e) e where
  atEnd r := b.atEnd r.state
  index r := (b.index r.state).toNat
  current r := b.current r.state
  advance r := ((b.advance r.state).1, ⟨(b.advance r.state).2⟩)
  bound _ := maxCount
  index_le_bound r := Nat.le_of_lt_succ (b.index r.state).toNat_lt
  bound_advance_le _ := Nat.le_refl _

end FreeReader

end TokenScan
