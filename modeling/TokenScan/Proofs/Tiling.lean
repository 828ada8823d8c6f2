/-
  TokenScan.Proofs.Tiling — tokens side by side, and one token in the place of several.

  Tokens tile a range of offsets if they cover it in order, with no gap between two of them
  and no overlap (`Tiles`). `Token.cover` puts one token in the place of each block of a
  list of blocks; what the blocks tile, the tokens over them tile too (`Tiles.cover`).
-/

import TokenScan.Token

namespace TokenScan

variable {e u : Encoding} {κ μ ν : Type}

/-- The tokens cover the offsets from the first number up to the second: each covers something, and
    each starts where the one before it stops. -/
inductive Tiles : Nat → Nat → List (Token e κ) → Prop
  | done (n : Nat) : Tiles n n []
  | token {a b : Nat} {t : Token e κ} {l : List (Token e κ)} :
      t.start = a → a < t.stop → Tiles t.stop b l → Tiles a b (t :: l)

namespace Token

/-- One token over the whole block, of the kind that its first token gives. -/
def covering (kind : μ → κ) : List (Token e μ) → Option (Token e κ)
  | [] => none
  | first :: more => some ⟨⟨first.start, (more.getLast?.getD first).stop⟩, kind first.kind⟩

def cover (kind : μ → κ) (blocks : List (List (Token e μ))) : List (Token e κ) := blocks.filterMap (covering kind)

@[simp] theorem cover_nil (kind : μ → κ) : cover (e := e) kind [] = [] := rfl

@[simp] theorem cover_cons (kind : μ → κ) (first : Token e μ) (more : List (Token e μ)) (blocks : List (List (Token e μ))) :
    cover kind ((first :: more) :: blocks) =
      ⟨⟨first.start, (more.getLast?.getD first).stop⟩, kind first.kind⟩ :: cover kind blocks := rfl

def mapOffsets (f : Nat → Nat) (t : Token e κ) : Token u κ := ⟨⟨f t.start, f t.stop⟩, t.kind⟩

theorem covering_mapOffsets (kind : μ → κ) (f : Nat → Nat) (block : List (Token e μ)) :
    covering kind (block.map (mapOffsets f : Token e μ → Token u μ)) = (covering kind block).map (mapOffsets f) := by
  cases block with
  | nil => rfl
  | cons first more =>
    rw [List.map_cons, covering, List.getLast?_map, Option.getD_map]
    rfl

/-- It is the same to put one token in the place of a block before or after its offsets change. -/
theorem cover_mapOffsets (kind : μ → κ) (f : Nat → Nat) (blocks : List (List (Token e μ))) :
    cover kind (blocks.map (List.map (mapOffsets f : Token e μ → Token u μ))) = (cover kind blocks).map (mapOffsets f) := by
  rw [cover, cover, List.filterMap_map, List.map_filterMap]
  exact congrArg (List.filterMap · blocks) (funext (covering_mapOffsets kind f))

theorem spanning_of_lt (kind : κ) {first : Token e μ} {last : Token e ν} (covers : first.start < last.stop) :
    spanning kind first (some last) = .ok (some (⟨⟨first.start, last.stop⟩, kind⟩ : Token e κ)) := by
  simp only [spanning, Option.map_some, ofSpan?, ofSpan, if_pos covers]
  rfl

end Token

namespace Tiles

variable {a b : Nat} {t : Token e μ} {l r : List (Token e μ)}

theorem split (h : Tiles a b (l ++ r)) : ∃ n, Tiles a n l ∧ Tiles n b r := by
  induction l generalizing a with
  | nil => exact ⟨a, .done a, h⟩
  | cons t l ih =>
    cases h with
    | token start hlt rest =>
      obtain ⟨n, left, right⟩ := ih rest
      exact ⟨n, .token start hlt left, right⟩

theorem append {n : Nat} (h : Tiles a n l) (h' : Tiles n b r) : Tiles a b (l ++ r) := by
  induction h with
  | done _ => exact h'
  | token start hlt _ ih => exact .token start hlt (ih h')

theorem le (h : Tiles a b l) : a ≤ b := by
  induction h with
  | done n => exact Nat.le_refl n
  | token _ hlt _ ih => exact Nat.le_trans (Nat.le_of_lt hlt) ih

theorem head_lt (h : Tiles a b (t :: l)) : t.start < t.stop := by
  cases h with
  | token start hlt _ =>
    rw [start]
    exact hlt

theorem stop_unique {n : Nat} (h : Tiles a b l) (h' : Tiles a n l) : b = n := by
  induction h with
  | done a =>
    cases h'
    rfl
  | token _ _ _ ih =>
    cases h' with
    | token _ _ rest => exact ih rest

/-- Tokens still tile if their offsets change so that each covers something. -/
theorem mapOffsets {f : Nat → Nat} (h : Tiles a b l) (covers : ∀ t ∈ l, t.start < t.stop → f t.start < f t.stop) :
    Tiles (f a) (f b) (l.map (Token.mapOffsets f : Token e μ → Token u μ)) := by
  induction h with
  | done a => exact .done (f a)
  | @token a _ t _ start hlt _ ih =>
    obtain ⟨here, behind⟩ := List.forall_mem_cons.mp covers
    rw [start] at here
    exact .token (congrArg f start) (here hlt) (ih behind)

/-- The first token starts where all of them do, and the last one stops where all of them do. -/
theorem ends (h : Tiles a b (t :: l)) : t.start = a ∧ (l.getLast?.getD t).stop = b ∧ a < b := by
  induction l generalizing a t with
  | nil =>
    cases h with
    | token start hlt rest =>
      cases rest
      exact ⟨start, rfl, hlt⟩
  | cons u l ih =>
    cases h with
    | token start hlt rest =>
      obtain ⟨-, stop, -⟩ := ih rest
      refine ⟨start, ?_, Nat.lt_of_lt_of_le hlt rest.le⟩
      rw [List.getLast?_cons]
      exact stop

/-- Tokens over blocks tile what the tokens in the blocks tile. -/
theorem cover (kind : μ → κ) {blocks : List (List (Token e μ))} (h : Tiles a b blocks.flatten) :
    Tiles a b (Token.cover kind blocks) := by
  induction blocks generalizing a with
  | nil =>
    cases h
    exact .done _
  | cons block blocks ih =>
    obtain ⟨n, here, behind⟩ := split h
    cases block with
    | nil =>
      cases here
      exact ih behind
    | cons first more =>
      obtain ⟨rfl, rfl, hlt⟩ := ends here
      exact .token rfl hlt (ih behind)

end Tiles

end TokenScan
