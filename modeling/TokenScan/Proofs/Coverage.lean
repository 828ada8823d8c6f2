/-
  TokenScan.Proofs.Coverage — the tokens of characters cover a text, and each can be cut out of it.

  Cutting a text at the two ends of a part of it gives that part back (`Encoding.slice?_append`), so
  the slice of a token is the character that it was made of, and the slices put together are the
  text. The ends of tokens are always between two scalars of the text (`mem_boundaries_placed`), and
  the tokens of single scalars have an end at every such place (`mem_boundaries_scalars`): a reader
  of clusters stops nowhere that a reader of scalars does not. `CharStream.covers_text` puts this
  together for readers of either grain in either unit.
-/

import TokenScan.Proofs.Walk

namespace TokenScan

open Stream'.Seq (ofList)

variable {e : Encoding} {grain : Grain} {κ : Type} {text before : List Char} {characters : List (List Char)}

/-! ## Cutting a text -/

namespace Encoding

theorem splitAt?_size (before after : List Char) :
    e.splitAt? (e.size before) (before ++ after) = some (before, after) := by
  induction before with
  | nil => rw [size_nil, List.nil_append, splitAt?]
  | cons c before ih =>
    have hpos := e.width_pos c
    have whole : e.size (c :: before) = (e.width c + e.size before - 1) + 1 := by rw [size_cons]; omega
    have left : e.width c + e.size before - 1 + 1 - e.width c = e.size before := by omega
    rw [whole, List.cons_append, splitAt?, if_pos (by omega), left, ih]
    rfl

theorem slice?_append (before part after : List Char) :
    e.slice? (e.size before) (e.size before + e.size part) (before ++ (part ++ after)) = some part := by
  simp [slice?, splitAt?_size]

end Encoding

/-! ## Slices of tokens -/

/-- Cutting out the tokens of characters side by side gives these characters. -/
theorem slice?_placed (whole : text = before ++ characters.flatten) :
    ((e.placed (e.size before) characters).map (Piece.token e)).map (·.slice? text) = characters.map some := by
  induction characters generalizing before with
  | nil => rfl
  | cons c rest ih =>
    have further : text = (before ++ c) ++ rest.flatten := by simpa using whole
    have behind := ih further
    have here : e.slice? (e.size before) (e.size before + e.size c) text = some c := by
      rw [whole, List.flatten_cons]
      exact Encoding.slice?_append before c rest.flatten
    rw [Encoding.size_append] at behind
    rw [Encoding.placed, List.map_cons, List.map_cons, List.map_cons, behind]
    exact congrArg (· :: rest.map some) here

theorem kind_placed (start : Nat) (characters : List (List Char)) :
    ((e.placed start characters).map (Piece.token e)).map (·.kind) = characters.map classify := by
  induction characters generalizing start with
  | nil => rfl
  | cons c rest ih =>
    rw [Encoding.placed, List.map_cons, List.map_cons, List.map_cons, ih]
    rfl

/-! ## Where tokens end -/

/-- The offsets at which tokens start or stop. -/
def Token.boundaries (tokens : List (Token e κ)) : List Nat := tokens.flatMap fun t => [t.start, t.stop]

/-- The tokens of characters side by side start and stop between scalars of the text. -/
theorem mem_boundaries_placed (whole : text = before ++ characters.flatten) {n : Nat}
    (h : n ∈ Token.boundaries ((e.placed (e.size before) characters).map (Piece.token e))) :
    ∃ s t, text = s ++ t ∧ n = e.size s := by
  induction characters generalizing before with
  | nil => cases h
  | cons c rest ih =>
    have further : text = (before ++ c) ++ rest.flatten := by simpa using whole
    rw [Encoding.placed, List.map_cons, Token.boundaries, List.flatMap_cons, List.mem_append, ← Encoding.size_append] at h
    rcases h with here | behind
    · have ends : n = e.size before ∨ n = e.size (before ++ c) := by simpa [Piece.token] using here
      rcases ends with start | stop
      · exact ⟨before, _, whole, start⟩
      · exact ⟨before ++ c, _, further, stop⟩
    · exact ih further behind

theorem Grain.characters_scalar_cons (c : Char) (rest : List Char) :
    Grain.scalar.characters (c :: rest) = [c] :: Grain.scalar.characters rest :=
  Grain.characters_of_ne_nil (List.cons_ne_nil c rest)

/-- The tokens of single scalars have an end at every place between two scalars. -/
theorem mem_boundaries_scalars {s t : List Char} (hne : s ++ t ≠ []) (before : List Char) :
    e.size (before ++ s) ∈
      Token.boundaries ((e.placed (e.size before) (Grain.scalar.characters (s ++ t))).map (Piece.token e)) := by
  induction s generalizing before with
  | nil =>
    obtain ⟨c, rest, rfl⟩ := List.exists_cons_of_ne_nil hne
    rw [List.nil_append, Grain.characters_scalar_cons, List.append_nil]
    exact List.mem_cons_self
  | cons c s ih =>
    rw [List.cons_append, Grain.characters_scalar_cons, Encoding.placed, List.map_cons, Token.boundaries,
      List.flatMap_cons, List.mem_append, ← Encoding.size_append]
    by_cases last : s ++ t = []
    · left
      obtain ⟨rfl, -⟩ := List.append_eq_nil_iff.mp last
      exact List.mem_cons_of_mem _ List.mem_cons_self
    · right
      have behind := ih last (before ++ [c])
      rwa [List.append_assoc, List.singleton_append] at behind

theorem boundaries_subset_scalars (grain : Grain) (e : Encoding) (text : List Char) :
    Token.boundaries ((TextReader.pieces grain e text).map (Piece.token e)) ⊆
      Token.boundaries ((TextReader.pieces .scalar e text).map (Piece.token e)) := by
  intro n mem
  have whole : text = [] ++ (grain.characters text).flatten := (grain.flatten_characters text).symm
  obtain ⟨s, t, rfl, rfl⟩ := mem_boundaries_placed whole mem
  have hne : s ++ t ≠ [] := by
    intro empty
    rw [TextReader.pieces, empty, Grain.characters_nil] at mem
    cases mem
  exact mem_boundaries_scalars hne []

/-! ## The whole text -/

/-- Over every text, a stream of characters yields tokens that tile the text, and then no more. Each
    token can be cut out of the text; the slices put together are the text, and the kind of each
    token is the class of its slice. Tokens of single scalars have all the boundaries that these
    have. -/
theorem CharStream.covers_text (grain : Grain) (e : Encoding) (text : List Char) :
    let tokens := (TextReader.pieces grain e text).map (Piece.token e)
    let scalars := (TextReader.pieces .scalar e text).map (Piece.token e)
    let slices := grain.characters text
    Source.Yields (⟨TextReader.ofText text⟩ : CharStream (TextReader grain e)) (ofList tokens) ∧
      Tiles 0 (e.size text) tokens ∧
      (tokens.map (·.slice? text) = slices.map some ∧ slices.flatten = text ∧
        tokens.map (·.kind) = slices.map classify) ∧
      Source.Yields (⟨TextReader.ofText text⟩ : CharStream (TextReader .scalar e)) (ofList scalars) ∧
      Token.boundaries tokens ⊆ Token.boundaries scalars := by
  have whole : text = [] ++ (grain.characters text).flatten := (grain.flatten_characters text).symm
  refine ⟨TextReader.yields_characters grain e text, TextReader.tiles grain e text,
    ⟨slice?_placed whole, whole.symm, ?_⟩, TextReader.yields_characters .scalar e text,
    boundaries_subset_scalars grain e text⟩
  exact kind_placed 0 (grain.characters text)

end TokenScan
