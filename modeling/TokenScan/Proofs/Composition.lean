/-
  TokenScan.Proofs.Composition — a text can be read in parts, cut wherever a token starts or stops.

  A way to cut a list into blocks `Restarts` if it can be done part by part: what stands in front of
  a cut is cut as if nothing came behind it, and what comes behind as if nothing stood in front.
  That is so if each block is found from the front and depends only on what is in it and on the item
  behind it (`Restarts.of_first`). Clusters are such blocks, since whether one goes on is decided by
  its own scalars and the next one (`Grain.ofJoins_local`), and so are runs and groups of characters.

  A `Grouping` is how a stream puts characters together: one by one, in runs, or in words. The tokens
  of a text under any grouping fall apart with the text (`Grouping.tokens_append`). So cutting a text
  at a boundary and reading the two parts gives the tokens of the whole, and reading the slice that
  some neighbouring tokens cover gives just these tokens (`streams_compose`).
-/

import TokenScan.Proofs.Coverage
import TokenScan.Proofs.Groups
import TokenScan.Proofs.Runs

namespace TokenScan

open Stream'.Seq (ofList)

variable {α κ : Type} {e : Encoding} {grain : Grain}

/-! ## Cutting part by part -/

/-- Lists can be cut into these blocks part by part. -/
structure Restarts (cut : List α → List (List α)) : Prop where
  whole : ∀ l, (cut l).flatten = l
  /-- Between any two blocks, each part has the blocks that it has in the whole. -/
  parts : ∀ l front behind, cut l = front ++ behind → cut front.flatten = front ∧ cut behind.flatten = behind

/-- So it is if each block is its first item and those behind it that go with it, and these are the
    same ones, whatever comes behind them. -/
theorem Restarts.of_first {cut : List α → List (List α)} (more : α → List α → List α) (nil : cut [] = [])
    (cons : ∀ a l, cut (a :: l) = (a :: more a l) :: cut (l.drop (more a l).length))
    (front : ∀ a l, more a l <+: l)
    (stable : ∀ a s t, (more a (s ++ t)).length ≤ s.length → more a s = more a (s ++ t)) : Restarts cut := by
  have together (a : α) (l : List α) : more a l ++ l.drop (more a l).length = l :=
    List.prefix_iff_eq_append.mp (front a l)
  have whole (l : List α) : (cut l).flatten = l := by
    induction h : l.length using Nat.strong_induction_on generalizing l with
    | _ n ih =>
      cases l with
      | nil => rw [nil]; rfl
      | cons a l =>
        have shorter : (l.drop (more a l).length).length < n := by
          rw [← h, List.length_drop, List.length_cons]
          omega
        rw [cons, List.flatten_cons, ih _ shorter _ rfl, List.cons_append, together]
  refine ⟨whole, fun l blocks behind => ?_⟩
  induction blocks generalizing l with
  | nil =>
    intro h
    rw [List.nil_append] at h
    refine ⟨nil, ?_⟩
    rw [← h, whole, h]
  | cons block blocks ih =>
    intro h
    cases l with
    | nil => rw [nil] at h; cases h
    | cons a l =>
      rw [cons, List.cons_append, List.cons.injEq] at h
      obtain ⟨rfl, h⟩ := h
      obtain ⟨here, there⟩ := ih _ h
      refine ⟨?_, there⟩
      -- what follows the block in front of the cut, and then behind it
      have rest : l = (more a l ++ blocks.flatten) ++ behind.flatten := by
        have := whole (l.drop (more a l).length)
        rw [h, List.flatten_append] at this
        rw [List.append_assoc, this, together]
      have same : more a (more a l ++ blocks.flatten) = more a l := by
        have := stable a (more a l ++ blocks.flatten) behind.flatten
        rw [← rest, List.length_append] at this
        exact this (by omega)
      rw [List.flatten_cons, List.cons_append, cons, same, List.drop_left, here]

theorem takeWhile_of_append {p : α → Bool} {s t : List α} (h : ((s ++ t).takeWhile p).length ≤ s.length) :
    s.takeWhile p = (s ++ t).takeWhile p := by
  rw [List.takeWhile_append] at h ⊢
  split
  case isTrue all =>
    rw [if_pos all, List.length_append] at h
    have hnil : t.takeWhile p = [] := List.eq_nil_of_length_eq_zero (by omega)
    rw [hnil, List.append_nil]
    exact (List.takeWhile_prefix p).eq_of_length all
  case isFalse => rfl

/-! ## Characters -/

/-- Whether a cluster goes on is decided by what is in it and by the next scalar. -/
theorem Unicode.clusterLengthFrom_append {joins : List Char → Char → Bool} {before s t : List Char} {length : Nat}
    (h : clusterLengthFrom joins before length (s ++ t) ≤ length + s.length) :
    clusterLengthFrom joins before length s = clusterLengthFrom joins before length (s ++ t) := by
  induction s generalizing before length with
  | nil =>
    have := @le_clusterLengthFrom joins before t length
    rw [List.nil_append, List.length_nil] at *
    rw [clusterLengthFrom]
    omega
  | cons c s ih =>
    rw [List.cons_append, clusterLengthFrom, clusterLengthFrom] at *
    split
    case isTrue goes =>
      rw [if_pos goes, List.length_cons] at h
      exact ih (by omega)
    case isFalse => rfl

namespace Grain

/-- Where the first character of a text ends is decided by its scalars and the next one. -/
def Local (grain : Grain) : Prop :=
  ∀ s t : List Char, s ≠ [] → grain.firstLength (s ++ t) ≤ s.length → grain.firstLength s = grain.firstLength (s ++ t)

theorem scalar_local : Local scalar := by
  intro s _ hs _
  obtain ⟨c, s, rfl⟩ := List.exists_cons_of_ne_nil hs
  rfl

theorem ofJoins_local (joins : List Char → Char → Bool) : Local (clusters (.ofJoins joins)) := by
  intro s t hs h
  obtain ⟨c, s, rfl⟩ := List.exists_cons_of_ne_nil hs
  refine Unicode.clusterLengthFrom_append (Nat.le_trans h ?_)
  rw [List.length_cons, Nat.add_comm]

/-- The characters of a text are those of its parts, if it is cut between two of them. -/
theorem Local.restarts (hl : grain.Local) : Restarts grain.characters := by
  have length (c : Char) (rest : List Char) :
      (rest.take (grain.firstLength (c :: rest) - 1)).length + 1 = grain.firstLength (c :: rest) := by
    have := grain.firstLength_pos (List.cons_ne_nil c rest)
    have := grain.firstLength_le (c :: rest)
    rw [List.length_take]
    rw [List.length_cons] at this
    omega
  refine Restarts.of_first (fun c rest => rest.take (grain.firstLength (c :: rest) - 1)) (characters_nil grain) ?_
    (fun c rest => List.take_prefix _ rest) ?_
  · intro c rest
    have := length c rest
    rw [characters_of_ne_nil (List.cons_ne_nil c rest), ← this, List.take_succ_cons, List.drop_succ_cons]
    simp
  · intro c s t h
    have whole := length c (s ++ t)
    have same : grain.firstLength (c :: s) = grain.firstLength (c :: (s ++ t)) := by
      refine hl _ _ (List.cons_ne_nil c s) ?_
      rw [List.cons_append, List.length_cons]
      omega
    rw [same, List.take_append_of_le_length]
    omega

end Grain

namespace Encoding

theorem placed_add (n start : Nat) (characters : List (List Char)) :
    (e.placed (n + start) characters).map (Piece.token e) =
      ((e.placed start characters).map (Piece.token e)).map (Token.mapOffsets (n + ·)) := by
  induction characters generalizing start with
  | nil => rfl
  | cons c rest ih =>
    have behind := ih (start + e.size c)
    rw [← Nat.add_assoc] at behind
    rw [placed, placed, List.map_cons, List.map_cons, List.map_cons, behind, Nat.add_assoc]
    rfl

theorem placed_eq_append {start : Nat} {characters : List (List Char)} {l r : List (Token e CharKind)}
    (h : (e.placed start characters).map (Piece.token e) = l ++ r) :
    ∃ front behind, characters = front ++ behind ∧ l = (e.placed start front).map (Piece.token e) ∧
      r = (e.placed (start + e.size front.flatten) behind).map (Piece.token e) := by
  induction l generalizing start characters with
  | nil => exact ⟨[], characters, rfl, rfl, h.symm⟩
  | cons t l ih =>
    cases characters with
    | nil => cases h
    | cons c rest =>
      rw [placed, List.map_cons, List.cons_append, List.cons.injEq] at h
      obtain ⟨rfl, h⟩ := h
      obtain ⟨front, behind, rfl, rfl, rfl⟩ := ih h
      refine ⟨c :: front, behind, rfl, rfl, ?_⟩
      rw [List.flatten_cons, size_append, Nat.add_assoc]

end Encoding

/-! ## Putting characters together -/

theorem groupedWith_of_append {limit : Nat} {first : Token e CharKind} {s t : List (Token e CharKind)}
    (h : (groupedWith limit first (s ++ t)).length ≤ s.length) :
    groupedWith limit first s = groupedWith limit first (s ++ t) := by
  have short : (groupedWith limit first (s ++ t)).length ≤ max 1 limit - 1 :=
    Nat.le_trans (List.takeWhile_prefix _).length_le (List.length_take_le _ _)
  rw [groupedWith, groupedWith, List.take_append] at *
  refine takeWhile_of_append ?_
  rw [List.length_take]
  exact Nat.le_min.mpr ⟨short, h⟩

/-- How the tokens of characters are put together to tokens of a stream. -/
structure Grouping (e : Encoding) (κ : Type) where
  blocks : List (Token e CharKind) → List (List (Token e CharKind))
  /-- The kind of a block that starts with a character of this kind. -/
  kind : CharKind → κ
  restarts : Restarts blocks
  /-- It does not matter where the tokens are. -/
  blocks_mapOffsets : ∀ (f : Nat → Nat) (tokens : List (Token e CharKind)),
    blocks (tokens.map (Token.mapOffsets f)) = (blocks tokens).map (List.map (Token.mapOffsets f))

namespace Grouping

def characters : Grouping e CharKind where
  blocks tokens := tokens.map ([·])
  kind := id
  restarts := Restarts.of_first (fun _ _ => []) rfl (fun _ _ => rfl) (fun _ l => List.nil_prefix) fun _ _ _ _ => rfl
  blocks_mapOffsets f tokens := by simp

def runs : Grouping e RunKind where
  blocks := RunStream.blocks
  kind := CharKind.toRun
  restarts := by
    refine Restarts.of_first (fun first rest => rest.takeWhile (first.kind.joins ·.kind)) rfl (fun first rest => ?_)
      (fun _ _ => List.takeWhile_prefix _) fun _ _ _ => takeWhile_of_append
    rw [RunStream.blocks_cons, drop_length_takeWhile]
  blocks_mapOffsets := RunStream.blocks_mapOffsets

def words (limit : Nat) : Grouping e WordKind where
  blocks := groups limit
  kind := CharKind.groupKind
  restarts := by
    refine Restarts.of_first (groupedWith limit) (by rw [groups]) (groups_cons limit)
      (fun _ _ => (List.takeWhile_prefix _).trans (List.take_prefix _ _)) fun _ _ _ => groupedWith_of_append
  blocks_mapOffsets f tokens := groups_mapOffsets limit f tokens

variable (g : Grouping e κ)

def tokens (grain : Grain) (text : List Char) : List (Token e κ) :=
  Token.cover g.kind (g.blocks ((TextReader.pieces grain e text).map (Piece.token e)))

theorem characters_tokens (grain : Grain) (text : List Char) :
    characters.tokens grain text = (TextReader.pieces grain e text).map (Piece.token e) := by
  rw [tokens, Token.cover, characters, List.filterMap_map]
  exact List.filterMap_some

theorem tiles (grain : Grain) (text : List Char) : Tiles 0 (e.size text) (g.tokens grain text) := by
  refine Tiles.cover g.kind ?_
  rw [g.restarts.whole]
  exact TextReader.tiles grain e text

/-- If the tokens of a text fall into two parts, so does the text, and they are the tokens of its parts. -/
theorem tokens_append (hl : grain.Local) {text : List Char} {l r : List (Token e κ)} (h : g.tokens grain text = l ++ r) :
    ∃ s t, text = s ++ t ∧ l = g.tokens grain s ∧ r = (g.tokens grain t).map (Token.mapOffsets (e.size s + ·)) := by
  obtain ⟨front, behind, cut, rfl, rfl⟩ := List.filterMap_eq_append_iff.mp h
  obtain ⟨front_alone, behind_alone⟩ := g.restarts.parts _ _ _ cut
  have whole := g.restarts.whole ((TextReader.pieces grain e text).map (Piece.token e))
  rw [cut, List.flatten_append] at whole
  obtain ⟨before, after, parted, front_eq, behind_eq⟩ := Encoding.placed_eq_append whole.symm
  obtain ⟨before_alone, after_alone⟩ := hl.restarts.parts _ _ _ parted
  have text_eq := grain.flatten_characters text
  rw [parted, List.flatten_append] at text_eq
  refine ⟨before.flatten, after.flatten, text_eq.symm, ?_, ?_⟩
  · rw [tokens, TextReader.pieces, before_alone, ← front_eq, front_alone]
    rfl
  · have shifted := Encoding.placed_add (e := e) (e.size before.flatten) 0 after
    rw [Nat.add_zero, ← Nat.zero_add (e.size before.flatten), ← behind_eq, Nat.zero_add] at shifted
    rw [tokens, TextReader.pieces, after_alone, ← Token.cover_mapOffsets, ← g.blocks_mapOffsets, ← shifted, behind_alone]
    rfl

/-- Where neighbouring tokens stand, there is a part of the text whose tokens they are. -/
theorem block_stands (hl : grain.Local) {text : List Char} {l r more : List (Token e κ)} {first : Token e κ}
    (h : g.tokens grain text = l ++ (first :: more ++ r)) :
    ∃ s part t, text = s ++ (part ++ t) ∧ first.start = e.size s ∧
      (more.getLast?.getD first).stop = e.size s + e.size part ∧
      first :: more = (g.tokens grain part).map (Token.mapOffsets (e.size s + ·)) := by
  obtain ⟨s, u, rfl, -, shifted⟩ := g.tokens_append hl h
  obtain ⟨m, n, parted, block, -⟩ := List.append_eq_map_iff.mp shifted
  obtain ⟨part, t, rfl, rfl, -⟩ := g.tokens_append hl parted
  have tiled := (g.tiles grain part).mapOffsets (u := e) (f := (e.size s + ·))
    fun _ _ covers => Nat.add_lt_add_left covers (e.size s)
  rw [block] at tiled
  obtain ⟨start, stop, -⟩ := tiled.ends
  exact ⟨s, part, t, rfl, start, stop, block.symm⟩

end Grouping

/-! ## Reading in parts -/

theorem Tiles.append_of_mem_boundaries {a b n : Nat} {tokens : List (Token e κ)} (h : Tiles a b tokens)
    (mem : n ∈ Token.boundaries tokens) : ∃ front behind, tokens = front ++ behind ∧ Tiles a n front := by
  obtain ⟨t, mem, ends⟩ := List.mem_flatMap.mp mem
  obtain ⟨front, behind, rfl⟩ := List.append_of_mem mem
  obtain ⟨m, tiled, rest⟩ := h.split
  cases rest with
  | token start hlt rest =>
    rcases List.mem_pair.mp ends with rfl | rfl
    · refine ⟨front, t :: behind, rfl, ?_⟩
      rw [start]
      exact tiled
    · refine ⟨front ++ [t], behind, ?_, tiled.append (.token start hlt (.done t.stop))⟩
      rw [List.append_assoc, List.singleton_append]

/-- Streams over texts, with the tokens that they yield, for which it does not matter whether a text is
    read as a whole or in parts. -/
structure Composes {σ : Type} [Source Id σ (Token e κ)] (stream : List Char → σ)
    (tokens : List Char → List (Token e κ)) : Prop where
  yields : ∀ text, Source.Yields (stream text) (ofList (tokens text))
  /-- Cut in two at a boundary, the parts have the tokens of the whole. -/
  parts : ∀ text, ∀ b ∈ Token.boundaries (tokens text), ∃ s t, e.splitAt? b text = some (s, t) ∧
    tokens s ++ (tokens t).map (Token.mapOffsets (b + ·)) = tokens text
  /-- The slice that neighbouring tokens cover has just these tokens. -/
  slices : ∀ text before first more behind, tokens text = before ++ (first :: more ++ behind) →
    ∃ slice, e.slice? first.start (more.getLast?.getD first).stop text = some slice ∧
      (tokens slice).map (Token.mapOffsets (first.start + ·)) = first :: more

theorem Grouping.composes {σ : Type} [Source Id σ (Token e κ)] {stream : List Char → σ} (g : Grouping e κ)
    (hl : grain.Local) (yields : ∀ text, Source.Yields (stream text) (ofList (g.tokens grain text))) :
    Composes stream (g.tokens grain) where
  yields := yields
  parts := by
    intro text b mem
    obtain ⟨front, behind, whole, tiled⟩ := (g.tiles grain text).append_of_mem_boundaries mem
    obtain ⟨s, t, rfl, rfl, rfl⟩ := g.tokens_append hl whole
    obtain rfl : e.size s = b := (g.tiles grain s).stop_unique tiled
    exact ⟨s, t, Encoding.splitAt?_size s t, whole.symm⟩
  slices := by
    intro text before first more behind whole
    obtain ⟨s, slice, t, rfl, start, stop, block⟩ := g.block_stands hl whole
    rw [start, stop]
    exact ⟨slice, Encoding.slice?_append s slice t, block.symm⟩

/-! ## Streams -/

section

variable (grain : Grain) (e : Encoding) (text : List Char)

theorem CharStream.yields_grouping :
    Source.Yields (⟨TextReader.ofText text⟩ : CharStream (TextReader grain e))
      (ofList (Grouping.characters.tokens grain text)) := by
  rw [Grouping.characters_tokens]
  exact TextReader.yields_characters grain e text

theorem RunStream.yields_grouping :
    Source.Yields (⟨TextReader.ofText text⟩ : RunStream (TextReader grain e)) (ofList (Grouping.runs.tokens grain text)) :=
  RunStream.yields_compact (TextReader.walks grain e text) (TextReader.pieces_growing grain e text)

theorem WordStream.yields_grouping (limits : ScanLimits) :
    Source.Yields
      (⟨(Buffer.ofSource ⟨TextReader.ofText text⟩).withLimits limits⟩ : WordStream (CharStream (TextReader grain e)) e)
      (ofList ((Grouping.words limits.items).tokens grain text)) :=
  WordStream.yields_of_text grain e text limits

end

/-- Streams of characters, of runs and of words over texts of this grain compose. -/
structure StreamsCompose (grain : Grain) (e : Encoding) (limits : ScanLimits) : Prop where
  characters : Composes (fun text => (⟨TextReader.ofText text⟩ : CharStream (TextReader grain e)))
    (Grouping.characters.tokens grain)
  runs : Composes (fun text => (⟨TextReader.ofText text⟩ : RunStream (TextReader grain e))) (Grouping.runs.tokens grain)
  words : Composes
    (fun text =>
      (⟨(Buffer.ofSource ⟨TextReader.ofText text⟩).withLimits limits⟩ : WordStream (CharStream (TextReader grain e)) e))
    ((Grouping.words limits.items).tokens grain)

theorem Grain.Local.streams (hl : grain.Local) (e : Encoding) (limits : ScanLimits) : StreamsCompose grain e limits where
  characters := Grouping.composes _ hl (CharStream.yields_grouping grain e)
  runs := Grouping.composes _ hl (RunStream.yields_grouping grain e)
  words := Grouping.composes _ hl fun text => WordStream.yields_grouping grain e text limits

/-- Over every text, streams of characters, of runs and of words can be read in parts, cut at any
    boundary of their tokens: the parts yield the tokens of the whole, and the slice of some neighbouring
    tokens yields these tokens. So it is with single scalars, and with clusters by any rules that decide where one ends
    by its scalars and the next one, the rules of this library among them. -/
theorem streams_compose (e : Encoding) (limits : ScanLimits) :
    StreamsCompose .scalar e limits ∧ StreamsCompose .cluster e limits ∧
      ∀ joins, StreamsCompose (.clusters (.ofJoins joins)) e limits :=
  ⟨Grain.scalar_local.streams e limits, (Grain.ofJoins_local Unicode.joins).streams e limits,
    fun joins => (Grain.ofJoins_local joins).streams e limits⟩

end TokenScan
