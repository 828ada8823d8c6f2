/-
  TokenScan.Proofs.Runs — a stream of runs is the stream of characters with its runs put
  together.

  Neighbours join a run if they are of one kind and that is the kind of a set
  (`CharKind.joins`). `RunStream.blocks` splits the tokens of characters wherever two neighbours
  do not join, so its blocks are runs as long as they can be, and single tokens (`Compaction`).
  A stream of runs yields one token over each of them, whatever the characters are, as long as
  each of them covers something (`RunStream.yields_compact`).
-/

import Mathlib.Data.List.SplitBy
import Mathlib.Data.List.TakeWhile
import TokenScan.Proofs.Membership
import TokenScan.Proofs.Walk

namespace TokenScan

open Stream'.Seq (ofList)

variable {ρ : Type} {e : Encoding} [Reader ρ e]

/-! ## Runs of kinds -/

namespace CharKind

/-- Whether a run goes on from a character of the one kind to one of the other. -/
def joins : CharKind → CharKind → Bool
  | member first, member second => first == second
  | _, _ => false

variable {a b c : CharKind}

theorem joins_iff : a.joins b = true ↔ ∃ set, a = .member set ∧ b = .member set := by
  constructor
  · intro h
    unfold joins at h
    split at h
    · exact ⟨_, rfl, congrArg _ (eq_of_beq h).symm⟩
    · cases h
  · rintro ⟨set, rfl, rfl⟩
    exact beq_self_eq_true set

theorem joins_symm (h : a.joins b = true) : b.joins a = true := by
  obtain ⟨set, rfl, rfl⟩ := joins_iff.mp h
  exact h

theorem joins_trans (h : a.joins b = true) (h' : b.joins c = true) : a.joins c = true := by
  obtain ⟨set, rfl, rfl⟩ := joins_iff.mp h
  exact h'

/-- A run of a set goes on with the characters that the set contains. -/
theorem joins_classify (set : CharSet) (character : List Char) :
    (CharKind.member set).joins (classify character) = set.contains character := by
  rw [Bool.eq_iff_iff, ← classify_eq_member_iff, joins_iff]
  constructor
  · rintro ⟨other, same, kind⟩
    cases same
    exact kind
  · intro kind
    exact ⟨set, rfl, kind⟩

end CharKind

/-! ## Blocks -/

/-- How a list of tokens falls into runs. -/
structure Compaction (tokens : List (Token e CharKind)) (blocks : List (List (Token e CharKind))) : Prop where
  whole : blocks.flatten = tokens
  /-- Each block is a single token, or tokens of one set. -/
  alike : ∀ block ∈ blocks, (∃ t, block = [t]) ∨ ∃ set, block ≠ [] ∧ ∀ t ∈ block, t.kind = .member set
  /-- Where one block stops and the next one starts, the tokens are not of one set. -/
  maximal : blocks.IsChain fun a b =>
    ∀ t ∈ a.getLast?, ∀ u ∈ b.head?, ∀ set, ¬(t.kind = .member set ∧ u.kind = .member set)

namespace RunStream

def blocks (tokens : List (Token e CharKind)) : List (List (Token e CharKind)) :=
  tokens.splitBy fun a b => a.kind.joins b.kind

/-- The tokens with every run put together to one token. -/
def compact (tokens : List (Token e CharKind)) : List (Token e RunKind) := Token.cover CharKind.toRun (blocks tokens)

theorem blocks_cons (first : Token e CharKind) (tokens : List (Token e CharKind)) :
    blocks (first :: tokens) =
      (first :: tokens.takeWhile (first.kind.joins ·.kind)) :: blocks (tokens.dropWhile (first.kind.joins ·.kind)) := by
  have joined : ∀ t ∈ tokens.takeWhile (first.kind.joins ·.kind), first.kind.joins t.kind = true := by
    intro t mem
    exact List.mem_takeWhile_imp (p := fun t : Token e CharKind => first.kind.joins t.kind) mem
  have chain : (first :: tokens.takeWhile (first.kind.joins ·.kind)).IsChain fun a b => a.kind.joins b.kind = true := by
    refine List.Pairwise.isChain (List.pairwise_cons.mpr ⟨joined, List.pairwise_of_forall_mem_list ?_⟩)
    intro a ha b hb
    exact CharKind.joins_trans (CharKind.joins_symm (joined a ha)) (joined b hb)
  have ends : ∀ x ∈ (first :: tokens.takeWhile (first.kind.joins ·.kind)).getLast?,
      ∀ y ∈ (tokens.dropWhile (first.kind.joins ·.kind)).head?, x.kind.joins y.kind = false := by
    intro x hx y hy
    have parted : first.kind.joins y.kind = false := by
      have := List.head?_dropWhile_not (first.kind.joins ·.kind) tokens
      rw [Option.mem_def.mp hy] at this
      exact this
    rw [Bool.eq_false_iff]
    intro further
    rcases List.mem_cons.mp (List.mem_of_getLast? hx) with rfl | mem
    · rw [parted] at further
      cases further
    · rw [CharKind.joins_trans (joined x mem) further] at parted
      cases parted
  have whole := List.splitBy_append ends
  rw [List.cons_append, List.takeWhile_append_dropWhile, List.splitBy_of_isChain (List.cons_ne_nil _ _) chain] at whole
  exact whole

theorem compact_cons (first : Token e CharKind) (tokens : List (Token e CharKind)) :
    compact (first :: tokens) =
      ⟨⟨first.start, ((tokens.takeWhile (first.kind.joins ·.kind)).getLast?.getD first).stop⟩, first.kind.toRun⟩ ::
        compact (tokens.dropWhile (first.kind.joins ·.kind)) := by
  rw [compact, blocks_cons, Token.cover_cons]
  rfl

theorem kind_of_chain {t : Token e CharKind} {more : List (Token e CharKind)} {set : CharSet}
    (chain : (t :: more).IsChain fun a b => a.kind.joins b.kind = true) (kind : t.kind = .member set) :
    ∀ u ∈ t :: more, u.kind = .member set := by
  induction more generalizing t with
  | nil => simpa using kind
  | cons next more ih =>
    obtain ⟨joined, chain⟩ := List.isChain_cons_cons.mp chain
    obtain ⟨other, same, kind'⟩ := CharKind.joins_iff.mp joined
    rw [kind] at same
    cases same
    intro u mem
    rcases List.mem_cons.mp mem with rfl | mem
    · exact kind
    · exact ih chain kind' u mem

/-- The blocks are the runs of the tokens, as long as they can be, and the tokens between them. -/
theorem blocks_compaction (tokens : List (Token e CharKind)) : Compaction tokens (blocks tokens) where
  whole := List.flatten_splitBy _ tokens
  alike := by
    intro block mem
    have chain := List.isChain_of_mem_splitBy mem
    cases block with
    | nil => exact absurd mem (List.nil_notMem_splitBy _ tokens)
    | cons t more =>
      cases more with
      | nil => exact .inl ⟨t, rfl⟩
      | cons u more =>
        obtain ⟨joined, -⟩ := List.isChain_cons_cons.mp chain
        obtain ⟨set, kind, -⟩ := CharKind.joins_iff.mp joined
        exact .inr ⟨set, List.cons_ne_nil _ _, kind_of_chain chain kind⟩
  maximal := by
    apply (List.isChain_getLast_head_splitBy _ tokens).imp
    rintro a b ⟨ha, hb, parted⟩ t ht u hu set
    rw [List.getLast?_eq_some_getLast ha, Option.mem_some] at ht
    rw [List.head?_eq_some_head hb, Option.mem_some] at hu
    rw [ht, hu] at parted
    rintro ⟨kind, kind'⟩
    rw [CharKind.joins_iff.mpr ⟨set, kind, kind'⟩] at parted
    cases parted

theorem blocks_mapOffsets {u : Encoding} (f : Nat → Nat) (tokens : List (Token e CharKind)) :
    blocks (tokens.map (Token.mapOffsets f : Token e CharKind → Token u CharKind)) =
      (blocks tokens).map (List.map (Token.mapOffsets f)) := by
  cases tokens with
  | nil => rfl
  | cons first tokens =>
    rw [List.map_cons, blocks_cons, blocks_cons, List.takeWhile_map, List.dropWhile_map, blocks_mapOffsets f]
    rfl
termination_by tokens.length
decreasing_by exact Nat.lt_succ_of_le (List.dropWhile_sublist _).length_le

theorem compact_mapOffsets {u : Encoding} (f : Nat → Nat) (tokens : List (Token e CharKind)) :
    compact (tokens.map (Token.mapOffsets f : Token e CharKind → Token u CharKind)) =
      (compact tokens).map (Token.mapOffsets f) := by
  rw [compact, blocks_mapOffsets, Token.cover_mapOffsets, compact]

/-! ## Runs of a reader -/

open Reader (Walks lastOf)

variable {r : ρ} {first : Piece} {rest pieces : List Piece}

/-- A stream of runs consumes the first piece and those behind it that join a run with it. -/
theorem advance_of_walks (w : Walks r (first :: rest))
    (grows : Piece.Growing (first :: rest.takeWhile fun p => (classify first.text).joins (classify p.text))) :
    ∃ r', advance (classify first.text) r =
        (.ok (some ⟨first.span.start,
          (lastOf first (rest.takeWhile fun p => (classify first.text).joins (classify p.text))).span.stop⟩), r') ∧
      Walks r' (rest.dropWhile fun p => (classify first.text).joins (classify p.text)) := by
  have single {kind : CharKind} (alone : ∀ next, kind.joins next = false) :
      ∃ r', Reader.advanceRange r =
          (.ok (some ⟨first.span.start,
            (lastOf first (rest.takeWhile fun p => kind.joins (classify p.text))).span.stop⟩), r') ∧
        Walks r' (rest.dropWhile fun p => kind.joins (classify p.text)) := by
    obtain ⟨r', moved, -, walks⟩ := Reader.advanceRange_of_walks w grows.head
    refine ⟨r', ?_, ?_⟩
    · rw [moved]
      cases rest <;> simp [alone, lastOf]
    · cases rest <;> simpa [alone] using walks
  cases kind : classify first.text with
  | member set =>
    simp only [kind, CharKind.joins_classify] at grows ⊢
    exact Reader.advanceWhileIn_of_walks set w grows
  | mark m => exact single fun _ => rfl
  | other => exact single fun _ => rfl

/-- What the tokens of characters tile, their runs tile too. -/
theorem compact_tiles {start stop : Nat} {tokens : List (Token e CharKind)} (h : Tiles start stop tokens) :
    Tiles start stop (compact tokens) := by
  refine Tiles.cover CharKind.toRun ?_
  rw [(blocks_compaction tokens).whole]
  exact h

theorem compact_pieces (first : Piece) (rest : List Piece) :
    compact ((first :: rest).map (Piece.token e)) =
      ⟨⟨first.span.start, (lastOf first (rest.takeWhile fun p => (classify first.text).joins (classify p.text))).span.stop⟩,
        (classify first.text).toRun⟩ ::
      compact ((rest.dropWhile fun p => (classify first.text).joins (classify p.text)).map (Piece.token e)) := by
  rw [List.map_cons, compact_cons, List.takeWhile_map, List.dropWhile_map, List.getLast?_map, Option.getD_map]
  rfl

/-- Over a run of pieces that cover something each, a stream of runs brings one token. -/
theorem call_of_walks (w : Walks r (first :: rest))
    (grows : Piece.Growing (first :: rest.takeWhile fun p => (classify first.text).joins (classify p.text))) :
    ∃ r', Source.call (⟨r⟩ : RunStream ρ) = (.ok (some (⟨⟨first.span.start, (lastOf first (rest.takeWhile fun p =>
        (classify first.text).joins (classify p.text))).span.stop⟩, (classify first.text).toRun⟩ : Token e RunKind)), ⟨r'⟩) ∧
      Walks r' (rest.dropWhile fun p => (classify first.text).joins (classify p.text)) := by
  obtain ⟨r', moved, walks⟩ := advance_of_walks w grows
  refine ⟨r', ?_, walks⟩
  have covers := w.lt_lastOf (List.takeWhile_prefix _) grows
  show RunStream.next _ = _
  unfold RunStream.next
  rw [Reader.atEnd_of_walks w, w.uncons.1]
  simp [moved, Token.ofSpan?, Token.ofSpan, covers]

/-- A stream of runs yields the tokens of the pieces with every run put together. -/
theorem yields_compact (w : Walks r pieces) (grows : Piece.Growing pieces) :
    Source.Yields (⟨r⟩ : RunStream ρ) (ofList (compact (pieces.map (Piece.token e)))) := by
  refine Source.yields_of_invariant (P := fun s items => ∃ pieces, Walks s.reader pieces ∧
    Piece.Growing pieces ∧ items = ofList (compact (pieces.map (Piece.token e)))) ?_ ⟨pieces, w, grows, rfl⟩
  rintro s items ⟨pieces, w, grows, rfl⟩
  cases pieces with
  | nil =>
    refine ⟨s, ?_, [], w, grows, rfl⟩
    show RunStream.next s = _
    unfold RunStream.next
    rw [Reader.atEnd_of_walks w]
    rfl
  | cons first rest =>
    obtain ⟨r', called, walks⟩ := call_of_walks w (grows.sublist ((List.takeWhile_sublist _).cons_cons first))
    rw [compact_pieces]
    exact ⟨⟨r'⟩, by simpa using called, _, walks, grows.tail.sublist (List.dropWhile_sublist _), by simp⟩

/-- Over a reader that walks characters which cover something each, whatever they are, a stream of
    runs yields the tokens that the stream of characters yields, with every run put together to
    one token and each token between the runs as it is. These tile what the reader walks. Every
    reader over a text is such a reader. -/
theorem yields_runs (w : Walks r pieces) (grows : Piece.Growing pieces) :
    let characters := pieces.map (Piece.token e)
    Source.Yields (⟨r⟩ : CharStream ρ) (ofList characters) ∧
      Source.Yields (⟨r⟩ : RunStream ρ) (ofList (Token.cover CharKind.toRun (blocks characters))) ∧
      Compaction characters (blocks characters) ∧
      Tiles (Reader.index r) ((pieces.map (·.span.stop)).getLast?.getD (Reader.index r))
        (Token.cover CharKind.toRun (blocks characters)) ∧
      ∀ (grain : Grain) (units : Encoding) (text : List Char),
        Walks (TextReader.ofText text : TextReader grain units) (TextReader.pieces grain units text) ∧
          Piece.Growing (TextReader.pieces grain units text) := by
  intro characters
  refine ⟨CharStream.yields_of_walks w grows, yields_compact w grows, blocks_compaction characters, ?_, ?_⟩
  · exact compact_tiles (tiles_of_walks w grows)
  · intro grain units text
    exact ⟨TextReader.walks grain units text, TextReader.pieces_growing grain units text⟩

/-- Characters of several scalars or of none, at offsets that grow as they like. -/
theorem yields_runs_listed :
    let entries : List (List Char × Nat) :=
      [(['a', 'b'], 5), (['c'], 6), ([], 9), (['1'], 10), (['2'], 12), (['3', 'x'], 13), (['A'], 14), (['.'], 15), (['.'], 16)]
    Walks (⟨3, entries⟩ : ListedReader .utf8) (ListedReader.pieces 3 entries) ∧
      Piece.Growing (ListedReader.pieces 3 entries) ∧
      Source.Yields (⟨⟨3, entries⟩⟩ : RunStream (ListedReader .utf8))
        (ofList [⟨⟨3, 6⟩, .run .lowercaseLetters⟩, ⟨⟨6, 9⟩, .other⟩, ⟨⟨9, 12⟩, .run .decimalDigits⟩, ⟨⟨12, 13⟩, .other⟩,
          ⟨⟨13, 14⟩, .run .uppercaseLetters⟩, ⟨⟨14, 15⟩, .mark .period⟩, ⟨⟨15, 16⟩, .mark .period⟩]) := by
  intro entries
  have walks : Walks (⟨3, entries⟩ : ListedReader .utf8) _ := ListedReader.walks 3 entries
  have grows : Piece.Growing (ListedReader.pieces 3 entries) := by decide
  refine ⟨walks, grows, ?_⟩
  obtain ⟨-, yields, -⟩ := yields_runs walks grows
  have runs : Token.cover CharKind.toRun (blocks ((ListedReader.pieces 3 entries).map (Piece.token .utf8))) =
      [⟨⟨3, 6⟩, .run .lowercaseLetters⟩, ⟨⟨6, 9⟩, .other⟩, ⟨⟨9, 12⟩, .run .decimalDigits⟩, ⟨⟨12, 13⟩, .other⟩,
        ⟨⟨13, 14⟩, .run .uppercaseLetters⟩, ⟨⟨14, 15⟩, .mark .period⟩, ⟨⟨15, 16⟩, .mark .period⟩] := by decide +kernel
  rw [runs] at yields
  exact yields

end RunStream

end TokenScan
