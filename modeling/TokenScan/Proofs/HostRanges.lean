/-
  TokenScan.Proofs.HostRanges — what a stream yields, a host can name, and the name leads back to it.

  Between two scalars of a text the code units are counted exactly, forth and back
  (`Encoding.hostOffset_size`, `Encoding.ofHostOffset_size`). Every token of a stream starts and stops
  there, whichever way its characters are put together (`Grouping.token_stands`), and covers some of the
  text. So the host's range of a token means that token and no other, and the host's ranges of the tokens of
  a text lie side by side over all of its code units (`Grouping.knownToHost`).
-/

import TokenScan.Proofs.Composition
import TokenScan.Proofs.Units

namespace TokenScan

open Stream'.Seq (ofList)

variable {e : Encoding} {grain : Grain} {κ : Type}

/-! ## Offsets forth and back -/

namespace Encoding

/-- Counting code units ends at the end of a first part of a text, and never inside a scalar of it. -/
theorem byteOfUnit_append (before after : List Char) (units bytes : Nat) :
    byteOfUnit (units + utf16.size before) units bytes (before ++ after) = .ok (bytes + utf8.size before) := by
  induction before generalizing units bytes with
  | nil =>
    unfold byteOfUnit
    exact if_pos (Nat.add_zero units).symm
  | cons c before ih =>
    have := utf16.width_pos c
    rw [List.cons_append, byteOfUnit, size_cons, size_cons, if_neg (by omega), if_neg (by omega), ← Nat.add_assoc,
      ← Nat.add_assoc]
    exact ih _ _

theorem ofHostOffset_size (e : Encoding) (before after : List Char) :
    e.ofHostOffset (before ++ after) (utf16.size before) = .ok (e.size before) := by
  have counted := byteOfUnit_append before after 0 0
  rw [Nat.zero_add, Nat.zero_add] at counted
  cases e with
  | utf8 => exact counted
  | utf16 =>
    rw [ofHostOffset, counted]
    rfl

theorem hostOffset_size (e : Encoding) (before after : List Char) :
    e.toHostOffset (before ++ after) (e.size before) = utf16.size before := by
  cases e with
  | utf8 => exact toHostOffset_size before after
  | utf16 => rfl

theorem nativeRange?_size (before part after : List Char) :
    e.nativeRange? (before ++ (part ++ after)) ⟨utf16.size before, utf16.size (before ++ part)⟩ =
      some ⟨e.size before, e.size (before ++ part)⟩ := by
  have start := e.ofHostOffset_size before (part ++ after)
  have stop := e.ofHostOffset_size (before ++ part) after
  have ordered : ¬utf16.size (before ++ part) < utf16.size before := by simp
  rw [List.append_assoc] at stop
  simp only [nativeRange?, tryNativeRange, if_neg ordered, start, stop]
  rfl

end Encoding

/-! ## Tokens -/

namespace Token

def onHost (text : List Char) (t : Token e κ) : Token .utf16 κ := { t.hostRange text with kind := t.kind }

variable {before part after : List Char} {t : Token e κ}

theorem hostRange_eq (start : t.start = e.size before) (stop : t.stop = e.size before + e.size part) :
    t.hostRange (before ++ (part ++ after)) =
      ⟨Encoding.utf16.size before, Encoding.utf16.size before + Encoding.utf16.size part⟩ := by
  have stop' := e.hostOffset_size (before ++ part) after
  rw [List.append_assoc, Encoding.size_append, Encoding.size_append] at stop'
  rw [hostRange, start, stop, e.hostOffset_size, stop']

/-- The host's range of a token that stands between scalars and covers something means just this token. -/
theorem ofHostRange?_hostRange (start : t.start = e.size before) (stop : t.stop = e.size before + e.size part)
    (covers : t.start < t.stop) :
    ofHostRange? t.kind (t.hostRange (before ++ (part ++ after))) (before ++ (part ++ after)) =
      (.ok (some t) : Except Fault (Option (Token e κ))) := by
  have range := e.nativeRange?_size before part after
  rw [Encoding.size_append, Encoding.size_append, ← stop, ← start] at range
  rw [hostRange_eq start stop, ofHostRange?, range, Option.filter_some, if_pos (by simpa using covers), ofSpan?, ofSpan,
    if_pos covers]
  rfl

end Token

/-! ## Streams -/

/-- Each of the tokens is what its host's range means, and these ranges lie side by side, from the start of
    the text to its end. -/
structure KnownToHost (text : List Char) (tokens : List (Token e κ)) : Prop where
  roundTrip : ∀ t ∈ tokens,
    Token.ofHostRange? t.kind (t.hostRange text) text = (.ok (some t) : Except Fault (Option (Token e κ)))
  contiguous : Tiles 0 (Encoding.utf16.size text) (tokens.map (Token.onHost text))

namespace Grouping

variable (g : Grouping e κ)

theorem token_stands {text : List Char} {t : Token e κ} (mem : t ∈ g.tokens grain text) :
    ∃ before part after, text = before ++ (part ++ after) ∧ t.start = e.size before ∧
      t.stop = e.size before + e.size part ∧ part ≠ [] ∧ t.start < t.stop := by
  have covers : t.start < t.stop := by
    obtain ⟨l, r, whole⟩ := List.append_of_mem mem
    have tiled := g.tiles grain text
    rw [whole] at tiled
    obtain ⟨_, -, behind⟩ := tiled.split
    exact behind.head_lt
  obtain ⟨block, hb, spanned⟩ := List.mem_filterMap.mp mem
  obtain ⟨first, more, rfl⟩ : ∃ first more, block = first :: more := by
    cases block with
    | nil => cases spanned
    | cons first more => exact ⟨first, more, rfl⟩
  obtain rfl := Option.some.inj spanned
  -- the token starts and stops with characters, and these stand between scalars
  have character {c : Token e CharKind} (h : c ∈ first :: more) {n : Nat} (hn : n = c.start ∨ n = c.stop) :
      ∃ s t, text = s ++ t ∧ n = e.size s := by
    have whole : text = [] ++ (grain.characters text).flatten := (grain.flatten_characters text).symm
    refine mem_boundaries_placed whole (List.mem_flatMap.mpr ⟨c, ?_, by simpa using hn⟩)
    have together := g.restarts.whole ((TextReader.pieces grain e text).map (Piece.token e))
    exact together ▸ List.mem_flatten.mpr ⟨_, hb, h⟩
  obtain ⟨before, after, rfl, start⟩ := character List.mem_cons_self (.inl rfl)
  obtain ⟨s, t, whole, stop⟩ := character (List.mem_of_getLast? (List.getLast?_cons ..)) (.inr rfl)
  rcases List.append_eq_append_iff.mp whole with ⟨part, rfl, rfl⟩ | ⟨part, rfl, -⟩
  · rw [Encoding.size_append] at stop
    refine ⟨before, part, t, rfl, start, stop, ?_, covers⟩
    rintro rfl
    have covers : first.start < (more.getLast?.getD first).stop := covers
    rw [start, stop] at covers
    exact absurd covers (by simp)
  · have covers : first.start < (more.getLast?.getD first).stop := covers
    rw [start, stop, Encoding.size_append] at covers
    exact absurd covers (by omega)

theorem knownToHost (grain : Grain) (text : List Char) : KnownToHost text (g.tokens grain text) where
  roundTrip t mem := by
    obtain ⟨before, part, after, rfl, start, stop, -, covers⟩ := g.token_stands mem
    exact Token.ofHostRange?_hostRange start stop covers
  contiguous := by
    have ends : e.toHostOffset text 0 = 0 ∧ e.toHostOffset text (e.size text) = Encoding.utf16.size text := by
      have last := e.hostOffset_size text []
      rw [List.append_nil] at last
      exact ⟨e.hostOffset_size [] text, last⟩
    rw [← ends.1, ← ends.2]
    refine (g.tiles grain text).mapOffsets fun t mem _ => ?_
    obtain ⟨before, part, after, rfl, start, stop, hne, -⟩ := g.token_stands mem
    have range : t.hostRange (before ++ (part ++ after)) = _ := Token.hostRange_eq start stop
    obtain ⟨first, last⟩ := Span.mk.inj range
    have := Encoding.size_pos (e := .utf16) hne
    omega

end Grouping

/-- Over every text, what a stream of characters, of runs or of words yields is known to the host. -/
theorem streams_known_to_host (grain : Grain) (e : Encoding) (text : List Char) (limits : ScanLimits) :
    let characters := (TextReader.pieces grain e text).map (Piece.token e)
    (Source.Yields (⟨TextReader.ofText text⟩ : CharStream (TextReader grain e)) (ofList characters) ∧
        KnownToHost text characters) ∧
      (Source.Yields (⟨TextReader.ofText text⟩ : RunStream (TextReader grain e)) (ofList (RunStream.compact characters)) ∧
        KnownToHost text (RunStream.compact characters)) ∧
      Source.Yields
          (⟨(Buffer.ofSource ⟨TextReader.ofText text⟩).withLimits limits⟩ : WordStream (CharStream (TextReader grain e)) e)
          (ofList (grouped limits.items characters)) ∧
        KnownToHost text (grouped limits.items characters) := by
  intro characters
  have single := Grouping.characters.knownToHost (e := e) grain text
  rw [Grouping.characters_tokens] at single
  exact ⟨⟨TextReader.yields_characters grain e text, single⟩,
    ⟨RunStream.yields_grouping grain e text, Grouping.runs.knownToHost grain text⟩,
    WordStream.yields_grouping grain e text limits, (Grouping.words limits.items).knownToHost grain text⟩

end TokenScan
