/-
  TokenScan.Proofs.Units — the same tokens in bytes and in UTF-16 code units.

  The code units before a place in a text are the host's offset of that place, however the
  text is cut (`Encoding.toHostOffset_size`). So the characters that a reader counting code units
  shows stand at the host's offsets of those that a reader counting bytes shows, and runs and
  words, which are told by kinds alone, are the same ones (`streams_agree_in_units`).
-/

import TokenScan.Host
import TokenScan.Proofs.Groups
import TokenScan.Proofs.Runs

namespace TokenScan

open Stream'.Seq (ofList)

/-! ## Offsets -/

namespace Encoding

theorem unitsBefore_append (before after : List Char) (bytes units : Nat) :
    unitsBefore (bytes + utf8.size before) bytes units (before ++ after) = units + utf16.size before := by
  induction before generalizing bytes units with
  | nil =>
    cases after with
    | nil => rfl
    | cons c after => simp [unitsBefore]
  | cons c before ih =>
    have := utf8.width_pos c
    rw [List.cons_append, unitsBefore, size_cons, size_cons, if_pos (by omega), ← Nat.add_assoc, ih]
    omega

theorem toHostOffset_size (before after : List Char) :
    utf8.toHostOffset (before ++ after) (utf8.size before) = utf16.size before := by
  have counted := unitsBefore_append before after 0 0
  rw [Nat.zero_add, Nat.zero_add] at counted
  exact counted

end Encoding

/-! ## Tokens -/

namespace Token

variable {κ : Type}

def inUnits (text : List Char) (t : Token .utf8 κ) : Token .utf16 κ := { t.hostRange text with kind := t.kind }

theorem inUnits_eq_mapOffsets (text : List Char) :
    (inUnits text : Token .utf8 κ → Token .utf16 κ) = mapOffsets (Encoding.utf8.toHostOffset text) := rfl

/-- The host knows both tokens by the same range. -/
theorem hostRange_inUnits (text : List Char) (t : Token .utf8 κ) : (t.inUnits text).hostRange text = t.hostRange text := rfl

end Token

theorem placed_inUnits {text before : List Char} {characters : List (List Char)}
    (whole : text = before ++ characters.flatten) :
    (Encoding.utf16.placed (Encoding.utf16.size before) characters).map (Piece.token .utf16) =
      ((Encoding.utf8.placed (Encoding.utf8.size before) characters).map (Piece.token .utf8)).map (Token.inUnits text) := by
  induction characters generalizing before with
  | nil => rfl
  | cons c rest ih =>
    have further : text = (before ++ c) ++ rest.flatten := by simpa using whole
    have start : Encoding.utf8.toHostOffset text (Encoding.utf8.size before) = Encoding.utf16.size before := by
      rw [whole]
      exact Encoding.toHostOffset_size before _
    have stop : Encoding.utf8.toHostOffset text (Encoding.utf8.size (before ++ c)) = Encoding.utf16.size (before ++ c) := by
      rw [further]
      exact Encoding.toHostOffset_size (before ++ c) _
    have behind := ih further
    rw [Encoding.size_append, Encoding.size_append] at stop behind
    have here : Piece.token .utf16 ⟨c, ⟨Encoding.utf16.size before, Encoding.utf16.size before + Encoding.utf16.size c⟩⟩ =
        (Piece.token .utf8 ⟨c, ⟨Encoding.utf8.size before, Encoding.utf8.size before + Encoding.utf8.size c⟩⟩).inUnits text := by
      rw [← stop, ← start]
      rfl
    rw [Encoding.placed, Encoding.placed, List.map_cons, List.map_cons, List.map_cons, behind, here]

theorem characters_inUnits (grain : Grain) (text : List Char) :
    (TextReader.pieces grain .utf16 text).map (Piece.token .utf16) =
      ((TextReader.pieces grain .utf8 text).map (Piece.token .utf8)).map (Token.inUnits text) := by
  have whole : text = [] ++ (grain.characters text).flatten := (grain.flatten_characters text).symm
  exact placed_inUnits whole

/-! ## Streams -/

/-- The one source yields these tokens, in bytes, and the other yields them in code units: of the same
    kinds, over the host's offsets, and so over ranges that the host does not tell apart. -/
structure AgreeInUnits {σ σ' κ : Type} [Source Id σ (Token .utf8 κ)] [Source Id σ' (Token .utf16 κ)] (text : List Char)
    (bytes : σ) (units : σ') (tokens : List (Token .utf8 κ)) : Prop where
  bytes : Source.Yields bytes (ofList tokens)
  units : Source.Yields units (ofList (tokens.map (Token.inUnits text)))
  hostRanges : (tokens.map (Token.inUnits text)).map (·.hostRange text) = tokens.map (·.hostRange text)

theorem agree_of_yields {σ σ' κ : Type} [Source Id σ (Token .utf8 κ)] [Source Id σ' (Token .utf16 κ)] {text : List Char}
    {bytes : σ} {units : σ'} {tokens : List (Token .utf8 κ)} (h : Source.Yields bytes (ofList tokens))
    (h' : Source.Yields units (ofList (tokens.map (Token.inUnits text)))) : AgreeInUnits text bytes units tokens := by
  refine ⟨h, h', ?_⟩
  rw [List.map_map]
  exact List.map_congr_left fun t _ => Token.hostRange_inUnits text t

/-- Over every text, streams of characters, of runs and of words come to the same tokens in bytes
    and in code units. -/
theorem streams_agree_in_units (grain : Grain) (text : List Char) (limits : ScanLimits) :
    let characters := (TextReader.pieces grain .utf8 text).map (Piece.token .utf8)
    AgreeInUnits text (⟨TextReader.ofText text⟩ : CharStream (TextReader grain .utf8))
        (⟨TextReader.ofText text⟩ : CharStream (TextReader grain .utf16)) characters ∧
      AgreeInUnits text (⟨TextReader.ofText text⟩ : RunStream (TextReader grain .utf8))
        (⟨TextReader.ofText text⟩ : RunStream (TextReader grain .utf16)) (RunStream.compact characters) ∧
      AgreeInUnits text
        (⟨(Buffer.ofSource ⟨TextReader.ofText text⟩).withLimits limits⟩ : WordStream (CharStream (TextReader grain .utf8)) .utf8)
        (⟨(Buffer.ofSource ⟨TextReader.ofText text⟩).withLimits limits⟩ :
          WordStream (CharStream (TextReader grain .utf16)) .utf16)
        (grouped limits.items characters) := by
  intro characters
  have walks := TextReader.walks grain .utf8 text
  have walks' := TextReader.walks grain .utf16 text
  have grows := TextReader.pieces_growing grain .utf8 text
  have grows' := TextReader.pieces_growing grain .utf16 text
  refine ⟨agree_of_yields (CharStream.yields_of_walks walks grows) ?_,
    agree_of_yields (RunStream.yields_compact walks grows) ?_, ?_⟩
  · rw [← characters_inUnits]
    exact CharStream.yields_of_walks walks' grows'
  · rw [Token.inUnits_eq_mapOffsets, ← RunStream.compact_mapOffsets, ← Token.inUnits_eq_mapOffsets, ← characters_inUnits]
    exact RunStream.yields_compact walks' grows'
  · refine agree_of_yields (WordStream.yields_of_text grain .utf8 text limits) ?_
    rw [Token.inUnits_eq_mapOffsets, ← grouped_mapOffsets, ← Token.inUnits_eq_mapOffsets, ← characters_inUnits]
    exact WordStream.yields_of_text grain .utf16 text limits

end TokenScan
