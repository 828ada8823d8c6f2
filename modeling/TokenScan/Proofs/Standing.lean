/-
  TokenScan.Proofs.Standing — a reader over a text knows where it stands, wherever it gets.

  What a reader keeps besides its text hangs together: what is left of the text, the place where that begins, in bytes
  and in the units that the reader counts, and how long the current character is (`StandsBehind`). Moving on renews
  all of it (`StandsBehind.moved`), so it holds in every state that a reader can get to.

  Hence a reader always stands between two scalars and never past its text, its current character can be cut out there,
  and it can move on just if it is not at the end. Whatever consumes characters asks first whether there are any,
  so nothing but moving on breaks off, and that only at the end (`TextReader.stands_throughout`).
-/

import TokenScan.Proofs.Coverage
import TokenScan.Proofs.Scanning

namespace TokenScan

variable {grain : Grain} {e : Encoding}

namespace Encoding

theorem width_le_bytes (e : Encoding) (c : Char) : e.width c ≤ utf8.width c := by
  have hpos := c.utf8Size_pos
  cases e with
  | utf8 => exact Nat.le_refl _
  | utf16 =>
    simp only [width]
    split
    case isTrue => exact hpos
    case isFalse pair =>
      have more : c.utf8Size ≠ 1 := by
        intro one
        have small : c.toNat ≤ 0x7f := Char.utf8Size_eq_one_iff.mp one
        omega
      omega

/-- A text has no more units than bytes. -/
theorem size_le_bytes (e : Encoding) (text : List Char) : e.size text ≤ utf8.size text := by
  induction text with
  | nil => exact Nat.le_refl _
  | cons c text ih => exact Nat.add_le_add (e.width_le_bytes c) ih

theorem size_eq_zero_iff {c : List Char} : e.size c = 0 ↔ c = [] := by
  constructor
  · intro nothing
    by_contra hne
    have := e.size_pos hne
    omega
  · rintro rfl
    rfl

end Encoding

namespace TextReader

variable {text before : List Char} {r : TextReader grain e}

/-! ## Where a reader stands -/

/-- The reader has this part of the text behind it and the rest before it, and its numbers say so. -/
structure StandsBehind (text before : List Char) (r : TextReader grain e) : Prop where
  same : r.text = text
  whole : before ++ r.rest = text
  bytes : r.byteOffset = Encoding.utf8.size before
  units : r.offset = e.size before
  ready : r.Ready

theorem StandsBehind.moved (h : StandsBehind text before r) : StandsBehind text (before ++ r.current) r.moved where
  same := h.same
  whole := by
    have split : r.current ++ r.moved.rest = r.rest := List.take_append_drop r.length r.rest
    rw [List.append_assoc, split]
    exact h.whole
  bytes := by
    rw [Encoding.size_append, ← h.bytes]
    rfl
  units := by
    rw [Encoding.size_append, ← h.units]
    rfl
  ready := r.moved_ready

theorem Reachable.standsBehind (reached : Reachable text r) : ∃ before, StandsBehind text before r := by
  refine reached.keeps (P := fun r => ∃ before, StandsBehind text before r) ?_ ⟨[], rfl, rfl, rfl, rfl, rfl⟩
  rintro r ⟨before, stands⟩
  show ∃ before, StandsBehind text before r.advance.2
  unfold TextReader.advance
  split
  · exact ⟨before, stands⟩
  · exact ⟨_, stands.moved⟩

theorem current_eq_nil_iff (ready : r.Ready) : r.current = [] ↔ r.atEnd = true := by
  rw [atEnd_iff]
  constructor
  · intro nothing
    by_contra inside
    have first : r.current ∈ grain.characters r.rest := by
      rw [characters_of_ready ready inside]
      exact List.mem_cons_self
    exact Grain.ne_nil_of_mem_characters first nothing
  · intro ended
    rw [current, ended, List.take_nil]

/-! ## What it does there -/

theorem advanceRange_ok (ready : r.Ready) : ∃ span? r', Reader.advanceRange r = (.ok span?, r') := by
  by_cases ended : r.atEnd = true
  · exact ⟨none, r, if_pos ended⟩
  · exact ⟨_, _, advanceRange_of_ready ready (atEnd_iff.not.mp ended)⟩

theorem advanceWhile_ok {τ : Type} (ready : r.Ready) (extends? : List Char → StateM τ Bool) (t : τ) :
    ∃ span? r' t', Reader.advanceWhile extends? r t = (.ok span?, r', t') := by
  by_cases ended : r.atEnd = true
  · exact ⟨none, r, t, if_pos ended⟩
  · have shows := characters_of_ready ready (atEnd_iff.not.mp ended)
    exact ⟨_, _, _, advanceWhile_of_ready ready shows extends? t⟩

theorem advanceWhileIn_ok (ready : r.Ready) (set : CharSet) :
    ∃ span? r', Reader.advanceWhileIn set r = (.ok span?, r') := by
  obtain ⟨span?, r', t', ran⟩ := advanceWhile_ok ready (fun c => (pure (set.contains c) : StateM Unit Bool)) ()
  exact ⟨span?, r', by rw [Reader.advanceWhileIn, ran]⟩

/-- What is so of a reader over the text. It stands between two scalars, in bytes where `before` ends and in its own
    units as well. The length that it keeps is that of the first character of what is left, which is none just at the
    end; the current character is that character, and can be cut out of the text. Neither place gets past the text
    in bytes, also not by moving on. Moving on breaks off at the end, where it changes nothing, and goes forward
    everywhere else, and tells whether there is more; nothing else breaks off. -/
structure Standing (text : List Char) (r : TextReader grain e) : Prop where
  same : r.text = text
  boundary : ∃ before, Encoding.utf8.splitAt? r.byteOffset r.text = some (before, r.rest) ∧ before ++ r.rest = text ∧
    r.offset = e.size before
  length_eq : r.length = grain.firstLength r.rest
  current_eq : r.current = (grain.characters r.rest).head?.getD []
  ended_iff : r.atEnd = true ↔ r.byteOffset = Encoding.utf8.size text
  size_eq_zero_iff : Encoding.utf8.size r.current = 0 ↔ r.atEnd = true
  current_eq_nil_iff : r.current = [] ↔ r.atEnd = true
  slice : Encoding.utf8.slice? r.byteOffset (r.byteOffset + Encoding.utf8.size r.current) r.text = some r.current
  room : r.byteOffset + Encoding.utf8.size r.current ≤ Encoding.utf8.size text ∧
    r.offset + e.size r.current ≤ Encoding.utf8.size text
  advance_ended : r.atEnd = true → Reader.advance r = (.error (.exhausted grain.unit e r.offset), r)
  advance_inside : r.atEnd = false → ∃ r', Reader.advance r = (.ok !r'.atEnd, r') ∧
    r.offset < r'.offset ∧ r.byteOffset < r'.byteOffset
  advanceRange_ok : ∃ span? r', Reader.advanceRange r = (.ok span?, r')
  advanceWhile_ok : ∀ (τ : Type) (extends? : List Char → StateM τ Bool) (t : τ),
    ∃ span? r' t', Reader.advanceWhile extends? r t = (.ok span?, r', t')
  advanceWhileIn_ok : ∀ set, ∃ span? r', Reader.advanceWhileIn set r = (.ok span?, r')

/-- All of this is so in every state that a reader over a text can get to. -/
theorem stands_throughout (reached : Reachable text r) : Standing text r := by
  obtain ⟨before, stands⟩ := reached.standsBehind
  have ready := stands.ready
  have split : r.current ++ r.moved.rest = r.rest := List.take_append_drop r.length r.rest
  have whole : text = before ++ (r.current ++ r.moved.rest) := by rw [split, stands.whole]
  have nothing {u : Encoding} : u.size r.current = 0 ↔ r.atEnd = true :=
    Encoding.size_eq_zero_iff.trans (current_eq_nil_iff ready)
  exact {
    same := stands.same
    boundary := by
      refine ⟨before, ?_, stands.whole, stands.units⟩
      rw [stands.bytes, stands.same, ← stands.whole, Encoding.splitAt?_size]
    length_eq := ready
    current_eq := current_of_ready ready
    ended_iff := by
      rw [← stands.whole, Encoding.size_append, stands.bytes, atEnd_iff,
        ← Encoding.size_eq_zero_iff (e := .utf8)]
      omega
    size_eq_zero_iff := nothing
    current_eq_nil_iff := current_eq_nil_iff ready
    slice := by
      rw [stands.bytes, stands.same, whole]
      exact Encoding.slice?_append before r.current r.moved.rest
    room := by
      have bytes := congrArg Encoding.utf8.size whole
      have units := congrArg e.size whole
      simp only [Encoding.size_append] at bytes units
      have := e.size_le_bytes text
      rw [stands.bytes, stands.units]
      omega
    advance_ended := fun ended => advance_of_ended ready (atEnd_iff.mp ended)
    advance_inside := by
      intro inside
      have hne : r.rest ≠ [] := atEnd_iff.not.mp (by simp [inside])
      have forward {u : Encoding} : 0 < u.size r.current := Nat.pos_of_ne_zero (nothing.not.mpr (by simp [inside]))
      exact ⟨r.moved, advance_of_ready ready hne, Nat.lt_add_of_pos_right forward, Nat.lt_add_of_pos_right forward⟩
    advanceRange_ok := TextReader.advanceRange_ok ready
    advanceWhile_ok := fun τ extends? t => TextReader.advanceWhile_ok ready extends? t
    advanceWhileIn_ok := TextReader.advanceWhileIn_ok ready }

/-- Behind a run in which one character has two units and four bytes, and told to move on past the end besides. -/
theorem stands_throughout_behind_pair :
    let text := ['a', '😀', 'ж', '\r', '\n']
    let once : List Char → StateM Nat Bool := fun _ n => (n == 0, n + 1)
    let run : TextReader .cluster .utf16 := (Reader.advanceWhile once (ofText text) 0).2.1
    let last := (Reader.advance (Reader.advance (Reader.advance run).2).2).2
    Reachable text run ∧ Standing text run ∧ run.byteOffset = 5 ∧ run.offset = 3 ∧
      Reachable text last ∧ Standing text last ∧ last.byteOffset = 9 ∧ last.offset = 6 := by
  intro text once run last
  have reached : Reachable text run := .advanceWhile once 0 .start
  have reached' : Reachable text last := .advance (.advance (.advance reached))
  exact ⟨reached, stands_throughout reached, by decide +kernel, by decide +kernel,
    reached', stands_throughout reached', by decide +kernel, by decide +kernel⟩

end TextReader

end TokenScan
