/-
  TokenScan.Proofs.Scanning — a scan over a text takes the first character and those behind it that are accepted.

  A reader over a text can be moved on, and told to consume a character or a run, in any order and with any
  predicates (`TextReader.Reachable`). All of this only moves it on (`Reader.Consumes.keeps`), and moving on keeps it
  ready, so wherever a reader gets, it shows the characters of what is left of its text.

  From there a scan asks about the characters behind the first one, in order and once each, up to the first that is
  refused. It never asks about the first one nor about the end, and it is left in front of the one that was refused.
  Character by character, the reader would have come to the same place
  (`TextReader.consumes_first_and_accepted`).
-/

import TokenScan.Proofs.Progress
import TokenScan.Proofs.Walk

namespace TokenScan

variable {τ : Type} {grain : Grain} {e : Encoding}

namespace TextReader

/-! ## States of a reader -/

/-- The states that a reader over the text can get to. -/
inductive Reachable (text : List Char) : TextReader grain e → Prop
  | start : Reachable text (ofText text)
  | advance {r : TextReader grain e} : Reachable text r → Reachable text (Reader.advance r).2
  | advanceRange {r : TextReader grain e} : Reachable text r → Reachable text (Reader.advanceRange r).2
  | advanceWhile {r : TextReader grain e} {τ : Type} (extends? : List Char → StateM τ Bool) (t : τ) :
      Reachable text r → Reachable text (Reader.advanceWhile extends? r t).2.1
  | advanceWhileIn {r : TextReader grain e} (set : CharSet) :
      Reachable text r → Reachable text (Reader.advanceWhileIn set r).2

variable {text : List Char} {r : TextReader grain e}

/-- What moving on keeps holds wherever a reader gets. -/
theorem Reachable.keeps {P : TextReader grain e → Prop} (reached : Reachable text r)
    (step : ∀ r : TextReader grain e, P r → P (Reader.advance r).2) (start : P (ofText text)) : P r := by
  induction reached with
  | start => exact start
  | advance _ ih => exact step _ ih
  | @advanceRange r _ ih => exact (Reader.advanceRange_consumes r).keeps step ih
  | @advanceWhile r _ extends? t _ ih => exact (Reader.advanceWhile_consumes extends? r t).keeps step ih
  | @advanceWhileIn r set _ ih => exact (Reader.advanceWhileIn_consumes set r).keeps step ih

theorem advance_ready (r : TextReader grain e) (ready : r.Ready) : (Reader.advance r).2.Ready := by
  show r.advance.2.Ready
  unfold advance
  split
  · exact ready
  · exact r.moved_ready

theorem Reachable.ready (reached : Reachable text r) : r.Ready := reached.keeps advance_ready rfl

theorem characters_of_ready (ready : r.Ready) (inside : r.rest ≠ []) :
    grain.characters r.rest = r.current :: grain.characters r.moved.rest := by
  rw [Grain.characters_of_ne_nil inside, ← ready]
  rfl

/-- What a reader has before it are the last characters of its text. -/
theorem Reachable.isSuffix (reached : Reachable text r) : grain.characters r.rest <:+ grain.characters text := by
  refine (reached.keeps (P := fun r => r.Ready ∧ grain.characters r.rest <:+ grain.characters text) ?_ ⟨rfl, List.suffix_rfl⟩).2
  rintro r ⟨ready, suffix⟩
  refine ⟨advance_ready r ready, ?_⟩
  show grain.characters r.advance.2.rest <:+ _
  unfold TextReader.advance
  split
  · exact suffix
  · by_cases ended : r.rest = []
    · have nothing : r.moved.rest = [] := by rw [moved, ended, List.drop_nil]
      rw [nothing, Grain.characters_nil]
      exact List.nil_suffix
    · rw [characters_of_ready ready ended] at suffix
      exact (List.suffix_cons _ _).trans suffix

theorem current_of_ready (ready : r.Ready) : r.current = (grain.characters r.rest).head?.getD [] := by
  unfold current
  by_cases ended : r.rest = []
  · rw [ended, Grain.characters_nil, List.take_nil]
    rfl
  · rw [Grain.characters_of_ne_nil ended, ready]
    rfl

theorem advanceRange_of_ready (ready : r.Ready) (inside : r.rest ≠ []) :
    Reader.advanceRange r = (.ok (some ⟨r.offset, r.moved.offset⟩), r.moved) := by
  have going : Reader.atEnd r = false := by simpa [Reader.atEnd, atEnd] using inside
  have moved : Reader.advance r = (.ok !r.moved.atEnd, r.moved) := advance_of_ready ready inside
  have shown : r.current ∈ grain.characters r.rest := by
    rw [characters_of_ready ready inside]
    exact List.mem_cons_self
  have hne : r.current ≠ [] := Grain.ne_nil_of_mem_characters shown
  have forward : Reader.index r < Reader.index r.moved := Nat.lt_add_of_pos_right (Encoding.size_pos hne)
  exact Reader.advanceRange_of_forward going moved forward

theorem behind_of_ready (ready : r.Ready) {n : Nat} (few : n ≤ (grain.characters r.rest).length) :
    (Reader.behind r n).Ready ∧ grain.characters (Reader.behind r n).rest = (grain.characters r.rest).drop n := by
  induction n generalizing r with
  | zero => exact ⟨ready, rfl⟩
  | succ n ih =>
    have inside : r.rest ≠ [] := by
      intro ended
      rw [ended, Grain.characters_nil] at few
      cases few
    rw [characters_of_ready ready inside] at few ⊢
    rw [Reader.behind, advanceRange_of_ready ready inside]
    exact ih r.moved_ready (Nat.le_of_succ_le_succ few)

/-- As many characters as there are can be consumed one by one. -/
theorem advanceRange_behind (ready : r.Ready) {n : Nat} (few : n < (grain.characters r.rest).length) :
    Reader.advanceRange (Reader.behind r n) =
      (.ok (some ⟨(Reader.behind r n).offset, (Reader.behind r (n + 1)).offset⟩), Reader.behind r (n + 1)) := by
  obtain ⟨ready', left⟩ := behind_of_ready ready (Nat.le_of_lt few)
  have inside : (Reader.behind r n).rest ≠ [] := by
    intro ended
    rw [ended, Grain.characters_nil, eq_comm, List.drop_eq_nil_iff] at left
    omega
  rw [Reader.behind_succ_eq, advanceRange_of_ready ready' inside]

/-! ## Scans -/

/-- A scan before the end takes the first character and those that the predicate accepts behind it. -/
theorem advanceWhile_of_ready {first : List Char} {ahead : List (List Char)} (ready : r.Ready)
    (shows : grain.characters r.rest = first :: ahead) (extends? : List Char → StateM τ Bool) (t : τ) :
    let v := judge (refuses extends?) ahead t
    let r' := Reader.behind r (v.rejected.length + 1)
    Reader.advanceWhile extends? r t = (.ok (some ⟨r.offset, r'.offset⟩), r', v.state) := by
  have walks := walks_of_ready ready
  have grows : Piece.Growing (e.placed r.offset (grain.characters r.rest)) :=
    Encoding.placed_growing _ fun _ => Grain.ne_nil_of_mem_characters
  rw [shows, Encoding.placed] at walks grows
  obtain ⟨consumed, -⟩ := Reader.advanceWhile_of_walks extends? t walks
    (grows.sublist ((rejected_isPrefix _ _ t).sublist.cons_cons _))
  have same := judge_map (refuses extends?) Piece.text (e.placed (r.offset + e.size first) ahead) t
  rw [Encoding.map_text_placed] at same
  simp only [same, List.length_map]
  exact consumed

/-- In every state that a reader over a text can get to, with a predicate that keeps a state of its own. The reader
    has the last characters of its text before it. At the end, a scan brings nothing, asks nothing and changes
    nothing. Before the end, it asks about the characters behind the first one, in order and once each, up to the first
    that is refused or to the last, and never about the end. (`judge (refuses extends?)` rejects those that `extends?`
    accepts.) The range goes from where the reader was to where it is: in front of the one that was refused, or at the
    end. The reader comes to the same state and the same offset when the same characters are consumed one by one. -/
theorem consumes_first_and_accepted (reached : Reachable text r) (extends? : List Char → StateM τ Bool) (t : τ) :
    grain.characters r.rest <:+ grain.characters text ∧
    (grain.characters r.rest = [] → Reader.advanceWhile (recorded extends?) r (t, []) = (.ok none, r, t, [])) ∧
    ∀ first ahead, grain.characters r.rest = first :: ahead →
      let v := judge (refuses extends?) ahead t
      let r' := Reader.behind r (v.rejected.length + 1)
      Reader.advanceWhile (recorded extends?) r (t, []) = (.ok (some ⟨r.offset, r'.offset⟩), r', v.state, v.asked) ∧
        v.asked <+: ahead ∧ [] ∉ v.asked ∧
        grain.characters r'.rest = ahead.drop v.rejected.length ∧ r'.current = v.accepted.getD [] ∧
        ∀ i ≤ v.rejected.length, Reader.advanceRange (Reader.behind r i) =
          (.ok (some ⟨(Reader.behind r i).offset, (Reader.behind r (i + 1)).offset⟩), Reader.behind r (i + 1)) := by
  have ready := reached.ready
  refine ⟨reached.isSuffix, ?_, ?_⟩
  · intro hnil
    have ended : r.rest = [] := by rw [← grain.flatten_characters r.rest, hnil, List.flatten_nil]
    have atEnd : Reader.atEnd r = true := by simpa [Reader.atEnd, TextReader.atEnd] using ended
    rw [Reader.advanceWhile, if_pos atEnd]
  · intro first ahead shows v r'
    have asked : v.asked <+: ahead := Verdict.asked_isPrefix _ ahead t
    have few : v.rejected.length ≤ ahead.length := (rejected_isPrefix _ ahead t).length_le
    have inside : v.rejected.length + 1 ≤ (grain.characters r.rest).length := by
      rw [shows]
      exact Nat.succ_le_succ few
    obtain ⟨ready', left⟩ := behind_of_ready ready inside
    rw [shows, List.drop_succ_cons] at left
    refine ⟨?_, asked, ?_, left, ?_, ?_⟩
    · have consumed := advanceWhile_of_ready ready shows (recorded extends?) (t, [])
      have same : refuses (recorded extends?) = recorded (refuses extends?) := rfl
      rwa [same, judge_recorded] at consumed
    · intro mem
      have among : [] ∈ grain.characters r.rest := by
        rw [shows]
        exact List.mem_cons_of_mem first (asked.subset mem)
      exact Grain.ne_nil_of_mem_characters among rfl
    · rw [current_of_ready ready', left, head?_drop_rejected]
    · intro i within
      exact advanceRange_behind ready (Nat.lt_of_lt_of_le (Nat.lt_succ_of_le within) inside)

/-- A predicate that accepts once: behind a character of two units, it accepts the next one and refuses the one
    behind that. -/
theorem consumes_first_and_accepted_once :
    let text := ['a', '😀', 'ж', 'b']
    let r : TextReader .cluster .utf16 := (Reader.advanceRange (ofText text : TextReader .cluster .utf16)).2
    let once : List Char → StateM Nat Bool := fun _ n => (n == 0, n + 1)
    Reachable text r ∧
      Reader.advanceWhile (recorded once) r (0, []) = (.ok (some ⟨1, 4⟩), ⟨text, ['b'], 7, 4, 1⟩, 2, [['ж'], ['b']]) := by
  intro text r once
  have reached : Reachable text r := .advanceRange .start
  refine ⟨reached, ?_⟩
  obtain ⟨-, -, consumes⟩ := consumes_first_and_accepted reached once 0
  obtain ⟨consumed, -⟩ := consumes ['😀'] [['ж'], ['b']] (by decide +kernel)
  rw [consumed]
  decide +kernel

end TextReader

end TokenScan
