/-
  TokenScan.Proofs.Stalling — a reader that stalls is reported at the very character where it stalled.

  A reader may walk pieces of which some cover nothing: there its index does not grow. Every step is checked before
  anything else is asked, so a scan breaks off at the first such piece, whether it comes first, in the middle of a
  run or as its last character, and the fault names where that piece starts, not where the run does
  (`Reader.scan_of_stall`).

  A stream of characters brings the tokens of the pieces in front of it, and then breaks off
  (`CharStream.breaksAfter_of_stall`). For a stream of runs, the characters that join a run with it are lost: what
  comes is the tokens of the runs in front of that run (`RunStream.breaksAfter_of_stall`).
-/

import Mathlib.Data.List.DropRight
import TokenScan.Proofs.Runs

namespace TokenScan

open Reader (Walks)
open Stream'.Seq (ofList)

variable {ρ σ α τ : Type} {e : Encoding}

/-! ## Sources that break off -/

/-- The source brings these items, and the call behind them breaks off. -/
inductive Source.BreaksAfter [Source Id σ α] (fault : Fault) : σ → List α → Prop
  | off {s s' : σ} : call s = (.error fault, s') → BreaksAfter fault s []
  | item {s s' : σ} {a : α} {items : List α} :
      call s = (.ok (some a), s') → BreaksAfter fault s' items → BreaksAfter fault s (a :: items)

/-! ## Where a reader stalls -/

theorem Piece.exists_stall {pieces : List Piece} (h : ¬Growing pieces) :
    ∃ good bad rest, pieces = good ++ bad :: rest ∧ Growing good ∧ bad.span.stop ≤ bad.span.start := by
  induction pieces with
  | nil => exact absurd (List.forall_mem_nil _) h
  | cons p pieces ih =>
    by_cases grows : p.span.start < p.span.stop
    · obtain ⟨good, bad, rest, rfl, growing, stalls⟩ := ih fun growing => h (List.forall_mem_cons.mpr ⟨grows, growing⟩)
      exact ⟨p :: good, bad, rest, rfl, List.forall_mem_cons.mpr ⟨grows, growing⟩, stalls⟩
    · exact ⟨[], p, pieces, rfl, List.forall_mem_nil _, Nat.le_of_not_lt grows⟩

/-- The characters in front of some character, up to where its run starts, and those of its run. -/
structure RunUpTo (before run : List Piece) (last : Piece) : Prop where
  alike : ∀ p ∈ run, (classify p.text).joins (classify last.text) = true
  maximal : ∀ p ∈ before.getLast?, (classify p.text).joins (classify last.text) = false

/-- The run of a character starts somewhere in front of it, or with it. -/
theorem exists_runUpTo (good : List Piece) (last : Piece) : ∃ before run, good = before ++ run ∧ RunUpTo before run last := by
  let joined (p : Piece) : Bool := (classify p.text).joins (classify last.text)
  refine ⟨good.rdropWhile joined, good.rtakeWhile joined, List.rdropWhile_append_rtakeWhile.symm, ?_, ?_⟩
  · intro p mem
    exact List.mem_rtakeWhile_imp (p := joined) mem
  · intro p mem
    obtain ⟨hne, rfl⟩ := List.mem_getLast?_eq_getLast mem
    simpa only [Bool.not_eq_true] using List.rdropWhile_last_not joined good hne

/-- What is taken from the front of a list, and what is left, is decided in its first part, if there is a break
    behind that. -/
theorem takeWhile_append_of_parted {p : α → Bool} {s t : List α} (parted : (∀ a ∈ s, p a = true) → ∀ b ∈ t.head?, p b = false) :
    (s ++ t).takeWhile p = s.takeWhile p ∧ (s ++ t).dropWhile p = s.dropWhile p ++ t := by
  induction s with
  | nil =>
    have apart := parted (List.forall_mem_nil _)
    cases t with
    | nil => exact ⟨rfl, rfl⟩
    | cons b t => simp [apart b rfl]
  | cons a s ih =>
    by_cases taken : p a = true
    · have further := ih fun all => parted (List.forall_mem_cons.mpr ⟨taken, all⟩)
      simpa [taken] using further
    · simp [taken]

/-- Where all of the characters in front of it would join a run, it starts another one. -/
theorem RunUpTo.parted {first last : Piece} {before run : List Piece} (h : RunUpTo (first :: before) run last) (rest : List Piece)
    (ha : ∀ p ∈ before, (classify first.text).joins (classify p.text) = true) :
    ∀ p ∈ (run ++ last :: rest).head?, (classify first.text).joins (classify p.text) = false := by
  intro p mem
  rw [Bool.eq_false_iff]
  intro joined
  have reaches : (classify first.text).joins (classify last.text) = true := by
    cases run with
    | nil =>
      obtain rfl : last = p := by simpa using mem
      exact joined
    | cons q run =>
      obtain rfl : q = p := by simpa using mem
      exact CharKind.joins_trans joined (h.alike q List.mem_cons_self)
  have apart := h.maximal (before.getLast?.getD first) (by rw [List.getLast?_cons]; rfl)
  cases ends : before.getLast? with
  | none =>
    rw [ends, Option.getD_none, reaches] at apart
    cases apart
  | some p =>
    have back := CharKind.joins_symm (ha p (List.mem_of_getLast? ends))
    rw [ends, Option.getD_some, CharKind.joins_trans back reaches] at apart
    cases apart

namespace Reader

variable [Reader ρ e] {r : ρ} {run rest : List Piece} {bad : Piece}

theorem advanceRange_of_stall (w : Walks r (bad :: rest)) (stalls : bad.span.stop ≤ bad.span.start) :
    ∃ r', advanceRange r = (.error (.stalled e bad.span.start), r') := by
  obtain ⟨-, start, r', moved, stop, -⟩ := w.uncons
  refine ⟨r', ?_⟩
  unfold advanceRange
  rw [atEnd_of_walks w, moved]
  simp only [List.isEmpty_cons, Bool.false_eq_true, if_false, start, stop, if_neg (Nat.not_lt.mpr stalls)]

/-- A scan that would go on breaks off where the reader stalls. -/
theorem scan_of_stall (extends? : List Char → StateM τ Bool) (t : τ) (w : Walks r (run ++ bad :: rest))
    (growing : Piece.Growing run) (goes : ∀ p ∈ run ++ [bad], ∀ t, (extends? p.text t).1 = true)
    (stalls : bad.span.stop ≤ bad.span.start) :
    ∃ r' t', scan extends? r t = (.error (.stalled e bad.span.start), r', t') := by
  induction run generalizing r t with
  | nil =>
    obtain ⟨-, start, r', moved, stop, -⟩ := w.uncons
    refine ⟨r', t, ?_⟩
    unfold scan
    rw [moved]
    simp only [start, stop, if_neg (Nat.not_lt.mpr stalls)]
  | cons p run ih =>
    obtain ⟨next, more, ahead, mem⟩ : ∃ next more, run ++ bad :: rest = next :: more ∧ next ∈ run ++ [bad] := by
      cases run with
      | nil => exact ⟨bad, rest, rfl, List.mem_cons_self⟩
      | cons q run => exact ⟨q, run ++ bad :: rest, rfl, List.mem_cons_self⟩
    rw [List.cons_append, ahead] at w
    obtain ⟨r', -, -, walks, goes_on⟩ := scan_onto w growing.head
    rw [← ahead] at walks
    rw [goes_on, goes next (List.mem_cons_of_mem p mem) t, if_pos rfl]
    exact ih _ walks growing.tail fun q mem => goes q (List.mem_cons_of_mem p mem)

theorem advanceWhileIn_of_stall {set : CharSet} (w : Walks r (run ++ bad :: rest)) (growing : Piece.Growing run)
    (inside : ∀ p ∈ run ++ [bad], set.contains p.text = true) (stalls : bad.span.stop ≤ bad.span.start) :
    ∃ r', advanceWhileIn set r = (.error (.stalled e bad.span.start), r') := by
  obtain ⟨r', t', broke⟩ := scan_of_stall (fun c => (pure (set.contains c) : StateM Unit Bool)) () w growing
    (fun p mem _ => inside p mem) stalls
  have going : atEnd r = false := by
    rw [atEnd_of_walks w]
    simp
  refine ⟨r', ?_⟩
  simp only [advanceWhileIn, advanceWhile, going, broke, Bool.false_eq_true, if_false]

end Reader

/-! ## Streams over a reader that stalls -/

section

variable [Reader ρ e] {r : ρ} {before good run rest : List Piece} {bad : Piece}

/-- A stream of characters brings the tokens in front of the piece where the reader stalls. -/
theorem CharStream.breaksAfter_of_stall (w : Walks r (good ++ bad :: rest)) (growing : Piece.Growing good)
    (stalls : bad.span.stop ≤ bad.span.start) :
    Source.BreaksAfter (.stalled e bad.span.start) (⟨r⟩ : CharStream ρ) (good.map (Piece.token e)) := by
  induction good generalizing r with
  | nil =>
    obtain ⟨r', broke⟩ := Reader.advanceRange_of_stall w stalls
    have called : Source.call (⟨r⟩ : CharStream ρ) = (.error (.stalled e bad.span.start), ⟨r'⟩) := by
      show CharStream.next _ = _
      unfold CharStream.next
      rw [Reader.atEnd_of_walks w, broke]
      rfl
    exact .off called
  | cons p good ih =>
    obtain ⟨r', called, walks⟩ := CharStream.call_of_walks w growing.head
    exact .item called (ih walks growing.tail)

namespace RunStream

/-- Consuming a run breaks off where the reader stalls, wherever in the run that is. -/
theorem advance_of_stall (w : Walks r (run ++ bad :: rest)) (growing : Piece.Growing run)
    (alike : ∀ p ∈ run, (classify p.text).joins (classify bad.text) = true) (stalls : bad.span.stop ≤ bad.span.start) :
    ∃ r', advance (classify (Reader.current r)) r = (.error (.stalled e bad.span.start), r') := by
  cases run with
  | nil =>
    rw [w.uncons.1]
    cases kind : classify bad.text with
    | member set =>
      refine Reader.advanceWhileIn_of_stall w growing ?_ stalls
      simpa using (classify_eq_member_iff bad.text set).mp kind
    | mark m => exact Reader.advanceRange_of_stall w stalls
    | other => exact Reader.advanceRange_of_stall w stalls
  | cons first run =>
    obtain ⟨set, kind, kind'⟩ := CharKind.joins_iff.mp (alike first List.mem_cons_self)
    rw [w.uncons.1, kind]
    refine Reader.advanceWhileIn_of_stall w growing ?_ stalls
    intro p mem
    rw [← classify_eq_member_iff]
    rcases List.mem_append.mp mem with mem | mem
    · obtain ⟨other, kind'', same⟩ := CharKind.joins_iff.mp (alike p mem)
      rw [kind'', ← same, kind']
    · rw [List.mem_singleton.mp mem, kind']

theorem call_of_stall (w : Walks r (run ++ bad :: rest)) (growing : Piece.Growing run)
    (alike : ∀ p ∈ run, (classify p.text).joins (classify bad.text) = true) (stalls : bad.span.stop ≤ bad.span.start) :
    ∃ s', Source.call (⟨r⟩ : RunStream ρ) = (.error (.stalled e bad.span.start), s') := by
  obtain ⟨r', broke⟩ := advance_of_stall w growing alike stalls
  have going : Reader.atEnd r = false := by
    rw [Reader.atEnd_of_walks w]
    simp
  refine ⟨⟨r'⟩, ?_⟩
  show RunStream.next _ = _
  simp only [RunStream.next, going, broke, Bool.false_eq_true, if_false]

/-- Behind the runs in front of it, a run goes up to the piece where the reader stalls, and no farther. -/
theorem breaksAfter_of_stall (w : Walks r (before ++ (run ++ bad :: rest))) (growing : Piece.Growing (before ++ run))
    (upTo : RunUpTo before run bad) (stalls : bad.span.stop ≤ bad.span.start) :
    Source.BreaksAfter (.stalled e bad.span.start) (⟨r⟩ : RunStream ρ) (compact (before.map (Piece.token e))) := by
  induction size : before.length using Nat.strong_induction_on generalizing before r with
  | _ size ih =>
    cases before with
    | nil =>
      obtain ⟨s', broke⟩ := call_of_stall w growing upTo.alike stalls
      exact .off broke
    | cons first before =>
      let joined (p : Piece) : Bool := (classify first.text).joins (classify p.text)
      rw [List.cons_append] at w
      obtain ⟨taken, left⟩ := takeWhile_append_of_parted (upTo.parted rest)
      have grows : Piece.Growing (first :: (before ++ (run ++ bad :: rest)).takeWhile joined) := by
        rw [taken]
        exact growing.sublist (((List.takeWhile_sublist joined).trans (List.sublist_append_left before run)).cons_cons first)
      obtain ⟨r', called, walks⟩ := call_of_walks w grows
      rw [left] at walks
      rw [taken] at called
      rw [compact_pieces]
      refine .item called (ih _ ?_ walks ?_ ?_ rfl)
      · rw [← size]
        exact Nat.lt_succ_of_le (List.dropWhile_sublist joined).length_le
      · exact growing.tail.sublist ((List.dropWhile_sublist joined).append_right run)
      · refine ⟨upTo.alike, fun p mem => upTo.maximal p ?_⟩
        obtain ⟨here, whole⟩ := (List.dropWhile_suffix joined).trans (List.suffix_cons first before)
        rw [← whole, List.getLast?_append, Option.mem_def.mp mem, Option.some_or]
        exact rfl

end RunStream

/-- Over a reader that walks any pieces. If each of them covers something, neither stream breaks off. If not, let `bad`
    be the first that covers nothing. Both streams break off with the fault that names where it starts: the stream
    of characters behind the tokens of all characters in front of it, and the stream of runs behind the runs of those
    in front of its own run. A reader with listed characters and offsets walks these, whatever they are
    (`ListedReader.walks`). -/
theorem stall_is_reported_where_it_is {pieces : List Piece} (w : Walks r pieces) :
    (Piece.Growing pieces →
      Source.Yields (⟨r⟩ : CharStream ρ) (ofList (pieces.map (Piece.token e))) ∧
        Source.Yields (⟨r⟩ : RunStream ρ) (ofList (RunStream.compact (pieces.map (Piece.token e))))) ∧
    (¬Piece.Growing pieces → ∃ good bad rest, pieces = good ++ bad :: rest ∧ Piece.Growing good ∧
      bad.span.stop ≤ bad.span.start) ∧
    ∀ good bad rest, pieces = good ++ bad :: rest → Piece.Growing good → bad.span.stop ≤ bad.span.start →
      let fault := Fault.stalled e bad.span.start
      fault.message = "reader failed to advance past " ++ e.describeOffset bad.span.start ∧
        Source.BreaksAfter fault (⟨r⟩ : CharStream ρ) (good.map (Piece.token e)) ∧
        (∃ before run, good = before ++ run ∧ RunUpTo before run bad) ∧
        ∀ before run, good = before ++ run → RunUpTo before run bad →
          Source.BreaksAfter fault (⟨r⟩ : RunStream ρ) (RunStream.compact (before.map (Piece.token e))) := by
  refine ⟨fun growing => ⟨CharStream.yields_of_walks w growing, RunStream.yields_compact w growing⟩,
    Piece.exists_stall, ?_⟩
  rintro good bad rest rfl growing stalls fault
  refine ⟨rfl, CharStream.breaksAfter_of_stall w growing stalls, exists_runUpTo good bad, ?_⟩
  rintro before run rfl upTo
  rw [List.append_assoc] at w
  exact RunStream.breaksAfter_of_stall w growing upTo stalls

/-- A digit, and letters of which the third covers nothing: the first two of them are not brought as a run. -/
theorem stall_is_reported_where_it_is_inside_run :
    let entries : List (List Char × Nat) := [(['1'], 4), (['a'], 5), (['b'], 6), (['c'], 6), (['d'], 9)]
    Walks (⟨3, entries⟩ : ListedReader .utf8) (ListedReader.pieces 3 entries) ∧
      Source.BreaksAfter (.stalled .utf8 6) (⟨⟨3, entries⟩⟩ : CharStream (ListedReader .utf8))
        [⟨⟨3, 4⟩, .member .decimalDigits⟩, ⟨⟨4, 5⟩, .member .lowercaseLetters⟩, ⟨⟨5, 6⟩, .member .lowercaseLetters⟩] ∧
      Source.BreaksAfter (.stalled .utf8 6) (⟨⟨3, entries⟩⟩ : RunStream (ListedReader .utf8))
        [⟨⟨3, 4⟩, .run .decimalDigits⟩] := by
  intro entries
  have walks : Walks (⟨3, entries⟩ : ListedReader .utf8) _ := ListedReader.walks 3 entries
  refine ⟨walks, ?_⟩
  obtain ⟨-, -, stalled⟩ := stall_is_reported_where_it_is walks
  let before : List Piece := [⟨['1'], ⟨3, 4⟩⟩]
  let run : List Piece := [⟨['a'], ⟨4, 5⟩⟩, ⟨['b'], ⟨5, 6⟩⟩]
  let bad : Piece := ⟨['c'], ⟨6, 6⟩⟩
  obtain ⟨-, characters, -, runs⟩ := stalled (before ++ run) bad [⟨['d'], ⟨6, 9⟩⟩] rfl (by decide) (by decide)
  have upTo : RunUpTo before run bad := by
    refine ⟨?_, ?_⟩
    · decide +kernel
    · decide +kernel
  have kinds : (before ++ run).map (Piece.token .utf8) =
      [⟨⟨3, 4⟩, .member .decimalDigits⟩, ⟨⟨4, 5⟩, .member .lowercaseLetters⟩, ⟨⟨5, 6⟩, .member .lowercaseLetters⟩] := by
    decide +kernel
  have compacted : RunStream.compact (before.map (Piece.token .utf8)) = [⟨⟨3, 4⟩, .run .decimalDigits⟩] := by
    decide +kernel
  rw [kinds] at characters
  have brought := runs before run rfl upTo
  rw [compacted] at brought
  exact ⟨characters, brought⟩

end

end TokenScan
