/-
  TokenScan.Proofs.RangeDecoding — what a host's range of a text means.

  A range is reversed, or one of its ends says what is wrong with it, the start first, or both ends have a
  place in the text: `Encoding.DecodesRange` has a rule for each, and decoding follows these rules and no
  others (`Encoding.tryNativeRange_eq_iff`). Since a text's places are ordered alike in all units, a range that
  is not reversed never comes out reversed, or empty without having been so, and a token over a range is
  refused rather than made empty (`Token.ofHostRange?_taken`).
-/

import TokenScan.Proofs.Decoding

namespace TokenScan

variable {e u : Encoding} {text before after : List Char} {κ : Type}

namespace Encoding

/-! ## Ranges -/

/-- What a host's range comes to: it goes wrong first for its order, then for its start, then for its stop. -/
inductive DecodesRange (e : Encoding) (text : List Char) (host : Span) : Except HostRangeError Span → Prop
  | reversed (order : host.stop < host.start) : DecodesRange e text host (.error (.reversed host.start host.stop))
  | start {wrong : HostRangeError} (order : host.start ≤ host.stop) (start : e.Decodes text host.start (.error wrong)) :
      DecodesRange e text host (.error wrong)
  | stop {a : Nat} {wrong : HostRangeError} (order : host.start ≤ host.stop)
      (start : e.Decodes text host.start (.ok a)) (stop : e.Decodes text host.stop (.error wrong)) :
      DecodesRange e text host (.error wrong)
  | both {a b : Nat} (order : host.start ≤ host.stop) (start : e.Decodes text host.start (.ok a))
      (stop : e.Decodes text host.stop (.ok b)) : DecodesRange e text host (.ok ⟨a, b⟩)

theorem DecodesRange.eq {host : Span} {answer : Except HostRangeError Span} (h : e.DecodesRange text host answer) :
    e.tryNativeRange text host = answer := by
  cases h with
  | reversed order =>
    rw [tryNativeRange, if_pos order]
    rfl
  | start order start =>
    simp only [tryNativeRange, if_neg (Nat.not_lt.mpr order), start.eq]
    rfl
  | stop order start stop =>
    simp only [tryNativeRange, if_neg (Nat.not_lt.mpr order), start.eq, stop.eq]
    rfl
  | both order start stop =>
    simp only [tryNativeRange, if_neg (Nat.not_lt.mpr order), start.eq, stop.eq]
    rfl

theorem exists_decodesRange (e : Encoding) (text : List Char) (host : Span) : ∃ answer, e.DecodesRange text host answer := by
  rcases Nat.lt_or_ge host.stop host.start with order | order
  · exact ⟨_, .reversed order⟩
  · obtain ⟨_ | a, start⟩ := e.exists_decodes text host.start
    · exact ⟨_, .start order start⟩
    · obtain ⟨_ | b, stop⟩ := e.exists_decodes text host.stop
      · exact ⟨_, .stop order start stop⟩
      · exact ⟨_, .both order start stop⟩

theorem tryNativeRange_eq_iff {host : Span} {answer : Except HostRangeError Span} :
    e.tryNativeRange text host = answer ↔ e.DecodesRange text host answer := by
  refine ⟨?_, DecodesRange.eq⟩
  rintro rfl
  obtain ⟨answer, h⟩ := e.exists_decodesRange text host
  rw [h.eq]
  exact h

theorem Decodes.error {offset : Nat} {wrong : HostRangeError} (h : e.Decodes text offset (.error wrong)) :
    u.Decodes text offset (.error wrong) := by
  cases h with
  | inside before after pair => exact .inside before after pair
  | beyond past => exact .beyond past

theorem Decodes.ok {offset n : Nat} (h : e.Decodes text offset (.ok n)) : ∃ n', u.Decodes text offset (.ok n') := by
  cases h with
  | between before after => exact ⟨_, .between before after⟩

theorem DecodesRange.error {host : Span} {wrong : HostRangeError} (h : e.DecodesRange text host (.error wrong)) :
    u.DecodesRange text host (.error wrong) := by
  cases h with
  | reversed order => exact .reversed order
  | start order start => exact .start order start.error
  | stop order start stop =>
    obtain ⟨_, start⟩ := start.ok (u := u)
    exact .stop order start stop.error

/-- A range that is not reversed does not come out reversed, nor empty if it was not. -/
theorem tryNativeRange_ordered {host span : Span} (h : e.tryNativeRange text host = .ok span) :
    span.start ≤ span.stop ∧ (span.start < span.stop ↔ host.start < host.stop) := by
  cases tryNativeRange_eq_iff.mp h with
  | both order start stop =>
    refine ⟨?_, ofHostOffset_lt_iff start.eq stop.eq⟩
    have := ofHostOffset_lt_iff stop.eq start.eq
    simp only
    omega

theorem ofHostOffset_isOk_iff {offset : Nat} :
    (∃ n, e.ofHostOffset text offset = .ok n) ↔ offset ∈ utf16.boundaries text := by
  constructor
  · rintro ⟨n, h⟩
    obtain ⟨before, after, whole, there, -⟩ := ofHostOffset_eq_ok_iff.mp h
    exact ⟨before, after, whole, there⟩
  · rintro ⟨before, after, whole, there⟩
    exact ⟨e.size before, ofHostOffset_eq_ok_iff.mpr ⟨before, after, whole, there, rfl⟩⟩

end Encoding

/-! ## Tokens -/

namespace Token

variable {host : Span}

/-- If a host's range means one that covers something, the token over it is made. -/
theorem ofHostRange?_of_covers {span : Span} (kind : κ) (h : e.tryNativeRange text host = .ok span)
    (covers : span.start < span.stop) :
    ofHostRange? kind host text = (.ok (some { span with kind }) : Except Fault (Option (Token e κ))) := by
  have native : e.nativeRange? text host = some span := by
    rw [Encoding.nativeRange?, h]
    rfl
  rw [ofHostRange?, native, Option.filter_some, if_pos (by simpa using covers), ofSpan?, ofSpan, if_pos covers]
  rfl

/-- Otherwise there is none, and nothing breaks off. -/
theorem ofHostRange?_of_not (kind : κ) (h : ∀ span, e.tryNativeRange text host = .ok span → ¬span.start < span.stop) :
    ofHostRange? kind host text = (.ok none : Except Fault (Option (Token e κ))) := by
  have nothing : (e.nativeRange? text host).filter (fun span => span.start < span.stop) = none := by
    rw [Encoding.nativeRange?]
    cases ran : e.tryNativeRange text host with
    | error wrong => rfl
    | ok span =>
      have empty := h span ran
      show Option.filter _ (some span) = none
      rw [Option.filter_some, if_neg (by simpa using empty)]
  rw [ofHostRange?, nothing]
  rfl

/-- A token over a host's range is made exactly if the range covers something and both its ends are
    boundaries, and the host knows it by that range. -/
theorem ofHostRange?_taken (e : Encoding) (kind : κ) (host : Span) (text : List Char) :
    ∃ token? : Option (Token e κ), ofHostRange? kind host text = .ok token? ∧
      (token?.isSome ↔ host.start < host.stop ∧ host.start ∈ Encoding.utf16.boundaries text ∧
        host.stop ∈ Encoding.utf16.boundaries text) ∧
      ∀ t ∈ token?, t.kind = kind ∧ t.hostRange text = host := by
  by_cases covers : host.start < host.stop ∧ host.start ∈ Encoding.utf16.boundaries text ∧
      host.stop ∈ Encoding.utf16.boundaries text
  · obtain ⟨order, start, stop⟩ := covers
    obtain ⟨a, start_ok⟩ := Encoding.ofHostOffset_isOk_iff (e := e).mpr start
    obtain ⟨b, stop_ok⟩ := Encoding.ofHostOffset_isOk_iff (e := e).mpr stop
    have native : e.tryNativeRange text host = .ok ⟨a, b⟩ :=
      Encoding.tryNativeRange_eq_iff.mpr (.both (Nat.le_of_lt order) (Encoding.ofHostOffset_eq_iff.mp start_ok)
        (Encoding.ofHostOffset_eq_iff.mp stop_ok))
    refine ⟨_, ofHostRange?_of_covers kind native ((Encoding.ofHostOffset_lt_iff start_ok stop_ok).mpr order),
      by simp [order, start, stop], ?_⟩
    rintro t ⟨⟩
    refine ⟨rfl, ?_⟩
    rw [hostRange, Encoding.toHostOffset_of_ok start_ok, Encoding.toHostOffset_of_ok stop_ok]
  · refine ⟨none, ofHostRange?_of_not kind ?_, by simpa using covers, by simp⟩
    intro span native order
    cases Encoding.tryNativeRange_eq_iff.mp native with
    | both _ start stop =>
      exact covers ⟨(Encoding.ofHostOffset_lt_iff start.eq stop.eq).mp order,
        Encoding.ofHostOffset_isOk_iff.mp ⟨_, start.eq⟩, Encoding.ofHostOffset_isOk_iff.mp ⟨_, stop.eq⟩⟩

end Token

/-- What a host's range comes to, in all units, and the token over it. -/
structure RangeConverts (text : List Char) (host : Span) : Prop where
  offset_iff : ∀ (e : Encoding) offset answer, e.ofHostOffset text offset = answer ↔ e.Decodes text offset answer
  range_iff : ∀ (e : Encoding) answer, e.tryNativeRange text host = answer ↔ e.DecodesRange text host answer
  reversed_iff : ∀ e : Encoding,
    e.tryNativeRange text host = .error (.reversed host.start host.stop) ↔ host.stop < host.start
  ordered : ∀ (e : Encoding) span, e.tryNativeRange text host = .ok span →
    span.start ≤ span.stop ∧ (span.start < span.stop ↔ host.start < host.stop)
  same_errors : ∀ (e u : Encoding) wrong,
    e.tryNativeRange text host = .error wrong ↔ u.tryNativeRange text host = .error wrong
  token : ∀ (e : Encoding) {κ : Type} (kind : κ), ∃ token? : Option (Token e κ),
    Token.ofHostRange? kind host text = .ok token? ∧
      (token?.isSome ↔ host.start < host.stop ∧ host.start ∈ Encoding.utf16.boundaries text ∧
        host.stop ∈ Encoding.utf16.boundaries text) ∧
      ∀ t ∈ token?, t.kind = kind ∧ t.hostRange text = host

/-- A host's range goes wrong for its order, its start or its stop, in this order and alike in all units;
    else it means a range that covers something if and only if it does itself. A token over it is made in
    just this case, with nothing breaking off, and the host knows the token by that range. -/
theorem host_range_converts (text : List Char) (host : Span) : RangeConverts text host where
  offset_iff _ _ _ := Encoding.ofHostOffset_eq_iff
  range_iff _ _ := Encoding.tryNativeRange_eq_iff
  reversed_iff e := by
    rw [Encoding.tryNativeRange_eq_iff]
    refine ⟨fun h => ?_, .reversed⟩
    cases h with
    | reversed order => exact order
    | start _ start => exact absurd start Encoding.not_decodes_reversed
    | stop _ _ stop => exact absurd stop Encoding.not_decodes_reversed
  ordered _ _ h := Encoding.tryNativeRange_ordered h
  same_errors _ _ _ := by
    rw [Encoding.tryNativeRange_eq_iff, Encoding.tryNativeRange_eq_iff]
    exact ⟨.error, .error⟩
  token e _ kind := Token.ofHostRange?_taken e kind host text

/-- The error of the start is told before that of the stop, and an order that is reversed before both. -/
example :
    let text := ['a', '😀', 'b']
    Encoding.utf8.tryNativeRange text ⟨1, 3⟩ = .ok ⟨1, 5⟩ ∧
      Encoding.utf8.tryNativeRange text ⟨2, 9⟩ = .error (.splitsSurrogatePair 2) ∧
      Encoding.utf8.tryNativeRange text ⟨9, 2⟩ = .error (.reversed 9 2) := ⟨rfl, rfl, rfl⟩

end TokenScan
