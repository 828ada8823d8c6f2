/-
  TokenScan.Proofs.Groups — a stream of words is the greedy grouping of the characters it reads.

  `CharKind.groupKind` and `WordKind.takes` state the rule: the first character decides the
  kind of a group, and the kind decides which characters the group goes on with. `groups`
  cuts a list of tokens accordingly: each group is as long as the rule lets it be, but has
  `limit` tokens at most, and always one.

  Asking for a word takes one group from the characters that the buffer holds and leaves the
  others (`WordStream.call_of_holds`). So a stream of words yields one token over each group
  (`WordStream.yields_of_holds`), and after every call its buffer holds just the characters
  that no group has taken (`WordStream.after_holds`).
-/

import TokenScan.Proofs.Operations
import TokenScan.Proofs.Walk
import TokenScan.Word

namespace TokenScan

open Stream'.Seq (ofList)

variable {e : Encoding}

/-! ## The rule -/

namespace CharKind

/-- What words start with: the underscore counts as a letter. -/
def letters : List CharKind := [lowercaseLetter, uppercaseLetter, .mark .underscore]

def wordKinds : List CharKind := digit :: letters

def whitespaceKinds : List CharKind := [.mark .tab, .mark .space, .mark .newline]

/-- The kind of the group that a character of this kind starts. -/
def groupKind (kind : CharKind) : WordKind :=
  if kind ∈ letters then .word
  else if kind = digit then .number
  else if kind ∈ whitespaceKinds then .whitespace
  else .symbol

end CharKind

namespace WordKind

/-- Whether a group of this kind goes on with a character of that kind. -/
def takes : WordKind → CharKind → Prop
  | word, kind => kind ∈ CharKind.wordKinds
  | number, kind => kind = .digit
  | whitespace, kind => kind ∈ CharKind.whitespaceKinds
  | symbol, kind => kind ∉ CharKind.wordKinds ∧ kind ∉ CharKind.whitespaceKinds

instance (w : WordKind) (kind : CharKind) : Decidable (w.takes kind) :=
  match w with
  | word => inferInstanceAs (Decidable (kind ∈ CharKind.wordKinds))
  | number => inferInstanceAs (Decidable (kind = .digit))
  | whitespace => inferInstanceAs (Decidable (kind ∈ CharKind.whitespaceKinds))
  | symbol => inferInstanceAs (Decidable (kind ∉ CharKind.wordKinds ∧ kind ∉ CharKind.whitespaceKinds))

theorem ofFirst_eq (kind : CharKind) : ofFirst kind = kind.groupKind := by
  cases kind with
  | mark m => cases m <;> rfl
  | member set => cases set <;> rfl
  | other => rfl

/-- The tables of kinds that a scan goes by say what a group does not take. -/
theorem stops_eq (kind : CharKind) :
    (!CharKind.wordCharacters.contains kind) = !decide (word.takes kind) ∧
      (kind != .digit) = !decide (number.takes kind) ∧
      (!CharKind.whitespace.contains kind) = !decide (whitespace.takes kind) ∧
      CharKind.symbolTerminators.contains kind = !decide (symbol.takes kind) := by
  cases kind with
  | mark m => cases m <;> exact ⟨rfl, rfl, rfl, rfl⟩
  | member set => cases set <;> exact ⟨rfl, rfl, rfl, rfl⟩
  | other => exact ⟨rfl, rfl, rfl, rfl⟩

theorem continues_eq {m : Type → Type} [Monad m] (w : WordKind) (chars : Lookahead m (Token e CharKind)) :
    w.continues chars = chars.nextUntil fun c => pure (!decide (w.takes c.kind)) := by
  cases w with
  | word => exact congrArg chars.nextUntil (funext fun c => congrArg pure (stops_eq c.kind).1)
  | number => exact congrArg chars.nextUntil (funext fun c => congrArg pure (stops_eq c.kind).2.1)
  | whitespace => exact congrArg chars.nextUntil (funext fun c => congrArg pure (stops_eq c.kind).2.2.1)
  | symbol => exact congrArg chars.nextUntil (funext fun c => congrArg pure (stops_eq c.kind).2.2.2)

theorem takes_groupKind (kind : CharKind) : kind.groupKind.takes kind := by
  cases kind with
  | mark m => cases m <;> decide
  | member set => cases set <;> decide
  | other => decide

end WordKind

/-! ## Groups -/

/-- The tokens behind `first` that its group goes on with: the longest prefix of them that it
    takes, cut so that the group has at most `limit` tokens, or one. -/
def groupedWith (limit : Nat) (first : Token e CharKind) (rest : List (Token e CharKind)) : List (Token e CharKind) :=
  (rest.take (max 1 limit - 1)).takeWhile fun t => first.kind.groupKind.takes t.kind

def groups (limit : Nat) : List (Token e CharKind) → List (List (Token e CharKind))
  | [] => []
  | first :: rest =>
    let more := groupedWith limit first rest
    (first :: more) :: groups limit (rest.drop more.length)
termination_by tokens => tokens.length
decreasing_by simp only [List.length_drop, List.length_cons]; omega

variable {limit : Nat} {first : Token e CharKind} {rest tokens : List (Token e CharKind)}

theorem groups_cons (limit : Nat) (first : Token e CharKind) (rest : List (Token e CharKind)) :
    groups limit (first :: rest) =
      (first :: groupedWith limit first rest) :: groups limit (rest.drop (groupedWith limit first rest).length) := by
  rw [groups]

theorem groupedWith_append (limit : Nat) (first : Token e CharKind) (rest : List (Token e CharKind)) :
    groupedWith limit first rest ++ rest.drop (groupedWith limit first rest).length = rest :=
  List.prefix_iff_eq_append.mp ((List.takeWhile_prefix _).trans (List.take_prefix _ rest))

theorem groupedWith_zero (first : Token e CharKind) (rest : List (Token e CharKind)) : groupedWith 0 first rest = [] := by
  simp [groupedWith]

/-- Among the first tokens, those that a group takes are the group. -/
theorem takeWhile_take_of_pos (hl : 0 < limit) (first : Token e CharKind) (rest : List (Token e CharKind)) :
    ((first :: rest).take limit).takeWhile (fun t => first.kind.groupKind.takes t.kind) =
      first :: groupedWith limit first rest := by
  cases limit with
  | zero => cases hl
  | succ n =>
    have : max 1 (n + 1) - 1 = n := by omega
    rw [List.take_succ_cons, List.takeWhile_cons_of_pos, groupedWith, this]
    simpa using WordKind.takes_groupKind first.kind

theorem flatten_groups (limit : Nat) (tokens : List (Token e CharKind)) : (groups limit tokens).flatten = tokens := by
  fun_induction groups limit tokens with
  | case1 => rfl
  | case2 first rest more ih => rw [List.flatten_cons, ih, List.cons_append, groupedWith_append]

theorem groups_flatten_tail (limit : Nat) (tokens : List (Token e CharKind)) :
    groups limit (groups limit tokens).tail.flatten = (groups limit tokens).tail := by
  cases tokens with
  | nil => simp [groups]
  | cons first rest => rw [groups_cons, List.tail_cons, flatten_groups]

/-- Groups are told by kinds, not by where the tokens are. -/
theorem groups_mapOffsets {u : Encoding} (limit : Nat) (f : Nat → Nat) (tokens : List (Token e CharKind)) :
    groups limit (tokens.map (Token.mapOffsets f : Token e CharKind → Token u CharKind)) =
      (groups limit tokens).map (List.map (Token.mapOffsets f)) := by
  fun_induction groups limit tokens with
  | case1 => simp [groups]
  | case2 first rest more ih =>
    have same : groupedWith limit (first.mapOffsets f : Token u CharKind) (rest.map (Token.mapOffsets f)) =
        more.map (Token.mapOffsets f) := by
      rw [groupedWith, ← List.map_take, List.takeWhile_map]
      rfl
    rw [List.map_cons, groups_cons, same, List.length_map, ← List.map_drop, ih]
    rfl

def grouped (limit : Nat) (tokens : List (Token e CharKind)) : List (Token e WordKind) :=
  Token.cover CharKind.groupKind (groups limit tokens)

theorem grouped_mapOffsets {u : Encoding} (limit : Nat) (f : Nat → Nat) (tokens : List (Token e CharKind)) :
    grouped limit (tokens.map (Token.mapOffsets f : Token e CharKind → Token u CharKind)) =
      (grouped limit tokens).map (Token.mapOffsets f) := by
  rw [grouped, groups_mapOffsets, Token.cover_mapOffsets, grouped]

theorem grouped_flatten_tail (limit : Nat) (tokens : List (Token e CharKind)) :
    grouped limit (groups limit tokens).tail.flatten = (grouped limit tokens).tail := by
  rw [grouped, groups_flatten_tail, grouped]
  cases tokens with
  | nil => simp [groups]
  | cons first rest => rw [groups_cons, Token.cover_cons, List.tail_cons, List.tail_cons]

theorem grouped_tiles {start stop : Nat} (limit : Nat) (h : Tiles start stop tokens) :
    Tiles start stop (grouped limit tokens) := by
  refine Tiles.cover CharKind.groupKind ?_
  rw [flatten_groups]
  exact h

/-! ## One word from a buffer -/

namespace Buffer

variable {σ : Type} [Source Id σ (Token e CharKind)] {b : Buffer σ (Token e CharKind)}

theorem nextWord_of_holds_nil (h : b.Holds (ofList [])) :
    ∃ b', nextWord direct b = (.ok none, b') ∧ b'.Holds (ofList []) ∧ b'.limits = b.limits := by
  obtain ⟨b', peeked, holds, limits⟩ := peek_of_holds h
  refine ⟨b', ?_, holds, limits⟩
  unfold nextWord
  rw [ScanT.bind_ok peeked]
  rfl

theorem nextWord_of_holds (h : b.Holds (ofList (first :: rest)))
    (covers : first.start < ((groupedWith b.limits.items first rest).getLast?.getD first).stop) :
    ∃ b', nextWord direct b =
        (.ok (some ⟨⟨first.start, ((groupedWith b.limits.items first rest).getLast?.getD first).stop⟩,
          first.kind.groupKind⟩), b') ∧
      b'.Holds (ofList (rest.drop (groupedWith b.limits.items first rest).length)) ∧ b'.limits = b.limits := by
  obtain ⟨b₁, peeked, holds₁, limits₁⟩ := peek_of_holds h
  obtain ⟨b₂, taken, holds₂, limits₂⟩ := nextUntil_of_holds holds₁ fun c => !decide (first.kind.groupKind.takes c.kind)
  simp only [limits₁, Bool.not_not, Items.take_ofList] at taken holds₂ limits₂
  unfold nextWord
  rw [ScanT.bind_ok peeked]
  simp only [Stream'.Seq.ofList_cons, Stream'.Seq.head_cons, WordKind.ofFirst_eq, WordKind.continues_eq]
  rw [ScanT.bind_ok taken]
  by_cases hz : b.limits.items = 0
  · -- the scan takes nothing, and the first character is taken by itself
    simp only [hz, List.take_zero, List.takeWhile_nil, groupedWith_zero, List.getLast?_nil, Option.getD_none]
      at holds₂ covers ⊢
    obtain ⟨b₃, consumed, holds₃, limits₃⟩ := next_of_holds holds₂
    have consumed : (direct.next : ScanT Id (Buffer σ (Token e CharKind)) _) b₂ = _ := consumed
    refine ⟨b₃, ?_, by simpa using holds₃, limits₃.trans limits₂⟩
    rw [ScanT.bind_ok consumed]
    simp only [List.length_nil, Stream'.Seq.drop_zero, Stream'.Seq.ofList_cons, Stream'.Seq.head_cons]
    rw [Token.spanning_of_lt _ covers]
    rfl
  · simp only [takeWhile_take_of_pos (Nat.pos_of_ne_zero hz), List.getLast?_cons] at holds₂ ⊢
    refine ⟨b₂, ?_, ?_, limits₂⟩
    · simp only [pure_bind, Token.spanning_of_lt _ covers]
      rfl
    · rw [Items.drop_ofList] at holds₂
      exact holds₂

end Buffer

/-! ## The stream -/

namespace WordStream

variable {σ : Type} [Source Id σ (Token e CharKind)] {s : WordStream σ e} {start stop : Nat}

theorem call_of_nextWord {answer : Except Fault (Option (Token e WordKind))} {b' : Buffer σ (Token e CharKind)}
    (ran : nextWord Buffer.direct s.chars = (answer, b')) : Source.call s = (answer, ⟨b'⟩) := by
  simp only [Source.call, Source.next, ScanT.zoom]
  rw [ran]
  rfl

/-- Asking for a word answers with the first of the groups, and leaves the others. -/
theorem call_of_holds (h : s.chars.Holds (ofList tokens)) (tiled : Tiles start stop tokens) :
    ∃ s', Source.call s = (.ok (grouped s.chars.limits.items tokens).head?, s') ∧
      s'.chars.Holds (ofList (groups s.chars.limits.items tokens).tail.flatten) ∧
      s'.chars.limits = s.chars.limits ∧ ∃ n, Tiles n stop (groups s.chars.limits.items tokens).tail.flatten := by
  cases tokens with
  | nil =>
    obtain ⟨b', ran, holds, limits⟩ := Buffer.nextWord_of_holds_nil h
    have empty : groups s.chars.limits.items ([] : List (Token e CharKind)) = [] := by rw [groups]
    rw [grouped, empty]
    exact ⟨⟨b'⟩, call_of_nextWord ran, holds, limits, stop, .done stop⟩
  | cons first rest =>
    have covers := grouped_tiles s.chars.limits.items tiled
    rw [grouped, groups_cons, Token.cover_cons] at covers
    obtain ⟨b', ran, holds, limits⟩ := Buffer.nextWord_of_holds h covers.head_lt
    rw [← flatten_groups s.chars.limits.items (first :: rest), groups_cons, List.flatten_cons] at tiled
    obtain ⟨n, -, left⟩ := tiled.split
    rw [grouped, groups_cons, Token.cover_cons, List.tail_cons]
    rw [flatten_groups] at left ⊢
    exact ⟨⟨b'⟩, call_of_nextWord ran, holds, limits, n, left⟩

/-- A stream of words yields one token over each group of the characters that its buffer holds. -/
theorem yields_of_holds (h : s.chars.Holds (ofList tokens)) (tiled : Tiles start stop tokens) :
    Source.Yields s (ofList (grouped s.chars.limits.items tokens)) := by
  generalize same : s.chars.limits = limits
  refine Source.yields_of_invariant (P := fun (s : WordStream σ e) items => ∃ tokens n, s.chars.Holds (ofList tokens) ∧
    Tiles n stop tokens ∧ s.chars.limits = limits ∧ items = ofList (grouped limits.items tokens)) ?_
    ⟨tokens, start, h, tiled, same, rfl⟩
  rintro s items ⟨tokens, n, h, tiled, rfl, rfl⟩
  obtain ⟨s', called, holds, limits, n', left⟩ := call_of_holds h tiled
  refine ⟨s', ?_, _, n', holds, left, limits, ?_⟩
  · rw [called, Items.head_ofList]
  · rw [grouped_flatten_tail, Items.tail_ofList]

/-- After every call, the buffer holds the characters that no group has taken. -/
theorem after_holds (h : s.chars.Holds (ofList tokens)) (tiled : Tiles start stop tokens) (calls : Nat) :
    (Source.after s calls).chars.Holds (ofList ((groups s.chars.limits.items tokens).drop calls).flatten) := by
  induction calls generalizing s tokens start with
  | zero =>
    rw [List.drop_zero, flatten_groups]
    exact h
  | succ calls ih =>
    obtain ⟨s', called, holds, limits, n, left⟩ := call_of_holds h tiled
    have behind := ih holds left
    rw [limits, groups_flatten_tail, List.drop_tail] at behind
    rw [Source.after, called]
    exact behind

theorem holds_text (grain : Grain) (e : Encoding) (text : List Char) (limits : ScanLimits) :
    ((Buffer.ofSource ⟨TextReader.ofText text⟩ : Buffer (CharStream (TextReader grain e)) _).withLimits limits).Holds
      (ofList ((TextReader.pieces grain e text).map (Piece.token e))) :=
  (Buffer.holds_ofSource (TextReader.yields_characters grain e text)).withLimits limits

theorem yields_of_text (grain : Grain) (e : Encoding) (text : List Char) (limits : ScanLimits) :
    Source.Yields
      (⟨(Buffer.ofSource ⟨TextReader.ofText text⟩).withLimits limits⟩ : WordStream (CharStream (TextReader grain e)) e)
      (ofList (grouped limits.items ((TextReader.pieces grain e text).map (Piece.token e)))) :=
  yields_of_holds (holds_text grain e text limits) (TextReader.tiles grain e text)

/-- Over the characters of a text, whichever reader reads them and wherever a scan of them is cut
    off, a stream of words yields one token over each group. The tokens tile the text. At
    every moment, what the buffer still holds are the characters behind those that have been
    taken. -/
theorem yields_groups (grain : Grain) (e : Encoding) (text : List Char) (limits : ScanLimits) :
    let characters := (TextReader.pieces grain e text).map (Piece.token e)
    let words : WordStream (CharStream (TextReader grain e)) e :=
      ⟨(Buffer.ofSource ⟨TextReader.ofText text⟩).withLimits limits⟩
    Source.Yields (⟨TextReader.ofText text⟩ : CharStream (TextReader grain e)) (ofList characters) ∧
      Source.Yields words (ofList (Token.cover CharKind.groupKind (groups limits.items characters))) ∧
      Tiles 0 (e.size text) (Token.cover CharKind.groupKind (groups limits.items characters)) ∧
      ∀ calls,
        ((groups limits.items characters).take calls).flatten ++ ((groups limits.items characters).drop calls).flatten =
            characters ∧
          (Source.after words calls).chars.Holds (ofList ((groups limits.items characters).drop calls).flatten) := by
  intro characters words
  have holds : words.chars.Holds (ofList characters) := holds_text grain e text limits
  have tiled : Tiles 0 (e.size text) characters := TextReader.tiles grain e text
  refine ⟨?_, yields_of_text grain e text limits, grouped_tiles limits.items tiled, ?_⟩
  · exact CharStream.yields_of_walks (TextReader.walks grain e text) (TextReader.pieces_growing grain e text)
  · intro calls
    refine ⟨?_, after_holds holds tiled calls⟩
    rw [← List.flatten_append, List.take_append_drop, flatten_groups]

end WordStream

end TokenScan
