/-
  TokenScan.Proofs.Partition — streams of words and raw cursors on one buffer of characters share
  out the text between them.

  Whoever has a handle to the buffer may ask for a word, take a single character, or look ahead
  (`Turn`). `Turn.Step` is the rule of one turn, and it knows of the characters to come only, not
  of handles and not of what has been pulled: a word is the group that starts with the first of
  these characters, whoever took those before it. `Turn.Run` is turn after turn.

  On a buffer, every turn follows the rule (`Turn.serve_of_holds`). What a turn emits starts where
  the characters to come start, and what is left starts where it stops (`Turn.Step.tiles`); so what
  is emitted tiles the text as far as the characters are taken (`Turn.Run.tiles`), and there is
  nothing to emit only at the end (`Turn.Run.ended`). Since handles act as one cursor, this holds
  for every program of any number of handles (`Pool.shared_text_is_partitioned`).
-/

import TokenScan.Proofs.Groups
import TokenScan.Proofs.Sharing

namespace TokenScan

open Stream'.Seq (ofList)

variable {e : Encoding} {σ ρ : Type}

/-! ## Turns -/

inductive Turn where
  | word
  | character
  | look (distance : Nat)
  deriving DecidableEq, Repr

inductive Served (e : Encoding) where
  | word (t : Option (Token e WordKind))
  | character (t : Option (Token e CharKind))
  | shown (t : Option (Token e CharKind))
  deriving DecidableEq, Repr

namespace Served

def emitted : Served e → List (Token e (WordKind ⊕ CharKind))
  | word (some t) => [⟨t.toSpan, .inl t.kind⟩]
  | character (some t) => [⟨t.toSpan, .inr t.kind⟩]
  | word none | character none | shown _ => []

/-- A word or a character was asked for, and there was none. -/
def IsEnd : Served e → Prop
  | word t => t = none
  | character t => t = none
  | shown _ => False

end Served

namespace Turn

def serve {m : Type → Type} [Monad m] [MonadExceptOf Fault m] [MonadTrace m] (chars : Lookahead m (Token e CharKind)) :
    Turn → m (Served e)
  | word => .word <$> nextWord chars
  | character => .character <$> chars.next
  | look distance => .shown <$> chars.peekAt distance

/-! ## The rule -/

/-- What may come of a turn before which these characters are to come, and which of them are left. A
    word is the group of the first character, cut off at the limit. Which characters wait in a
    queue is not known here, so a look at distance 0 may show the first one or none. -/
inductive Step (limit : Nat) : List (Token e CharKind) → Turn → Served e → List (Token e CharKind) → Prop
  | word (first : Token e CharKind) (rest : List (Token e CharKind)) :
      Step limit (first :: rest) .word
        (.word (some ⟨⟨first.start, ((groupedWith limit first rest).getLast?.getD first).stop⟩, first.kind.groupKind⟩))
        (rest.drop (groupedWith limit first rest).length)
  | noWord : Step limit [] .word (.word none) []
  | character (first : Token e CharKind) (rest : List (Token e CharKind)) :
      Step limit (first :: rest) .character (.character (some first)) rest
  | noCharacter : Step limit [] .character (.character none) []
  | look (distance : Nat) (chars : List (Token e CharKind)) :
      Step limit chars (.look (distance + 1)) (.shown chars[distance]?) chars
  | lookWaiting (shown : Option (Token e CharKind)) (chars : List (Token e CharKind)) :
      shown = none ∨ shown = chars.head? → Step limit chars (.look 0) (.shown shown) chars

inductive Run (limit : Nat) :
    List (Token e CharKind) → List Turn → List (Served e) → List (Token e CharKind) → Prop
  | done (chars : List (Token e CharKind)) : Run limit chars [] [] chars
  | turn {chars left later : List (Token e CharKind)} {turn : Turn} {turns : List Turn} {served : Served e}
      {more : List (Served e)} :
      Step limit chars turn served left → Run limit left turns more later →
      Run limit chars (turn :: turns) (served :: more) later

variable {limit a b : Nat} {chars left : List (Token e CharKind)} {turn : Turn} {turns : List Turn} {s : Served e}
  {served : List (Served e)}

theorem group_ends (limit : Nat) {first : Token e CharKind} {rest : List (Token e CharKind)} (tiled : Tiles a b (first :: rest)) :
    ∃ n, first.start = a ∧ ((groupedWith limit first rest).getLast?.getD first).stop = n ∧ a < n ∧
      Tiles n b (rest.drop (groupedWith limit first rest).length) := by
  rw [← groupedWith_append limit first rest, ← List.cons_append] at tiled
  obtain ⟨n, group, behind⟩ := tiled.split
  obtain ⟨start, stop, hlt⟩ := group.ends
  exact ⟨n, start, stop, hlt, behind⟩

/-- What a turn emits is the text between the characters that were to come and those that are left. -/
theorem Step.tiles (h : Step limit chars turn s left) (tiled : Tiles a b chars) :
    ∃ n, Tiles a n s.emitted ∧ Tiles n b left := by
  cases h with
  | word first rest =>
    obtain ⟨n, start, stop, hlt, behind⟩ := group_ends limit tiled
    exact ⟨n, .token start (by rw [stop]; exact hlt) (by rw [stop]; exact .done n), behind⟩
  | character first rest =>
    cases tiled with
    | token start hlt behind => exact ⟨first.stop, .token start hlt (.done first.stop), behind⟩
  | noWord => exact ⟨a, .done a, tiled⟩
  | noCharacter => exact ⟨a, .done a, tiled⟩
  | look distance => exact ⟨a, .done a, tiled⟩
  | lookWaiting shown => exact ⟨a, .done a, tiled⟩

theorem Step.left_isSuffix (h : Step limit chars turn s left) : left <:+ chars := by
  cases h with
  | word first rest => exact (List.drop_suffix _ rest).trans (List.suffix_cons first rest)
  | character first rest => exact List.suffix_cons first left
  | noWord => exact List.suffix_rfl
  | noCharacter => exact List.suffix_rfl
  | look distance => exact List.suffix_rfl
  | lookWaiting shown => exact List.suffix_rfl

theorem Step.ended (h : Step limit chars turn s left) (nothing : s.IsEnd) : chars = [] := by
  cases h with
  | word first rest => cases nothing
  | character first rest => cases nothing
  | noWord => rfl
  | noCharacter => rfl
  | look distance => cases nothing
  | lookWaiting shown => cases nothing

theorem Run.tiles (h : Run limit chars turns served left) (tiled : Tiles a b chars) :
    ∃ n, Tiles a n (served.flatMap Served.emitted) ∧ Tiles n b left := by
  induction h generalizing a with
  | done chars => exact ⟨a, .done a, tiled⟩
  | turn step _ ih =>
    obtain ⟨n, here, behind⟩ := step.tiles tiled
    obtain ⟨n', there, left⟩ := ih behind
    refine ⟨n', ?_, left⟩
    rw [List.flatMap_cons]
    exact here.append there

theorem Run.left_isSuffix (h : Run limit chars turns served left) : left <:+ chars := by
  induction h with
  | done chars => exact List.suffix_rfl
  | turn step _ ih => exact ih.trans step.left_isSuffix

/-- When there is nothing to emit, what has been emitted goes up to the end. -/
theorem Run.ended (h : Run limit chars turns served left) (tiled : Tiles a b chars) {before after : List (Served e)}
    (split : served = before ++ s :: after) (nothing : s.IsEnd) : Tiles a b (before.flatMap Served.emitted) := by
  induction h generalizing a before with
  | done chars => simp at split
  | turn step _ ih =>
    cases before with
    | nil =>
      obtain ⟨rfl, -⟩ := List.cons.inj split
      obtain rfl := step.ended nothing
      cases tiled
      exact .done _
    | cons first before =>
      obtain ⟨rfl, further⟩ := List.cons.inj (split.trans (List.cons_append ..))
      obtain ⟨n, here, behind⟩ := step.tiles tiled
      rw [List.flatMap_cons]
      exact here.append (ih behind further)

/-! ## On a buffer -/

theorem nextWord_rel {R : σ → ρ → Prop} {l : Lookahead (ScanT Id σ) (Token e CharKind)}
    {r : Lookahead (ScanT Id ρ) (Token e CharKind)} (h : (ScanT.simulation R).Matches l r) :
    (ScanT.simulation R).Rel (nextWord l) (nextWord r) := by
  have rel_pure {β : Type} (a : β) := (ScanT.simulation R).rel_pure a
  unfold nextWord
  apply (ScanT.simulation R).rel_bind h.peek
  intro found
  cases found with
  | none => exact rel_pure none
  | some first =>
    simp only [WordKind.continues_eq]
    apply (ScanT.simulation R).rel_bind (h.nextUntil fun c => rel_pure _)
    intro taken
    obtain _ | last := taken
    on_goal 1 => apply (ScanT.simulation R).rel_bind h.next
    on_goal 2 => apply (ScanT.simulation R).rel_bind (rel_pure (some last))
    -- whichever character is the last one, the token is made and reported alike
    all_goals
      intro last
      obtain fault | _ | token := Token.spanning (WordKind.ofFirst first.kind) first last
      · exact ScanT.rel_throw fault
      · exact rel_pure none
      · exact (ScanT.simulation R).rel_bind (ScanT.rel_emit _) fun _ => rel_pure (some token)

variable [Source Id σ (Token e CharKind)]

theorem serve_rel {R : ρ → Buffer σ (Token e CharKind) → Prop} {r : Reach (ScanT Id ρ) σ (Token e CharKind)}
    (h : r.Matches (ScanT.simulation R) Buffer.reach) (turn : Turn) :
    (ScanT.simulation R).Rel (turn.serve r.cursor) (turn.serve Buffer.direct) := by
  cases turn with
  | word => exact Simulation.rel_map _ _ (nextWord_rel h.cursor)
  | character => exact Simulation.rel_map _ _ h.cursor.next
  | look distance =>
    apply Simulation.rel_map
    cases distance with
    | zero => exact h.waiting
    | succ distance => exact h.cursor.peekAt _ (Nat.succ_pos distance)

/-- On a buffer, a turn follows the rule for the characters that the buffer holds. -/
theorem serve_of_holds {buffer : Buffer σ (Token e CharKind)} (holds : buffer.Holds (ofList chars))
    (tiled : Tiles a b chars) (turn : Turn) :
    ∃ s left after, turn.serve Buffer.direct buffer = (.ok s, after) ∧
      Step buffer.limits.items chars turn s left ∧ after.Holds (ofList left) ∧ after.limits = buffer.limits := by
  cases turn with
  | word =>
    cases chars with
    | nil =>
      obtain ⟨after, ran, holds, limits⟩ := Buffer.nextWord_of_holds_nil holds
      exact ⟨_, _, after, ScanT.map_ok ran, .noWord, holds, limits⟩
    | cons first rest =>
      obtain ⟨n, start, stop, hlt, -⟩ := group_ends buffer.limits.items tiled
      obtain ⟨after, ran, holds, limits⟩ := Buffer.nextWord_of_holds holds (by rw [start, stop]; exact hlt)
      exact ⟨_, _, after, ScanT.map_ok ran, .word first rest, holds, limits⟩
  | character =>
    obtain ⟨after, ran, holds, limits⟩ := Buffer.next_of_holds holds
    rw [Items.tail_ofList] at holds
    rw [Items.head_ofList] at ran
    refine ⟨_, _, after, ScanT.map_ok ran, ?_, holds, limits⟩
    cases chars with
    | nil => exact .noCharacter
    | cons first rest => exact .character first rest
  | look distance =>
    cases distance with
    | zero =>
      refine ⟨_, _, buffer, ScanT.map_ok (Buffer.peekAt_zero_apply buffer), .lookWaiting _ _ ?_, holds, rfl⟩
      obtain ⟨later, -, whole⟩ := holds
      cases waiting : buffer.pending.toList with
      | nil => exact .inl rfl
      | cons t more =>
        rw [← Items.head_ofList chars, whole, waiting]
        simp
    | succ distance =>
      obtain ⟨after, ran, holds, limits⟩ := Buffer.peekAt_of_holds holds distance
      exact ⟨_, _, after, ScanT.map_ok ran, .look distance chars, holds, limits⟩

/-- Turn after turn, all of them are served, and what the buffer holds then is left. -/
theorem run_of_holds {buffer : Buffer σ (Token e CharKind)} (holds : buffer.Holds (ofList chars))
    (tiled : Tiles a b chars) (turns : List Turn) :
    ∃ served left after, turns.mapM (serve Buffer.direct) buffer = (.ok served, after) ∧
      Run buffer.limits.items chars turns served left ∧ after.Holds (ofList left) := by
  induction turns generalizing buffer a chars with
  | nil => exact ⟨[], chars, buffer, rfl, .done chars, holds⟩
  | cons turn turns ih =>
    obtain ⟨s, left, between, ran, step, holds, limits⟩ := serve_of_holds holds tiled turn
    obtain ⟨n, -, behind⟩ := step.tiles tiled
    obtain ⟨served, later, after, ran', steps, holds⟩ := ih holds behind
    rw [limits] at steps
    refine ⟨s :: served, later, after, ?_, .turn step steps, holds⟩
    rw [List.mapM_cons, ScanT.bind_ok ran, ScanT.bind_ok ran']
    rfl

end Turn

/-! ## Through handles -/

/-- Let any number of parties share a buffer of the characters of a text, each with its handle, and
    ask for words, take characters and look ahead, in any order. All of them are served; each
    turn follows the rule for the characters that are left, whoever took the others; what is
    emitted tiles the text from its start as far as the characters are taken; and when there is
    nothing to emit, what has been emitted tiles the whole text. -/
theorem Pool.shared_text_is_partitioned (grain : Grain) (e : Encoding) (text : List Char) (limits : ScanLimits)
    (p : Pool (CharStream (TextReader grain e)) (Token e CharKind)) (program : Program Turn 1) :
    let characters := (TextReader.pieces grain e text).map (Piece.token e)
    let chars := (Buffer.ofSource ⟨TextReader.ofText text⟩ : Buffer (CharStream (TextReader grain e)) _).withLimits limits
    let shared := ((adopt chars .shared : ScanT Id (Pool (CharStream (TextReader grain e)) _) Nat) p).2
    let turns : ScanT Id (Pool (CharStream (TextReader grain e)) _) (List (Served e)) :=
      program.run (fun h => Turn.serve (cursor h)) copy #v[p.handles.size]
    ∃ served left stop, (turns shared).1 = .ok served ∧
      Turn.Run limits.items characters program.requests served left ∧ left <:+ characters ∧
      Tiles 0 stop (served.flatMap Served.emitted) ∧ Tiles stop (e.size text) left ∧
      ∀ before s after, served = before ++ s :: after → s.IsEnd →
        Tiles 0 (e.size text) (before.flatMap Served.emitted) := by
  intro characters chars shared turns
  have tiled : Tiles 0 (e.size text) characters := TextReader.tiles grain e text
  have holds : chars.Holds (ofList characters) := WordStream.holds_text grain e text limits
  obtain ⟨served, left, after, ran, run, -⟩ := Turn.run_of_holds holds tiled program.requests
  obtain ⟨same, -⟩ := Program.run_rel (copies p.cells.size) (fun _ _ mem => Turn.serve_rel (reach_matches mem)) program
    #v[p.handles.size] shared chars (adopt_shares p chars)
  obtain ⟨stop, emitted, behind⟩ := run.tiles tiled
  refine ⟨served, left, stop, ?_, run, run.left_isSuffix, emitted, behind, ?_⟩
  · rw [ran] at same
    exact same
  · intro before s after split nothing
    exact run.ended tiled split nothing

/-- A word starts where another party has left the text, be it inside of a word. -/
example :
    let chars : Buffer (CharStream (TextReader .cluster .utf8)) (Token .utf8 CharKind) := .ofSource ⟨.ofText ['a', 'b', '1', ' ']⟩
    let shared := ((Pool.adopt chars .shared : ScanT Id (Pool _ _) Nat) ⟨#[], #[]⟩).2
    let program : Program Turn 1 :=
      .copy 0 <| .ask 0 .character <| .ask 0 (.look 3) <| .ask 1 .word <| .ask 0 .word <| .ask 1 .character .done
    let turns : ScanT Id (Pool (CharStream (TextReader .cluster .utf8)) (Token .utf8 CharKind)) (List (Served .utf8)) :=
      program.run (fun h => Turn.serve (Pool.cursor h)) Pool.copy #v[0]
    (turns shared).1.toOption =
      some [.character (some ⟨⟨0, 1⟩, .lowercaseLetter⟩), .shown (some ⟨⟨3, 4⟩, .mark .space⟩), .word (some ⟨⟨1, 3⟩, .word⟩),
        .word (some ⟨⟨3, 4⟩, .whitespace⟩), .character none] := by
  decide +kernel

end TokenScan
