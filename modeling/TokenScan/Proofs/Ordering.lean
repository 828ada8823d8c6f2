/-
  TokenScan.Proofs.Ordering — tokens cover something and lie side by side, whatever the reader does.

  What waits in a buffer over a stream on its course are the tokens between the place where its next token starts
  and the place of the stream (`Buffer.course`). Consuming and looking ahead keep that, unless the reader breaks
  off (`Buffer.steady`, `Buffer.peekAt_scans`), and so does everything that can be asked of a buffer
  (`Buffer.requests_keep`). A word goes from the first character that it consumes to the last one, and these lie
  side by side, so it covers something as well (`WordStream.nextWord_scans`).

  Hence a token that covers nothing is never made on the way from a reader to its characters, runs and words: what
  breaks off there is the reader itself, or a step at which its index has not grown (`tokens_side_by_side`). Nothing
  is asked of the reader for that; any four operations make one.
-/

import TokenScan.Proofs.Ending
import TokenScan.Proofs.Progress

namespace TokenScan

variable {ρ σ κ τ β γ : Type} {e : Encoding}

/-! ## Scans on a course -/

namespace Course

variable [Reader ρ e]

/-- What a scan of a stream comes to: the tokens that it consumed lie side by side and go with its answer, or it
    broke off where the reader did. -/
inductive Scans (c : Course σ ρ) (s : σ) (Q : β → List (Token e κ) → Prop) : Except Fault β × σ → Prop
  | on {b : β} {tokens : List (Token e κ)} {s' : σ} : c.Leads s tokens s' → Q b tokens → Scans c s Q (.ok b, s')
  | off {fault : Fault} {s' : σ} : Reader.BreaksOff (c.reader s) fault (c.reader s') → Scans c s Q (.error fault, s')

variable {c : Course σ ρ} {s s' : σ} {Q : β → List (Token e κ) → Prop} {R : γ → List (Token e κ) → Prop}
  {x : ScanT Id σ β} {f : β → ScanT Id σ γ}

theorem Scans.bind (hx : c.Scans s Q (x s))
    (hf : ∀ b tokens s', x s = (.ok b, s') → c.Leads s tokens s' → Q b tokens →
      c.Scans s' (fun g more => R g (tokens ++ more)) (f b s')) : c.Scans s R ((x >>= f) s) := by
  rw [ScanT.bind_apply]
  rcases ran : x s with ⟨fault | b, s'⟩
  · rw [ran] at hx
    cases hx with
    | off breaks => exact .off breaks
  · rw [ran] at hx
    cases hx with
    | @on _ tokens _ leads goes =>
      have second := hf b tokens s' ran leads goes
      simp only
      generalize f b s' = out at second ⊢
      cases second with
      | on leads' goes' => exact .on (leads.trans leads') goes'
      | off breaks => exact .off (breaks.before leads.forward)

theorem Scans.pure {g : γ} (tidy : c.Tidy s) (goes : R g []) : c.Scans s R ((pure g : ScanT Id σ γ) s) :=
  .on (.here tidy) goes

theorem Scans.mono {Q' : β → List (Token e κ) → Prop} {out : Except Fault β × σ} (h : c.Scans s Q out)
    (hQ : ∀ b tokens, Q b tokens → Q' b tokens) : c.Scans s Q' out := by
  cases h with
  | on leads goes => exact .on leads (hQ _ _ goes)
  | off breaks => exact .off breaks

theorem Steady.scans [Source Id σ (Token e κ)] (steady : c.Steady (κ := κ)) (tidy : c.Tidy s) :
    c.Scans s (fun found tokens => tokens = found.toList) (Source.call s) := by
  have step := steady s tidy
  rcases called : Source.call s with ⟨fault | _ | t, s'⟩
  · rw [called] at step
    cases step with
    | off breaks => exact .off breaks
  · rw [called] at step
    cases step with
    | nothing => exact .on (.here tidy) rfl
  · rw [called] at step
    cases step with
    | token leads => exact .on leads rfl

end Course

/-! ## Buffers -/

namespace Buffer

section

variable {c : Course σ ρ}

/-- Where the next token starts: the first one that waits, or else the next one of the source. -/
def place (c : Course σ ρ) (b : Buffer σ (Token e κ)) : Nat :=
  (b.pending.toList.head?.map fun t => t.start).getD (c.place b.source)

def course (c : Course σ ρ) : Course (Buffer σ (Token e κ)) ρ where
  place := place c
  reader b := c.reader b.source
  Tidy b := c.Tidy b.source ∧ Tiles (place c b) (c.place b.source) b.pending.toList

theorem place_of_tiles {b : Buffer σ (Token e κ)} {a : Nat} (h : Tiles a (c.place b.source) b.pending.toList) :
    place c b = a := by
  unfold place
  generalize b.pending.toList = waiting at h ⊢
  cases h with
  | done _ => rfl
  | token start _ _ => exact start

end

variable [Reader ρ e] {c : Course σ ρ} {b b' : Buffer σ (Token e κ)} {t : Token e κ}

/-- When the source has gone on, and what it gave waits behind the rest, the buffer is where it was. -/
theorem leads_of_pending {tokens : List (Token e κ)} (tidy : (course c).Tidy b)
    (leads : c.Leads b.source tokens b'.source) (pending : b'.pending.toList = b.pending.toList ++ tokens) :
    (course c).Leads b ([] : List (Token e κ)) b' := by
  have tiles : Tiles (place c b) (c.place b'.source) b'.pending.toList := by
    rw [pending]
    exact tidy.2.append leads.tiles
  have still : place c b' = place c b := place_of_tiles tiles
  refine ⟨?_, leads.forward, leads.tidy, ?_⟩
  · show Tiles (place c b) (place c b') _
    rw [still]
    exact .done _
  · rwa [still]

/-- To take the first token that waits leads over that token. -/
theorem leads_of_pop (tidy : (course c).Tidy b) {pending : Queue (Token e κ)}
    (popped : b.pending.pop? = some (t, pending)) : (course c).Leads b [t] { b with pending } := by
  obtain ⟨n, first, rest⟩ := Tiles.split (l := [t]) (Queue.toList_of_pop? popped ▸ tidy.2)
  have there : place c { b with pending } = n := place_of_tiles rest
  refine ⟨?_, .here _, tidy.1, ?_⟩
  · show Tiles (place c b) (place c { b with pending }) [t]
    rwa [there]
  · rwa [there]

/-- When nothing waits, the buffer goes where its source goes. -/
theorem leads_of_pull (empty : b.pending.toList = []) {s' : σ} (leads : c.Leads b.source [t] s') :
    (course c).Leads b [t] { b with source := s' } := by
  have here : place c b = c.place b.source := by simp [place, empty]
  have there : place c { b with source := s' } = c.place s' := by simp [place, empty]
  refine ⟨?_, leads.forward, leads.tidy, ?_⟩
  · show Tiles (place c b) (place c { b with source := s' }) [t]
    rw [here, there]
    exact leads.tiles
  · rw [there, empty]
    exact .done _

variable [Source Id σ (Token e κ)]

theorem steady (steady : c.Steady (κ := κ)) : (course c : Course (Buffer σ (Token e κ)) ρ).Steady (κ := κ) := by
  intro b tidy
  show (course c).Step b ((next : ScanT Id (Buffer σ (Token e κ)) _) b).1 ((next : ScanT Id (Buffer σ (Token e κ)) _) b).2
  rcases popped : b.pending.pop? with _ | ⟨t, pending⟩
  · have empty := (Queue.pop?_eq_none_iff b.pending).mp popped
    have step := steady b.source tidy.1
    simp only [next, popped, pull_apply]
    rcases called : Source.call b.source with ⟨fault | _ | t, s'⟩
    · rw [called] at step
      cases step with
      | off breaks => exact .off breaks
    · rw [called] at step
      cases step with
      | nothing => exact .nothing
    · rw [called] at step
      cases step with
      | token leads => exact .token (leads_of_pull empty leads)
  · have ran : (next : ScanT Id (Buffer σ (Token e κ)) _) b = (.ok (some t), { b with pending }) := by
      simp only [next, popped]
      rfl
    rw [ran]
    exact .token (leads_of_pop tidy popped)

theorem peekAt_scans (steady : c.Steady (κ := κ)) (tidy : (course c).Tidy b) (distance : Nat) :
    (course c).Scans b (fun _ (tokens : List (Token e κ)) => tokens = [])
      ((peekAt distance : ScanT Id (Buffer σ (Token e κ)) _) b) := by
  cases distance with
  | zero =>
    rw [peekAt_zero_apply]
    exact .on (.here tidy) rfl
  | succ distance =>
    obtain ⟨b', refilled, source, pending⟩ := refill_apply b 0 (distance + 1 - b.buffered)
    have run := steady.burst tidy.1 (distance + 1 - b.buffered)
    rw [peekAt_apply, refilled]
    generalize Source.burst b.source (distance + 1 - b.buffered) = brought at source pending run ⊢
    cases run with
    | full leads _ => exact .on (leads_of_pending tidy (source ▸ leads) pending) rfl
    | ended leads _ => exact .on (leads_of_pending tidy (source ▸ leads) pending) rfl
    | off leads _ breaks =>
      refine .off ?_
      show Reader.BreaksOff (c.reader b.source) _ (c.reader b'.source)
      rw [source]
      exact breaks.before leads.forward

omit [Reader ρ e] in
/-- An item that is shown waits, and stands where the buffer is. -/
theorem waits_of_peek (peeked : direct.peek b = (.ok (some t), b')) :
    b'.pending.toList[0]? = some t ∧ t.start = place c b' := by
  have waits : ((peekAt (0 + 1) : ScanT Id (Buffer σ (Token e κ)) _) b).2.pending.toList[0]? = some t :=
    waits_of_peekAt (congrArg Prod.fst peeked)
  rw [show (peekAt (0 + 1) : ScanT Id (Buffer σ (Token e κ)) _) b = _ from peeked] at waits
  refine ⟨waits, ?_⟩
  rw [← List.head?_eq_getElem?] at waits
  simp [place, waits]

/-- A scan answers with the last token that it has consumed. -/
theorem nextUntilFrom_scans (steady : c.Steady (κ := κ)) (q : Token e κ → Bool) (last : Option (Token e κ)) (limit : Nat)
    (tidy : (course c).Tidy b) :
    (course c).Scans b (fun found (tokens : List (Token e κ)) => found = tokens.getLast?.or last)
      (direct.nextUntilFrom (fun t => pure (q t)) last limit b) := by
  induction limit generalizing last b with
  | zero => exact .pure tidy rfl
  | succ limit ih =>
    unfold Lookahead.nextUntilFrom
    refine (peekAt_scans steady tidy 1).bind ?_
    rintro shown _ b' peeked leads rfl
    cases shown with
    | none => exact .pure leads.tidy rfl
    | some t =>
      simp only
      rw [ScanT.bind_ok (ScanT.pure_apply (q t) b')]
      split
      · exact .pure leads.tidy rfl
      · refine (Buffer.steady steady).scans leads.tidy |>.bind ?_
        rintro found _ b'' called leads' rfl
        obtain rfl : found = some t := by
          have brought := next_of_waits (waits_of_peek (c := c) peeked).1
          rw [show (next : ScanT Id (Buffer σ (Token e κ)) _) b' = _ from called] at brought
          exact Except.ok.inj brought
        refine (ih (some t) leads'.tidy).mono ?_
        rintro _ more rfl
        show more.getLast?.or (some t) = (t :: more).getLast?.or last
        rw [List.getLast?_cons, Option.some_or, Option.or_some]

end Buffer

/-! ## Requests -/

namespace ScanT

/-- What a scan leaves is of the one sort if it answers, and of the other if it breaks off. -/
def Leaves (P : σ → Prop) (Q : Fault → σ → Prop) : Except Fault β × σ → Prop
  | (.ok _, s) => P s
  | (.error fault, s) => Q fault s

def keeping (P : σ → Prop) (Q : Fault → σ → Prop) : Simulation (ScanT Id σ) (ScanT Id σ) where
  Rel x y := x = y ∧ ∀ s, P s → Leaves P Q (x s)
  rel_pure a := ⟨rfl, fun _ h => h⟩
  rel_bind := by
    rintro β γ x _ f g ⟨rfl, hx⟩ hf
    obtain rfl : f = g := funext fun a => (hf a).1
    refine ⟨rfl, fun s h => ?_⟩
    have kept := hx s h
    rw [ScanT.bind_apply]
    rcases ran : x s with ⟨fault | b, s'⟩
    · rwa [ran] at kept
    · rw [ran] at kept
      exact (hf b).2 s' kept

end ScanT

namespace Buffer

variable [Reader ρ e] [Source Id σ (Token e κ)] {c : Course σ ρ} {b start : Buffer σ (Token e κ)}

def Came (c : Course σ ρ) (start b : Buffer σ (Token e κ)) : Prop :=
  ∃ tokens : List (Token e κ), (course c).Leads start tokens b

def Broke (c : Course σ ρ) (start : Buffer σ (Token e κ)) (fault : Fault) (b : Buffer σ (Token e κ)) : Prop :=
  Reader.BreaksOff (c.reader start.source) fault (c.reader b.source)

/-- Everything that can be done with a buffer either leads it on or breaks off where its reader does. -/
theorem reach_keeping (steady : c.Steady (κ := κ)) (start : Buffer σ (Token e κ)) :
    (reach : Reach (ScanT Id (Buffer σ (Token e κ))) σ (Token e κ)).Matches
      (ScanT.keeping (Came c start) (Broke c start)) reach := by
  have scan {β : Type} {x : ScanT Id (Buffer σ (Token e κ)) β} {Q : β → List (Token e κ) → Prop}
      (scans : ∀ b, (course c).Tidy b → (course c).Scans b Q (x b)) :
      (ScanT.keeping (Came c start) (Broke c start)).Rel x x := by
    refine ⟨rfl, fun b came => ?_⟩
    obtain ⟨tokens, leads⟩ := came
    have ends := scans b leads.tidy
    generalize x b = out at ends
    cases ends with
    | on leads' _ => exact ⟨_, leads.trans leads'⟩
    | off breaks => exact breaks.before leads.forward
  refine ⟨⟨?_, ?_, ?_⟩, ?_, ?_, ?_⟩
  · exact scan fun b tidy => (Buffer.steady steady).scans tidy
  · intro distance _
    exact scan fun b tidy => peekAt_scans steady tidy distance
  · exact scan (Q := fun _ _ => True) fun b tidy => .on (.here tidy) trivial
  · exact scan fun b tidy => peekAt_scans steady tidy 0
  · exact scan (Q := fun _ _ => True) fun b tidy => .on (.here tidy) trivial
  · intro limits
    exact scan (Q := fun _ _ => True) fun b tidy => .on ⟨.done _, .here _, tidy⟩ trivial

/-- Requests to a buffer lead it on, or break off where its reader does. -/
theorem requests_keep [DecidableEq κ] (steady : c.Steady (κ := κ)) (tidy : (course c).Tidy b)
    (requests : List (Request σ (Token e κ) κ τ)) (t : τ × List (Token e κ)) :
    ScanT.Leaves (Came c b) (Broke c b) (requests.mapM (Request.run reach) t b) :=
  ((Simulation.stateT _ _).rel_mapM (Request.run_matches (reach_keeping steady b)) requests t).2 b ⟨[], .here tidy⟩

end Buffer

/-! ## Words -/

section

variable [Reader ρ e] {c : Course σ ρ} {s s' : σ} {first last : Token e CharKind} {chars : List (Token e CharKind)}

theorem Course.Leads.spanning (leads : c.Leads s chars s') (start : first.start = c.place s)
    (ends : chars.getLast? = some last) (kind : WordKind) :
    ∃ t, Token.spanning kind first (some last) = .ok (some t) ∧ Token.covering (fun _ => t.kind) chars = some t := by
  cases chars with
  | nil => cases ends
  | cons head more =>
    obtain ⟨here, there, covers⟩ := leads.tiles.ends
    rw [List.getLast?_cons, Option.some_inj] at ends
    rw [ends] at there
    refine ⟨_, Token.spanning_of_lt kind (by rwa [start, there]), ?_⟩
    rw [Token.covering, ends, start, here]

namespace WordStream

variable [Source Id σ (Token e CharKind)] {b : Buffer σ (Token e CharKind)}

def course (c : Course σ ρ) : Course (WordStream σ e) ρ where
  place s := Buffer.place c s.chars
  reader s := c.reader s.chars.source
  Tidy s := (Buffer.course c).Tidy s.chars

open Buffer (direct) in
/-- A word goes from the first of the characters that it consumes to the last one. -/
theorem nextWord_scans (steady : c.Steady (κ := CharKind)) (tidy : (Buffer.course c).Tidy b) :
    (Buffer.course c).Scans b
      (fun word (chars : List (Token e CharKind)) => ∀ t, word = some t → Token.covering (fun _ => t.kind) chars = some t)
      (nextWord direct b) := by
  unfold nextWord
  refine (Buffer.peekAt_scans steady tidy 1).bind ?_
  rintro shown _ b' peeked leads rfl
  cases shown with
  | none => exact .pure leads.tidy (by simp)
  | some first =>
    obtain ⟨-, start⟩ := Buffer.waits_of_peek (c := c) peeked
    have tidy' := leads.tidy
    simp only [WordKind.continues_eq]
    refine (Buffer.nextUntilFrom_scans steady _ none b'.limits.items tidy').bind ?_
    rintro found chars b'' - leads' rfl
    -- with a last character, the word has both its ends
    have ends_at {chars : List (Token e CharKind)} {last : Token e CharKind} {b'' : Buffer σ (Token e CharKind)}
        (leads : (Buffer.course c).Leads b' chars b'') (ends : chars.getLast? = some last) :=
      leads.spanning start ends (WordKind.ofFirst first.kind)
    rcases ends : chars.getLast? with _ | last
    · obtain rfl : chars = [] := List.getLast?_eq_none_iff.mp ends
      refine ((Buffer.steady steady).scans leads'.tidy).bind ?_
      rintro found _ left - leads'' rfl
      cases found with
      | none => exact .pure leads''.tidy (by simp)
      | some last =>
        obtain ⟨t, spanned, covers⟩ := ends_at (leads'.trans leads'') List.getLast?_singleton
        simp only [spanned]
        rw [ScanT.bind_ok (ScanT.emit_apply _ _)]
        exact .pure leads''.tidy (by rintro _ ⟨⟩; exact covers)
    · simp only [Option.some_or]
      rw [ScanT.bind_ok (ScanT.pure_apply _ _)]
      obtain ⟨t, spanned, covers⟩ := ends_at leads' ends
      simp only [spanned]
      rw [ScanT.bind_ok (ScanT.emit_apply _ _)]
      exact .pure leads'.tidy (by rintro _ ⟨⟩; simpa using covers)

omit [Source Id σ (Token e CharKind)] in
/-- What a word leads over is what its characters lead over. -/
theorem leads_of_chars {b' : Buffer σ (Token e CharKind)} {t : Token e WordKind}
    (leads : (Buffer.course c).Leads b chars b') (covers : Token.covering (fun _ => t.kind) chars = some t) :
    (course c).Leads (⟨b⟩ : WordStream σ e) [t] ⟨b'⟩ := by
  have tiles : Tiles (Buffer.place c b) (Buffer.place c b') [chars].flatten := by
    rw [List.flatten_singleton]
    exact leads.tiles
  have word := tiles.cover fun _ => t.kind
  rw [Token.cover, List.filterMap_cons_some covers, List.filterMap_nil] at word
  exact ⟨word, leads.forward, leads.tidy⟩

theorem steady [ReadsFrom σ ρ] (stream : Announces σ) (steady : c.Steady (κ := CharKind)) :
    (course c : Course (WordStream σ e) ρ).Steady (κ := WordKind) := by
  intro s tidy
  by_cases ended : s.isAtEnd = true
  · rw [call_of_isAtEnd stream ended]
    exact .nothing
  · have scans := nextWord_scans steady tidy
    have brings := nextWord_ne_none (Buffer.peek_ne_none stream (Bool.eq_false_iff.mpr ended))
    rcases ran : nextWord Buffer.direct s.chars with ⟨fault | _ | t, b'⟩
    all_goals
      rw [ran] at scans brings
      rw [call_of_nextWord ran]
    · cases scans with
      | off breaks => exact .off breaks
    · exact absurd rfl brings
    · cases scans with
      | on leads covers => exact .token (leads_of_chars leads (covers t rfl))

end WordStream

end

/-! ## Every reader -/

/-- Whatever a reader does: a range that is consumed, of one character or of a run, covers something. The tokens of
    characters and of runs lie side by side, each over something, and so do the characters that requests consume
    from a buffer and the words over what the requests leave, however the requests look ahead and limit scans. What
    breaks off is always the reader itself, or a step at which its index has not grown. -/
theorem tokens_side_by_side (ρ : Type) [Reader ρ e] (τ : Type) :
    (∀ r : ρ, Reader.Consumes r (Reader.advanceRange r).1 (Reader.advanceRange r).2) ∧
    (∀ (extends? : List Char → StateM τ Bool) (r : ρ) (t : τ),
      Reader.Consumes r (Reader.advanceWhile extends? r t).1 (Reader.advanceWhile extends? r t).2.1) ∧
    (∀ (s : CharStream ρ) (n : Nat), CharStream.course.Run s n (Source.burst s n)) ∧
    (∀ (s : RunStream ρ) (n : Nat), RunStream.course.Run s n (Source.burst s n)) ∧
    ∀ (r : ρ) (limits : ScanLimits) (requests : List (Request (CharStream ρ) (Token e CharKind) CharKind τ))
      (t : τ × List (Token e CharKind)),
      let start := (Buffer.ofSource (⟨r⟩ : CharStream ρ)).withLimits limits
      match requests.mapM (Request.run Buffer.reach) t start with
      | (.ok _, b) =>
        Buffer.Came CharStream.course start b ∧
          ∀ n, (WordStream.course CharStream.course).Run (⟨b⟩ : WordStream (CharStream ρ) e) n (Source.burst ⟨b⟩ n)
      | (.error fault, b) => Buffer.Broke CharStream.course start fault b := by
  refine ⟨Reader.advanceRange_consumes, Reader.advanceWhile_consumes, ?_, ?_, ?_⟩
  · intro s n
    exact CharStream.steady.burst trivial n
  · intro s n
    exact RunStream.steady.burst trivial n
  · intro r limits requests t start
    have kept := Buffer.requests_keep (b := start) CharStream.steady ⟨trivial, .done _⟩ requests t
    rcases ran : requests.mapM (Request.run Buffer.reach) t start with ⟨fault | replies, b⟩
    · rwa [ran] at kept
    · rw [ran] at kept
      obtain ⟨tokens, leads⟩ := kept
      exact ⟨⟨tokens, leads⟩, (WordStream.steady CharStream.announces CharStream.steady).burst leads.tidy⟩

end TokenScan
