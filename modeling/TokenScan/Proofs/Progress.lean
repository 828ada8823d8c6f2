/-
  TokenScan.Proofs.Progress — what a reader cannot break, however badly it behaves.

  A reader may stall, go back, or lie about its end; all that is relied on is that it says the same of the same
  state. Whoever moves it on checks that the index has grown. So it goes forward (`Reader.Forward`), or moving on
  breaks off somewhere (`Reader.BreaksOff`): the reader does so by itself, or it has stalled. There is no third
  way: what is consumed lies between the index before and the index behind, and covers something
  (`Reader.Consumes`).

  A `Course` says where the next token of a stream starts and which reader is behind it. A stream keeps to its
  course if each call brings a token from there on, brings nothing and changes nothing, or breaks off where its
  reader does (`Course.Steady`). What up to any number of calls bring then lies side by side
  (`Course.Steady.burst`). Streams of characters and of runs keep to their courses over every reader.
-/

import TokenScan.Proofs.Pausing
import TokenScan.Proofs.Tiling

namespace TokenScan

variable {ρ σ κ τ β : Type} {e : Encoding}

/-! ## Moving on -/

namespace Reader

variable [Reader ρ e]

/-- Moving on leads from the one state to the other, and the index grows at every step. -/
inductive Forward : ρ → ρ → Prop
  | here (r : ρ) : Forward r r
  | step {r r' r'' : ρ} {inside : Bool} :
      advance r = (.ok inside, r') → index r < index r' → Forward r' r'' → Forward r r''

/-- Moving on breaks off: the reader does so by itself, or its index has not grown. -/
inductive Breaks (r : ρ) : Fault → ρ → Prop
  | own {fault : Fault} {r' : ρ} : advance r = (.error fault, r') → Breaks r fault r'
  | stalled {inside : Bool} {r' : ρ} :
      advance r = (.ok inside, r') → index r' ≤ index r → Breaks r (.stalled e (index r)) r'

def BreaksOff (r : ρ) (fault : Fault) (r' : ρ) : Prop := ∃ last, Forward r last ∧ Breaks last fault r'

/-- The reader went forward, farther than it was, or broke off on its way. -/
inductive Goes (r : ρ) : Except Fault β → ρ → Prop
  | farther {b : β} {r' : ρ} : Forward r r' → index r < index r' → Goes r (.ok b) r'
  | off {fault : Fault} {r' : ρ} : BreaksOff r fault r' → Goes r (.error fault) r'

/-- What consuming comes to: nothing at the end, the range that the reader went over, or a fault of moving on. -/
inductive Consumes (r : ρ) : Except Fault (Option Span) → ρ → Prop
  | nothing : atEnd r = true → Consumes r (.ok none) r
  | range {r' : ρ} : Forward r r' → index r < index r' → Consumes r (.ok (some ⟨index r, index r'⟩)) r'
  | off {fault : Fault} {r' : ρ} : BreaksOff r fault r' → Consumes r (.error fault) r'

variable {r r' r'' : ρ} {fault : Fault}

theorem Forward.trans (h : Forward r r') (h' : Forward r' r'') : Forward r r'' := by
  induction h with
  | here _ => exact h'
  | step moved grows _ ih => exact .step moved grows (ih h')

theorem Forward.le (h : Forward r r') : index r ≤ index r' := by
  induction h with
  | here r => exact Nat.le_refl _
  | step _ grows _ ih => exact Nat.le_trans (Nat.le_of_lt grows) ih

theorem BreaksOff.before (h : BreaksOff r' fault r'') (forward : Forward r r') : BreaksOff r fault r'' := by
  obtain ⟨last, on, breaks⟩ := h
  exact ⟨last, forward.trans on, breaks⟩

theorem Goes.before {answer : Except Fault β} (h : Goes r' answer r'') (forward : Forward r r') : Goes r answer r'' := by
  cases h with
  | farther on grows => exact .farther (forward.trans on) (Nat.lt_of_le_of_lt forward.le grows)
  | off breaks => exact .off (breaks.before forward)

/-- What every step keeps, consuming keeps. -/
theorem Consumes.keeps {P : ρ → Prop} {answer : Except Fault (Option Span)} (h : Consumes r answer r')
    (step : ∀ r, P r → P (advance r).2) (start : P r) : P r' := by
  have forward {r r' : ρ} (h : Forward r r') (start : P r) : P r' := by
    induction h with
    | here _ => exact start
    | @step r _ _ _ moved _ _ ih =>
      have next := step r start
      rw [moved] at next
      exact ih next
  cases h with
  | nothing _ => exact start
  | range on _ => exact forward on start
  | off breaks =>
    obtain ⟨last, on, breaks⟩ := breaks
    have next := step last (forward on start)
    cases breaks with
    | own moved => rwa [moved] at next
    | stalled moved _ => rwa [moved] at next

theorem advanceRange_consumes (r : ρ) : Consumes r (advanceRange r).1 (advanceRange r).2 := by
  unfold advanceRange
  by_cases ended : atEnd r = true
  · rw [if_pos ended]
    exact .nothing ended
  · rw [if_neg ended]
    rcases moved : advance r with ⟨fault | inside, r'⟩
    · exact .off ⟨r, .here r, .own moved⟩
    · by_cases grows : index r < index r'
      · simp only [if_pos grows]
        exact .range (.step moved grows (.here r')) grows
      · simp only [if_neg grows]
        exact .off ⟨r, .here r, .stalled moved (Nat.le_of_not_lt grows)⟩

/-- A scan goes forward at every step that it takes. -/
theorem scan_goes (extends? : List Char → StateM τ Bool) (r : ρ) (t : τ) :
    Goes r (scan extends? r t).1 (scan extends? r t).2.1 := by
  fun_induction scan extends? r t with
  | case1 r t fault r' moved => exact .off ⟨r, .here r, .own moved⟩
  | case2 r t r' grows t' said moved ih => exact ih.before (.step moved grows (.here r'))
  | case3 r t r' grows t' said moved => exact .farther (.step moved grows (.here r')) grows
  | case4 r t inside r' moved grows stops => exact .farther (.step moved grows (.here r')) grows
  | case5 r t inside r' moved still => exact .off ⟨r, .here r, .stalled moved (Nat.le_of_not_lt still)⟩

theorem advanceWhile_consumes (extends? : List Char → StateM τ Bool) (r : ρ) (t : τ) :
    Consumes r (advanceWhile extends? r t).1 (advanceWhile extends? r t).2.1 := by
  unfold advanceWhile
  by_cases ended : atEnd r = true
  · rw [if_pos ended]
    exact .nothing ended
  · rw [if_neg ended]
    have goes := scan_goes extends? r t
    rcases scanned : scan extends? r t with ⟨fault | _, r', t'⟩
    · rw [scanned] at goes
      cases goes with
      | off breaks => exact .off breaks
    · rw [scanned] at goes
      cases goes with
      | farther on grows => exact .range on grows

theorem advanceWhileIn_consumes (set : CharSet) (r : ρ) :
    Consumes r (advanceWhileIn set r).1 (advanceWhileIn set r).2 :=
  advanceWhile_consumes _ r ()

end Reader

theorem RunStream.advance_consumes [Reader ρ e] (kind : CharKind) (r : ρ) :
    Reader.Consumes r (RunStream.advance kind r).1 (RunStream.advance kind r).2 := by
  cases kind with
  | member set => exact Reader.advanceWhileIn_consumes set r
  | mark m => exact Reader.advanceRange_consumes r
  | other => exact Reader.advanceRange_consumes r

/-! ## Courses of streams -/

/-- How far a stream of tokens has come. -/
structure Course (σ ρ : Type) where
  /-- Where the next token starts. -/
  place : σ → Nat
  /-- The reader that the tokens come from. -/
  reader : σ → ρ
  /-- What the stream keeps, as long as nothing breaks off. -/
  Tidy : σ → Prop

namespace Course

variable [Reader ρ e]

/-- From the one state to the other, the stream gave these tokens, side by side, and its reader went forward. -/
structure Leads (c : Course σ ρ) (s : σ) (tokens : List (Token e κ)) (s' : σ) : Prop where
  tiles : Tiles (c.place s) (c.place s') tokens
  forward : Reader.Forward (c.reader s) (c.reader s')
  tidy : c.Tidy s'

inductive Step (c : Course σ ρ) (s : σ) : Except Fault (Option (Token e κ)) → σ → Prop
  | nothing : Step c s (.ok none) s
  | token {t : Token e κ} {s' : σ} : c.Leads s [t] s' → Step c s (.ok (some t)) s'
  | off {fault : Fault} {s' : σ} : Reader.BreaksOff (c.reader s) fault (c.reader s') → Step c s (.error fault) s'

def Steady [Source Id σ (Token e κ)] (c : Course σ ρ) : Prop :=
  ∀ s, c.Tidy s → c.Step s (Source.call s).1 (Source.call s).2

/-- What up to `n` calls come to: as many tokens, fewer if there are no more, or a fault in the end. In any case
    the tokens lie side by side. -/
inductive Run [Source Id σ (Token e κ)] (c : Course σ ρ) (s : σ) (n : Nat) :
    Array (Token e κ) × Except Fault Unit × σ → Prop
  | full {tokens : Array (Token e κ)} {s' : σ} :
      c.Leads s tokens.toList s' → tokens.size = n → Run c s n (tokens, .ok (), s')
  | ended {tokens : Array (Token e κ)} {s' : σ} :
      c.Leads s tokens.toList s' → Source.call s' = (.ok none, s') → Run c s n (tokens, .ok (), s')
  | off {tokens : Array (Token e κ)} {last s' : σ} {fault : Fault} :
      c.Leads s tokens.toList last → Source.call last = (.error fault, s') →
      Reader.BreaksOff (c.reader last) fault (c.reader s') → Run c s n (tokens, .error fault, s')

variable {c : Course σ ρ} {s s' s'' : σ} {tokens more : List (Token e κ)}

theorem Leads.here (h : c.Tidy s) : c.Leads s ([] : List (Token e κ)) s := ⟨.done _, .here _, h⟩

theorem Leads.trans (h : c.Leads s tokens s') (h' : c.Leads s' more s'') : c.Leads s (tokens ++ more) s'' :=
  ⟨h.tiles.append h'.tiles, h.forward.trans h'.forward, h'.tidy⟩

theorem Leads.single {t : Token e κ} (h : c.Leads s [t] s') :
    t.start = c.place s ∧ t.stop = c.place s' ∧ t.start < t.stop := by
  have covers := h.tiles.head_lt
  obtain ⟨start, stop, -⟩ := h.tiles.ends
  exact ⟨start, stop, covers⟩

/-- A token over what the reader consumed leads from where the reader was to where it is. -/
theorem Step.of_consumes (kind : κ) {answer : Except Fault (Option Span)} {r r' : ρ}
    (consumed : Reader.Consumes r answer r') (going : Reader.atEnd r = false)
    (hs : c.place s = Reader.index r ∧ c.reader s = r) (hs' : c.place s' = Reader.index r' ∧ c.reader s' = r')
    (tidy' : c.Tidy s') : c.Step s (answer.bind (Token.ofSpan? kind) : Except Fault (Option (Token e κ))) s' := by
  cases consumed with
  | nothing ended =>
    rw [going] at ended
    cases ended
  | range forward grows =>
    have made : Token.ofSpan? kind (some ⟨Reader.index r, Reader.index r'⟩) =
        .ok (some ⟨⟨Reader.index r, Reader.index r'⟩, kind⟩ : Option (Token e κ)) := by
      simp only [Token.ofSpan?, Token.ofSpan, if_pos grows]
      rfl
    show c.Step s (Token.ofSpan? kind (some ⟨Reader.index r, Reader.index r'⟩)) s'
    rw [made]
    refine .token ⟨.token hs.1.symm (hs.1 ▸ grows) ?_, ?_, tidy'⟩
    · rw [hs'.1]
      exact .done _
    · rw [hs.2, hs'.2]
      exact forward
  | off breaks =>
    refine .off ?_
    rw [hs.2, hs'.2]
    exact breaks

/-- What any number of calls to a stream on its course come to. -/
theorem Steady.burst [Source Id σ (Token e κ)] (steady : c.Steady (κ := κ)) (tidy : c.Tidy s) (n : Nat) :
    c.Run s n (Source.burst s n) := by
  induction n generalizing s with
  | zero => exact .full (.here tidy) rfl
  | succ n ih =>
    have step := steady s tidy
    rcases called : Source.call s with ⟨fault | _ | t, s'⟩
    · rw [called] at step
      rw [Source.burst_of_fault called]
      cases step with
      | off breaks => exact .off (.here tidy) called breaks
    · rw [called] at step
      rw [Source.burst_of_pause called]
      cases step with
      | nothing => exact .ended (.here tidy) called
    · rw [called] at step
      rw [Source.burst_of_item called]
      cases step with
      | token first =>
        have rest := ih first.tidy
        generalize Source.burst s' n = run at rest ⊢
        cases rest with
        | full leads size => exact .full (by simpa using first.trans leads) (by simp [size, Nat.add_comm])
        | ended leads nothing => exact .ended (by simpa using first.trans leads) nothing
        | off leads breaks off => exact .off (by simpa using first.trans leads) breaks off

end Course

/-! ## Characters and runs -/

section

variable [Reader ρ e]

def CharStream.course : Course (CharStream ρ) ρ := ⟨fun s => Reader.index s.reader, CharStream.reader, fun _ => True⟩

def RunStream.course : Course (RunStream ρ) ρ := ⟨fun s => Reader.index s.reader, RunStream.reader, fun _ => True⟩

theorem CharStream.steady : (CharStream.course : Course (CharStream ρ) ρ).Steady (κ := CharKind) := by
  intro s _
  show CharStream.course.Step s (CharStream.next s).1 (CharStream.next s).2
  unfold CharStream.next
  by_cases ended : Reader.atEnd s.reader = true
  · rw [if_pos ended]
    exact .nothing
  · have going : Reader.atEnd s.reader = false := by simpa using ended
    rw [if_neg ended]
    have consumed := Reader.advanceRange_consumes s.reader
    rcases ran : Reader.advanceRange s.reader with ⟨fault | span?, r⟩
    all_goals
      rw [ran] at consumed
      exact .of_consumes (classify (Reader.current s.reader)) consumed going ⟨rfl, rfl⟩ ⟨rfl, rfl⟩ trivial

theorem RunStream.steady : (RunStream.course : Course (RunStream ρ) ρ).Steady (κ := RunKind) := by
  intro s _
  show RunStream.course.Step s (RunStream.next s).1 (RunStream.next s).2
  unfold RunStream.next
  by_cases ended : Reader.atEnd s.reader = true
  · rw [if_pos ended]
    exact .nothing
  · have going : Reader.atEnd s.reader = false := by simpa using ended
    rw [if_neg ended]
    have consumed := RunStream.advance_consumes (classify (Reader.current s.reader)) s.reader
    rcases ran : RunStream.advance (classify (Reader.current s.reader)) s.reader with ⟨fault | span?, r⟩
    all_goals
      rw [ran] at consumed
      simp only [ran]
      exact .of_consumes (classify (Reader.current s.reader)).toRun consumed going ⟨rfl, rfl⟩ ⟨rfl, rfl⟩ trivial

end

end TokenScan
