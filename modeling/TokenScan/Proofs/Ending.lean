/-
  TokenScan.Proofs.Ending — what is said about the end is exact, and the end is final.

  A stream of tokens is at its end when its reader is. Then a call brings nothing and leaves the stream as it is;
  before the end a call brings a token or breaks off, however badly the reader behaves (`Announces`). A buffer is
  at its end when nothing waits and its stream is at its end, and a stream of words when its buffer of
  characters is.

  `Ways` are ways to a buffer: for its owner there is one, and for a pool there is one through each handle that
  leads to it. `Ways.Ends` is what can be relied on: the end is reported just when consuming brings nothing, looks
  ahead do not change what is reported unless they break off, which they do only before the end, and once consuming
  has brought nothing it never brings anything again, nor is anything shown, whatever is done meanwhile: requests by
  the owner, or scripts over the handles, in which predicates use handles too. It follows from what single steps do
  (`Ways.Steps`), by induction over the looks and over what is done later.
-/

import TokenScan.Proofs.Groups
import TokenScan.Proofs.Pausing
import TokenScan.Proofs.Scripts

namespace TokenScan

variable {σ ρ α β γ η κ τ : Type} {ι : Type*} {e : Encoding}

/-! ## Streams -/

/-- At the end of its reader, a call to the stream brings nothing and leaves it as it is; before the end, it brings
    something or breaks off. -/
structure Announces (σ : Type) {ρ α : Type} {e : Encoding} [Source Id σ α] [ReadsFrom σ ρ] [Reader ρ e] : Prop where
  ended : ∀ s : σ, Reader.atEnd (ReadsFrom.reader s) = true → Source.call s = (.ok none, s)
  going : ∀ s : σ, Reader.atEnd (ReadsFrom.reader s) = false → (Source.call s).1 ≠ .ok none

theorem Token.ofSpan?_some_ne_none (kind : κ) (span : Span) :
    (Token.ofSpan? kind (some span) : Except Fault (Option (Token e κ))) ≠ .ok none := by
  simp only [Token.ofSpan?, Token.ofSpan]
  split
  · simp [Functor.map, Except.map]
  · simp [Functor.map, Except.map]

section

variable [Reader ρ e] {r r' : ρ} {kind : CharKind} {span? : Option Span}

theorem Reader.advanceRange_ne_none (going : Reader.atEnd r = false) (ran : Reader.advanceRange r = (.ok span?, r')) :
    span? ≠ none := by
  simp only [Reader.advanceRange, going, Bool.false_eq_true, if_false] at ran
  split at ran
  · simp at ran
  · split at ran
    · simp at ran
      simp [← ran.1]
    · simp at ran

theorem Reader.advanceWhileIn_ne_none {set : CharSet} (going : Reader.atEnd r = false)
    (ran : Reader.advanceWhileIn set r = (.ok span?, r')) : span? ≠ none := by
  simp only [Reader.advanceWhileIn, Reader.advanceWhile, going, Bool.false_eq_true, if_false] at ran
  rcases scanned : Reader.scan (fun c => (pure (set.contains c) : StateM Unit Bool)) r () with ⟨fault | _, r'', t⟩
  · simp [scanned] at ran
  · simp [scanned] at ran
    simp [← ran.1]

theorem RunStream.advance_ne_none (going : Reader.atEnd r = false) (ran : RunStream.advance kind r = (.ok span?, r')) :
    span? ≠ none := by
  cases kind with
  | member set => exact Reader.advanceWhileIn_ne_none going ran
  | mark m => exact Reader.advanceRange_ne_none going ran
  | other => exact Reader.advanceRange_ne_none going ran

theorem CharStream.announces : Announces (CharStream ρ) where
  ended s atEnd := by
    have atEnd : Reader.atEnd s.reader = true := atEnd
    show (CharStream.next s : _ × _) = _
    unfold CharStream.next
    rw [if_pos atEnd]
  going s going := by
    have going : Reader.atEnd s.reader = false := going
    show (CharStream.next s).1 ≠ _
    unfold CharStream.next
    rw [if_neg (by simp [going])]
    rcases ran : Reader.advanceRange s.reader with ⟨fault | _ | span, r⟩
    · simp
    · exact absurd rfl (Reader.advanceRange_ne_none going ran)
    · exact Token.ofSpan?_some_ne_none _ span

theorem RunStream.announces : Announces (RunStream ρ) where
  ended s atEnd := by
    have atEnd : Reader.atEnd s.reader = true := atEnd
    show (RunStream.next s : _ × _) = _
    unfold RunStream.next
    rw [if_pos atEnd]
  going s going := by
    have going : Reader.atEnd s.reader = false := going
    show (RunStream.next s).1 ≠ _
    unfold RunStream.next
    rw [if_neg (by simp [going])]
    rcases ran : RunStream.advance (classify (Reader.current s.reader)) s.reader with ⟨fault | _ | span, r⟩
    · simp [ran]
    · exact absurd rfl (RunStream.advance_ne_none going ran)
    · simp only [ran]
      exact Token.ofSpan?_some_ne_none _ span

end

/-! ## Buffers -/

namespace Buffer

open Source (call)

variable [Source Id σ α] [ReadsFrom σ ρ] [Reader ρ e] {b b' : Buffer σ α} {a : Option α} {distance : Nat}

omit [Source Id σ α] in
theorem isAtEnd_iff : b.isAtEnd = true ↔ b.buffered = 0 ∧ Reader.atEnd (ReadsFrom.reader b.source) = true := by
  simp [isAtEnd, Queue.isEmpty, buffered]

/-- What waits is behind no end, and looking ahead does not take it away. -/
theorem isAtEnd_peekAt_of_waits (waits : 0 < b.buffered) :
    ((peekAt distance : ScanT Id (Buffer σ α) (Option α)) b).2.isAtEnd = false := by
  obtain ⟨new, drawn, -⟩ := peekAt_follows distance b []
  have size := congrArg List.length drawn
  simp only [Moment.drawn, List.nil_append, List.length_append, Queue.length_toList] at size
  have still : 0 < ((peekAt distance : ScanT Id (Buffer σ α) (Option α)) b).2.buffered := by
    show 0 < Queue.size _
    have : b.buffered = b.pending.size := rfl
    omega
  rw [Bool.eq_false_iff]
  intro ended
  have := (isAtEnd_iff.mp ended).1
  omega

variable (stream : Announces σ)
include stream

theorem next_of_isAtEnd (ended : b.isAtEnd = true) : (next : ScanT Id (Buffer σ α) (Option α)) b = (.ok none, b) := by
  obtain ⟨none_waits, atEnd⟩ := isAtEnd_iff.mp ended
  have empty : b.pending.pop? = none := by
    rw [Queue.pop?_eq_none_iff, ← List.length_eq_zero_iff, Queue.length_toList]
    exact none_waits
  simp only [next, empty, pull_apply, stream.ended b.source atEnd]

theorem peekAt_of_isAtEnd (ended : b.isAtEnd = true) (distance : Nat) :
    (peekAt distance : ScanT Id (Buffer σ α) (Option α)) b = (.ok none, b) := by
  obtain ⟨none_waits, atEnd⟩ := isAtEnd_iff.mp ended
  have empty : b.pending.toList = [] := by
    rw [← List.length_eq_zero_iff, Queue.length_toList]
    exact none_waits
  cases distance with
  | zero => rw [peekAt_zero_apply, empty]; rfl
  | succ distance =>
    rw [peekAt_apply, none_waits, Nat.sub_zero]
    unfold refill
    rw [ScanT.bind_apply, pull_apply, stream.ended b.source atEnd]
    simp [ScanT.pure_apply, empty]

theorem next_ne_none (going : b.isAtEnd = false) : ((next : ScanT Id (Buffer σ α) (Option α)) b).1 ≠ .ok none := by
  by_cases waits : b.buffered = 0
  · have inside : Reader.atEnd (ReadsFrom.reader b.source) = false := by
      rw [Bool.eq_false_iff]
      intro atEnd
      rw [isAtEnd_iff.mpr ⟨waits, atEnd⟩] at going
      cases going
    rw [next_of_none_waits waits]
    exact stream.going b.source inside
  · intro nothing
    cases popped : b.pending.pop? with
    | some front =>
      simp only [next, popped] at nothing
      cases nothing
    | none =>
      have empty := (Queue.pop?_eq_none_iff b.pending).mp popped
      rw [← List.length_eq_zero_iff, Queue.length_toList] at empty
      exact waits empty

theorem peek_ne_none (going : b.isAtEnd = false) : ((peekAt 1 : ScanT Id (Buffer σ α) (Option α)) b).1 ≠ .ok none := by
  intro nothing
  have pauses := peekAt_eq_none_iff.mp nothing
  by_cases waits : b.buffered = 0
  · rw [waits, Source.pausesWithin_one_iff, ← next_of_none_waits waits] at pauses
    exact next_ne_none stream going pauses
  · have := pauses.2
    omega

theorem isAtEnd_of_peekAt (going : b.isAtEnd = false)
    (ran : (peekAt distance : ScanT Id (Buffer σ α) (Option α)) b = (.ok a, b')) : b'.isAtEnd = false := by
  by_cases waits : b.buffered = 0
  · cases distance with
    | zero =>
      rw [peekAt_zero_apply] at ran
      obtain ⟨-, rfl⟩ := Prod.mk.inj ran
      exact going
    | succ distance =>
      obtain ⟨b'', ran', -, waiting⟩ := peekAt_burst b distance
      rw [ran, waits] at ran'
      obtain ⟨answer, rfl⟩ := Prod.mk.inj ran'
      rw [Bool.eq_false_iff]
      intro ended
      have none_waits := (isAtEnd_iff.mp ended).1
      rw [waits, Nat.sub_zero] at waiting
      rw [Nat.sub_zero] at answer
      rcases called : call b.source with ⟨fault | _ | item, s'⟩
      · rw [Source.burst_of_fault called] at answer
        cases answer
      · have nothing : (call b.source).1 ≠ .ok none := by
          rw [← next_of_none_waits waits]
          exact next_ne_none stream going
        rw [called] at nothing
        exact nothing rfl
      · rw [Source.burst_of_item called] at waiting
        simp at waiting
        omega
  · have waiting : ((peekAt distance : ScanT Id (Buffer σ α) (Option α)) b).2.isAtEnd = false :=
      isAtEnd_peekAt_of_waits (Nat.pos_of_ne_zero waits)
    rwa [ran] at waiting

end Buffer

/-! ## Streams of words -/

namespace WordStream

open Buffer (direct)

variable [Source Id σ (Token e CharKind)] {b b' : Buffer σ (Token e CharKind)} {c : Token e CharKind}

theorem nextUntilFrom_some_ne_none (q : Token e CharKind → Bool) (last : Token e CharKind) (limit : Nat)
    (b : Buffer σ (Token e CharKind)) : (direct.nextUntilFrom (fun c => pure (q c)) (some last) limit b).1 ≠ .ok none := by
  induction limit generalizing last b with
  | zero =>
    rw [Lookahead.nextUntilFrom, ScanT.pure_apply]
    simp
  | succ limit ih =>
    unfold Lookahead.nextUntilFrom
    rw [ScanT.bind_apply]
    rcases peeked : direct.peek b with ⟨fault | _ | c, b'⟩
    · simp
    · simp [ScanT.pure_apply]
    · have waits := Buffer.waits_of_peekAt (congrArg Prod.fst peeked)
      rw [show (Buffer.peekAt (0 + 1) : ScanT Id (Buffer σ _) _) b = (.ok (some c), b') from peeked] at waits
      have brought : (direct.next b').1 = .ok (some c) := Buffer.next_of_waits waits
      simp only
      rw [ScanT.bind_ok (ScanT.pure_apply _ _)]
      split
      · simp [ScanT.pure_apply]
      · rw [ScanT.bind_ok (show direct.next b' = (.ok (some c), (direct.next b').2) from Prod.ext brought rfl)]
        exact ih c _

/-- While a character waits, a scan that has consumed nothing has left the buffer as it was. -/
theorem nextUntilFrom_eq_none (q : Token e CharKind → Bool) {limit : Nat} (waits : b.pending.toList[0]? = some c)
    (ran : direct.nextUntilFrom (fun c => pure (q c)) none limit b = (.ok none, b')) : b' = b := by
  cases limit with
  | zero => exact (congrArg Prod.snd ran).symm
  | succ limit =>
    unfold Lookahead.nextUntilFrom at ran
    rw [ScanT.bind_ok (show direct.peek b = (.ok (some c), b) from Buffer.peekAt_of_waits waits)] at ran
    simp only at ran
    rw [ScanT.bind_ok (ScanT.pure_apply _ _)] at ran
    split at ran
    · exact (congrArg Prod.snd ran).symm
    · have brought : (direct.next b).1 = .ok (some c) := Buffer.next_of_waits waits
      rw [ScanT.bind_ok (show direct.next b = (.ok (some c), (direct.next b).2) from Prod.ext brought rfl)] at ran
      exact absurd (congrArg Prod.fst ran) (nextUntilFrom_some_ne_none q c limit _)

/-- If there is a first character, there is a word, unless a call breaks off. -/
theorem nextWord_ne_none (h : (direct.peek b).1 ≠ .ok none) : (nextWord direct b).1 ≠ .ok none := by
  unfold nextWord
  rw [ScanT.bind_apply]
  rcases peeked : direct.peek b with ⟨fault | _ | first, b'⟩
  · simp
  · rw [peeked] at h
    exact absurd rfl h
  · have waits : b'.pending.toList[0]? = some first := by
      have shown : ((Buffer.peekAt (0 + 1) : ScanT Id (Buffer σ _) _) b).2.pending.toList[0]? = some first :=
        Buffer.waits_of_peekAt (congrArg Prod.fst peeked)
      rwa [show (Buffer.peekAt (0 + 1) : ScanT Id (Buffer σ _) _) b = _ from peeked] at shown
    -- with a last character, the word has both its ends
    have spans (last : Token e CharKind) :
        (Token.spanning (WordKind.ofFirst first.kind) first (some last) : Except Fault (Option (Token e WordKind))) ≠
          .ok none := Token.ofSpan?_some_ne_none _ _
    simp only
    rw [ScanT.bind_apply]
    rcases scanned : (WordKind.ofFirst first.kind).continues direct b' with ⟨fault | _ | last, b''⟩
    · simp
    · simp only
      rw [WordKind.continues_eq] at scanned
      obtain rfl : b'' = b' := nextUntilFrom_eq_none _ waits scanned
      have brought : direct.next b'' = (.ok (some first), (direct.next b'').2) :=
        Prod.ext (Buffer.next_of_waits waits) rfl
      rw [ScanT.bind_ok brought]
      rcases spanned : Token.spanning (WordKind.ofFirst first.kind) first (some first) with fault | _ | token
      · intro nothing; cases nothing
      · exact absurd spanned (spans first)
      · intro nothing; cases nothing
    · simp only
      rw [ScanT.bind_ok (ScanT.pure_apply (some last) b'')]
      rcases spanned : Token.spanning (WordKind.ofFirst first.kind) first (some last) with fault | _ | token
      · intro nothing; cases nothing
      · exact absurd spanned (spans last)
      · intro nothing; cases nothing

end WordStream

/-! ## What can be relied on -/

/-- Ways to a buffer: from a state, some lead there; each tells whether the end is reached, consumes, and looks ahead. -/
structure Ways (ρ η β γ : Type) where
  leads : ρ → η → Prop
  atEnd : η → ScanT Id ρ Bool
  next : η → ScanT Id ρ (Option β)
  peekAt : η → Nat → ScanT Id ρ (Option γ)

namespace Ways

def looks (w : Ways ρ η β γ) (places : List (η × Nat)) : ScanT Id ρ (List (Option γ)) :=
  places.mapM fun look => w.peekAt look.1 look.2

def after (act : ι → ρ → ρ) (s : ρ) (done : List ι) : ρ := done.foldl (fun s i => act i s) s

/-- What can be relied on about the end, while things are done by `act`. -/
structure Ends (w : Ways ρ η β γ) (act : ι → ρ → ρ) (s : ρ) : Prop where
  /-- To be told about the end never fails and changes nothing. -/
  told : ∀ h, w.leads s h → ∃ ended, w.atEnd h s = (.ok ended, s)
  /-- It is the end just if consuming brings nothing. -/
  exactly : ∀ h g, w.leads s h → w.leads s g → ((w.atEnd h s).1 = .ok true ↔ (w.next g s).1 = .ok none)
  /-- Looks ahead that do not break off, however many and however far, do not change what is told. -/
  unmoved : ∀ h, w.leads s h → ∀ places, (∀ look ∈ places, w.leads s look.1) → ∀ shown s',
    w.looks places s = (.ok shown, s') → (w.atEnd h s').1 = (w.atEnd h s).1
  /-- Looks ahead break off only before the end. -/
  ahead : ∀ h, w.leads s h → ∀ places, (∀ look ∈ places, w.leads s look.1) → ∀ fault s',
    w.looks places s = (.error fault, s') → (w.atEnd h s).1 = .ok false
  /-- Once consuming has brought nothing, whatever is done, it brings nothing, and nothing is shown. -/
  final : ∀ h, w.leads s h → (w.next h s).1 = .ok none → ∀ (done : List ι) (g : η),
    let later := after act (w.next h s).2 done
    w.leads later g → (w.atEnd g later).1 = .ok true ∧ (w.next g later).1 = .ok none ∧
      ∀ distance, (w.peekAt g distance later).1 = .ok none

/-- What single steps do, from sound states: `ended` is what is told, the end stays, and a look before the end
    that does not break off leaves the end ahead. -/
structure Steps (w : Ways ρ η β γ) (act : ι → ρ → ρ) (Sound : ρ → Prop) (ended : ρ → Bool) : Prop where
  told : ∀ s h, Sound s → w.leads s h → w.atEnd h s = (.ok (ended s), s)
  next : ∀ s h, Sound s → w.leads s h → ended s = true → w.next h s = (.ok none, s)
  peekAt : ∀ s h distance, Sound s → w.leads s h → ended s = true → w.peekAt h distance s = (.ok none, s)
  brings : ∀ s h, Sound s → w.leads s h → ended s = false → (w.next h s).1 ≠ .ok none
  leaves : ∀ s h distance a s', Sound s → w.leads s h → ended s = false → w.peekAt h distance s = (.ok a, s') →
    ended s' = false
  keeps : ∀ s h distance, Sound s → w.leads s h →
    Sound (w.peekAt h distance s).2 ∧ ∀ g, w.leads s g → w.leads (w.peekAt h distance s).2 g
  act : ∀ s i, Sound s → ended s = true → Sound (act i s) ∧ ended (act i s) = true

namespace Steps

variable {w : Ways ρ η β γ} {act : ι → ρ → ρ} {Sound : ρ → Prop} {ended : ρ → Bool} {s s' : ρ} {h : η}

/-- A look that does not break off changes nothing about the end; one that breaks off does so before the end. -/
theorem look (steps : Steps w act Sound ended) (sound : Sound s) (leads : w.leads s h) (distance : Nat) :
    (∀ a s', w.peekAt h distance s = (.ok a, s') → ended s' = ended s) ∧
      ∀ fault s', w.peekAt h distance s = (.error fault, s') → ended s = false := by
  cases now : ended s with
  | true =>
    rw [steps.peekAt s h distance sound leads now]
    refine ⟨?_, fun _ _ other => by cases other⟩
    intro a s' same
    rw [← (Prod.mk.inj same).2, now]
  | false => exact ⟨fun a s' ran => steps.leaves s h distance a s' sound leads now ran, fun _ _ _ => rfl⟩

theorem looks (steps : Steps w act Sound ended) (sound : Sound s) (places : List (η × Nat))
    (leads : ∀ look ∈ places, w.leads s look.1) :
    (∀ shown s', w.looks places s = (.ok shown, s') → ended s' = ended s ∧ Sound s' ∧ ∀ g, w.leads s g → w.leads s' g) ∧
      ∀ fault s', w.looks places s = (.error fault, s') → ended s = false := by
  induction places generalizing s with
  | nil =>
    have ran : w.looks [] s = (.ok [], s) := rfl
    rw [ran]
    refine ⟨?_, fun _ _ other => by cases other⟩
    intro shown s' same
    obtain ⟨-, rfl⟩ := Prod.mk.inj same
    exact ⟨rfl, sound, fun _ leads => leads⟩
  | cons first rest ih =>
    have here := leads first List.mem_cons_self
    obtain ⟨sound₁, leads₁⟩ := steps.keeps s first.1 first.2 sound here
    obtain ⟨same, before⟩ := steps.look sound here first.2
    have split : w.looks (first :: rest) = w.peekAt first.1 first.2 >>= fun a => w.looks rest >>= fun more =>
        pure (a :: more) := List.mapM_cons
    rw [split, ScanT.bind_apply]
    rcases peeked : w.peekAt first.1 first.2 s with ⟨fault | a, s₁⟩
    · refine ⟨?_, fun _ _ _ => before fault s₁ peeked⟩
      intro _ _ other
      cases other
    · rw [peeked] at sound₁ leads₁
      obtain ⟨further, beyond⟩ := ih sound₁ fun look mem => leads₁ _ (leads look (List.mem_cons_of_mem _ mem))
      rw [same a s₁ peeked] at further beyond
      simp only
      rw [ScanT.bind_apply]
      rcases ran : w.looks rest s₁ with ⟨fault | more, s₂⟩
      · refine ⟨?_, fun _ _ _ => beyond fault s₂ ran⟩
        intro _ _ other
        cases other
      · obtain ⟨same₂, sound₂, leads₂⟩ := further more s₂ ran
        simp only [ScanT.pure_apply]
        refine ⟨?_, fun _ _ other => by cases other⟩
        intro shown s' ends
        obtain ⟨-, rfl⟩ := Prod.mk.inj ends
        exact ⟨same₂, sound₂, fun g leads => leads₂ g (leads₁ g leads)⟩

theorem after (steps : Steps w act Sound ended) (sound : Sound s) (hend : ended s = true) (done : List ι) :
    Sound (Ways.after act s done) ∧ ended (Ways.after act s done) = true := by
  induction done generalizing s with
  | nil => exact ⟨sound, hend⟩
  | cons i done ih =>
    obtain ⟨sound, hend⟩ := steps.act s i sound hend
    exact ih sound hend

/-- What single steps do makes up what can be relied on. -/
theorem ends (steps : Steps w act Sound ended) (sound : Sound s) : w.Ends act s where
  told h leads := ⟨_, steps.told s h sound leads⟩
  exactly h g leads leads' := by
    rw [steps.told s h sound leads]
    cases now : ended s with
    | true => simp [steps.next s g sound leads' now]
    | false => simp [steps.brings s g sound leads' now]
  unmoved h leads places mem shown s' ran := by
    obtain ⟨same, sound', leads'⟩ := (steps.looks sound places mem).1 shown s' ran
    rw [steps.told s h sound leads, steps.told s' h sound' (leads' h leads), same]
  ahead h leads places mem fault s' ran := by
    rw [steps.told s h sound leads, (steps.looks sound places mem).2 fault s' ran]
  final h leads nothing done g := by
    cases now : ended s with
    | false => exact absurd nothing (steps.brings s h sound leads now)
    | true =>
      rw [steps.next s h sound leads now]
      intro later leads'
      obtain ⟨sound', now'⟩ := steps.after sound now done
      refine ⟨?_, ?_, ?_⟩
      · rw [steps.told later g sound' leads', now']
      · rw [steps.next later g sound' leads' now']
      · intro distance
        rw [steps.peekAt later g distance sound' leads' now']

end Steps

end Ways

/-! ## A buffer in the hands of its owner -/

namespace Buffer

variable [Source Id σ α] [ReadsFrom σ ρ] [Reader ρ e] [Kinded α κ] [DecidableEq κ] {b : Buffer σ α}

def ways : Ways (Buffer σ α) Unit α α := ⟨fun _ _ => True, fun _ => isAtEnd <$> get, fun _ => next, fun _ => peekAt⟩

def ask (asked : Request σ α κ τ × τ) (b : Buffer σ α) : Buffer σ α := (asked.1.respond reach asked.2 b).2

variable (stream : Announces σ)
include stream

/-- At the end, all that can be done with a buffer leaves it at the end. -/
theorem reach_at_end : (reach : Reach (ScanT Id (Buffer σ α)) σ α).Matches
    (ScanT.simulation fun b b' => b = b' ∧ b.isAtEnd = true) reach where
  cursor.next b _ h := by
    obtain ⟨rfl, ended⟩ := h
    refine ⟨rfl, rfl, ?_⟩
    rw [show reach.cursor.next b = (.ok none, b) from next_of_isAtEnd stream ended]
    exact ended
  cursor.peekAt distance _ b _ h := by
    obtain ⟨rfl, ended⟩ := h
    refine ⟨rfl, rfl, ?_⟩
    rw [show reach.cursor.peekAt distance b = (.ok none, b) from peekAt_of_isAtEnd stream ended distance]
    exact ended
  cursor.scanLimit b _ h := by
    obtain ⟨rfl, ended⟩ := h
    exact ⟨rfl, rfl, ended⟩
  waiting b _ h := by
    obtain ⟨rfl, ended⟩ := h
    refine ⟨rfl, rfl, ?_⟩
    rw [show reach.cursor.peekAt 0 b = (.ok none, b) from peekAt_of_isAtEnd stream ended 0]
    exact ended
  buffer b _ h := by
    obtain ⟨rfl, ended⟩ := h
    exact ⟨rfl, rfl, ended⟩
  withLimits limits b _ h := by
    obtain ⟨rfl, ended⟩ := h
    exact ⟨rfl, rfl, ended⟩

theorem isAtEnd_ask (ended : b.isAtEnd = true) (asked : Request σ α κ τ × τ) : (ask asked b).isAtEnd = true := by
  have stays := Simulation.rel_bind _ (Request.run_matches (reach_at_end stream) asked.1 (asked.2, []))
    fun a => Simulation.rel_pure _ (Response.reply a.1 a.2.1 a.2.2)
  obtain ⟨-, same, stays⟩ := stays b b ⟨rfl, ended⟩
  exact stays

theorem ways_steps : (ways : Ways (Buffer σ α) Unit α α).Steps (ask : Request σ α κ τ × τ → Buffer σ α → Buffer σ α)
    (fun _ => True) isAtEnd where
  told _ _ _ _ := rfl
  next _ _ _ _ ended := next_of_isAtEnd stream ended
  peekAt _ _ distance _ _ ended := peekAt_of_isAtEnd stream ended distance
  brings _ _ _ _ going := next_ne_none stream going
  leaves _ _ _ _ _ _ _ going ran := isAtEnd_of_peekAt stream going ran
  keeps _ _ _ _ _ := ⟨trivial, fun _ _ => trivial⟩
  act _ asked _ ended := ⟨trivial, isAtEnd_ask stream ended asked⟩

end Buffer

/-! ## A buffer behind handles -/

namespace Pool

variable [Source Id σ α] [ReadsFrom σ ρ] [Reader ρ e] {p q : Pool σ α} {b b' : Buffer σ α} {cell other : Nat}

def ways (cell : Nat) : Ways (Pool σ α) Nat α α where
  leads p h := ∃ access, p.handle? h = some ⟨cell, access⟩
  atEnd h := Buffer.isAtEnd <$> buffer h
  next h := (cursor h).next
  peekAt h := (cursor h).peekAt

/-- When nothing is being read, every way does to the buffer in the cell what its owner would do. -/
theorem ways_apply {h : Nat} (read : ReadBy [] p) (leads : (ways cell : Ways (Pool σ α) Nat α α).leads p h) :
    ∃ b, p.cells[cell]? = some ⟨b, 0⟩ ∧ (ways cell : Ways (Pool σ α) Nat α α).atEnd h p = (.ok b.isAtEnd, p) ∧
      (ways cell : Ways (Pool σ α) Nat α α).next h p =
        (((Buffer.next : ScanT Id _ _) b).1, p.put cell ((Buffer.next : ScanT Id _ _) b).2) ∧
      ∀ distance, (ways cell : Ways (Pool σ α) Nat α α).peekAt h distance p =
        (((Buffer.peekAt distance : ScanT Id _ _) b).1, p.put cell ((Buffer.peekAt distance : ScanT Id _ _) b).2) := by
  obtain ⟨access, named⟩ := leads
  obtain ⟨b, held⟩ := read.held named
  exact ⟨b, held, ScanT.map_ok (buffer_apply named held), update_of_held _ named held,
    fun distance => update_of_held _ named held⟩

def endsAt (cell : Nat) (p : Pool σ α) : Bool := p.cells[cell]?.any (·.buffer.isAtEnd)

section

omit [Source Id σ α]

theorem endsAt_of_held (held : p.cells[cell]? = some ⟨b, 0⟩) : p.endsAt cell = b.isAtEnd := by
  simp [endsAt, held]

theorem endsAt_of_cells (same : q.cells[cell]? = p.cells[cell]?) : q.endsAt cell = p.endsAt cell := by
  rw [endsAt, same, endsAt]

theorem endsAt_put (held : p.cells[other]? = some ⟨b, 0⟩) (still : b.isAtEnd = true → b'.isAtEnd = true)
    (ended : p.endsAt cell = true) : (p.put other b').endsAt cell = true := by
  have inside := (Array.getElem?_eq_some_iff.mp held).1
  by_cases here : other = cell
  · subst here
    rw [endsAt_of_held held] at ended
    rw [endsAt_of_held (b := b') (by rw [put_cells inside, if_pos rfl])]
    exact still ended
  · rw [endsAt_of_cells, ended]
    rw [put_cells inside, if_neg here]

theorem endsAt_modify (f : Cell σ α → Cell σ α) (same : ∀ c, (f c).buffer = c.buffer) (ended : p.endsAt cell = true) :
    ({ p with cells := p.cells.modify other f } : Pool σ α).endsAt cell = true := by
  simp only [endsAt, Array.getElem?_modify] at ended ⊢
  split
  · simpa [Option.any_map, Function.comp_def, same] using ended
  · exact ended

end

variable (stream : Announces σ)
include stream

/-- A buffer that is at its end stays there, whatever is done with the pool. -/
theorem endsAt_lasts (cell : Nat) : Lasts fun p : Pool σ α => p.endsAt cell = true where
  next p other b held := endsAt_put held fun ended => by rwa [Buffer.next_of_isAtEnd stream ended]
  peekAt p other b distance held := endsAt_put held fun ended => by rwa [Buffer.peekAt_of_isAtEnd stream ended]
  named p handle ended := ended
  adopted p b access ended := by
    have inside : cell < p.cells.size := by
      by_contra outside
      rw [endsAt, Array.getElem?_eq_none (Nat.le_of_not_lt outside)] at ended
      cases ended
    rw [endsAt_of_cells, ended]
    exact Array.getElem?_push_lt inside ▸ (Array.getElem?_eq_getElem inside).symm
  without p h ended := ended
  entered p other := endsAt_modify _ fun _ => rfl
  left p other := endsAt_modify _ fun _ => rfl

variable [Kinded α κ] [DecidableEq κ]

omit stream [ReadsFrom σ ρ] [Reader ρ e] in
def perform (asked : Script σ α κ τ Unit × τ) (p : Pool σ α) : Pool σ α := (asked.1.run hands asked.2 p).2

theorem ways_steps (cell : Nat) : (ways cell : Ways (Pool σ α) Nat α α).Steps
    (perform : Script σ α κ τ Unit × τ → Pool σ α → Pool σ α) (ReadBy []) (endsAt cell) where
  told p h read leads := by
    obtain ⟨b, held, told, -⟩ := ways_apply read leads
    rw [endsAt_of_held held, told]
  next p h read leads ended := by
    obtain ⟨b, held, -, next, -⟩ := ways_apply read leads
    rw [endsAt_of_held held] at ended
    rw [next, Buffer.next_of_isAtEnd stream ended, put_of_held held]
  peekAt p h distance read leads ended := by
    obtain ⟨b, held, -, -, peekAt⟩ := ways_apply read leads
    rw [endsAt_of_held held] at ended
    rw [peekAt, Buffer.peekAt_of_isAtEnd stream ended, put_of_held held]
  brings p h read leads going := by
    obtain ⟨b, held, -, next, -⟩ := ways_apply read leads
    rw [endsAt_of_held held] at going
    rw [next]
    exact Buffer.next_ne_none stream going
  leaves p h distance a p' read leads going ran := by
    obtain ⟨b, held, -, -, peekAt⟩ := ways_apply read leads
    rw [endsAt_of_held held] at going
    rw [peekAt] at ran
    obtain ⟨shown, rfl⟩ := Prod.mk.inj ran
    have within := (Array.getElem?_eq_some_iff.mp held).1
    rw [endsAt_of_held (by rw [put_cells within, if_pos rfl])]
    exact Buffer.isAtEnd_of_peekAt stream going (Prod.ext shown rfl)
  keeps p h distance read leads := by
    obtain ⟨b, held, -, -, peekAt⟩ := ways_apply read leads
    rw [peekAt]
    exact ⟨read.put held _, fun g leads => leads⟩
  act p asked read ended := (endsAt_lasts stream cell).run read ended asked.1 asked.2

end Pool

/-! ## A stream of words -/

namespace WordStream

variable [Source Id σ (Token e CharKind)] [ReadsFrom σ ρ] [Reader ρ e]

def lookAt (distance : Nat) : ScanT Id (WordStream σ e) (Option (Token e CharKind)) :=
  ScanT.zoom chars (fun chars s => { s with chars }) (Buffer.peekAt distance)

omit [ReadsFrom σ ρ] [Reader ρ e] in
theorem lookAt_apply (distance : Nat) (s : WordStream σ e) : lookAt distance s =
    (((Buffer.peekAt distance : ScanT Id _ _) s.chars).1, ⟨((Buffer.peekAt distance : ScanT Id _ _) s.chars).2⟩) :=
  rfl

/-- The one way that the owner of a stream of words has; it looks ahead at characters. -/
def ways : Ways (WordStream σ e) Unit (Token e WordKind) (Token e CharKind) where
  leads _ _ := True
  atEnd _ := isAtEnd <$> get
  next _ := Source.next
  peekAt _ := lookAt

/-- What is left of a stream of words after a word has been taken, or after a request to its buffer. -/
def use (asked : Option (Request σ (Token e CharKind) CharKind τ × τ)) (s : WordStream σ e) : WordStream σ e :=
  match asked with
  | none => (Source.call s).2
  | some asked => ⟨Buffer.ask asked s.chars⟩

variable (stream : Announces σ) {s : WordStream σ e}
include stream

theorem call_of_isAtEnd (ended : s.isAtEnd = true) : Source.call s = (.ok none, s) := by
  apply call_of_nextWord
  unfold nextWord
  rw [ScanT.bind_ok (show Buffer.direct.peek s.chars = _ from Buffer.peekAt_of_isAtEnd stream ended 1)]
  rfl

theorem ways_steps : (ways : Ways (WordStream σ e) Unit _ _).Steps
    (use : Option (Request σ (Token e CharKind) CharKind τ × τ) → WordStream σ e → WordStream σ e)
    (fun _ => True) isAtEnd where
  told _ _ _ _ := rfl
  next _ _ _ _ ended := call_of_isAtEnd stream ended
  peekAt s _ distance _ _ ended := by
    show lookAt distance s = _
    rw [lookAt_apply, Buffer.peekAt_of_isAtEnd stream ended distance]
  brings s _ _ _ going := by
    have called := call_of_nextWord (s := s) rfl
    show (Source.call s).1 ≠ _
    rw [called]
    exact nextWord_ne_none (Buffer.peek_ne_none stream going)
  leaves s _ distance a s' _ _ going ran := by
    have ran : lookAt distance s = (.ok a, s') := ran
    rw [lookAt_apply] at ran
    obtain ⟨shown, rfl⟩ := Prod.mk.inj ran
    exact Buffer.isAtEnd_of_peekAt stream going (Prod.ext shown rfl)
  keeps _ _ _ _ _ := ⟨trivial, fun _ _ => trivial⟩
  act s asked _ ended := by
    refine ⟨trivial, ?_⟩
    cases asked with
    | none =>
      rw [use, call_of_isAtEnd stream ended]
      exact ended
    | some asked => exact Buffer.isAtEnd_ask stream ended asked

end WordStream

/-! ## Characters, runs and words -/

open Pool in
/-- Whatever reader the tokens come from: for a buffer of characters or of runs, in the hands of its owner or
    behind handles, after any script, and for a stream of words, what is told about the end is exact and the end
    is final. -/
theorem end_is_exact_and_final (ρ : Type) [Reader ρ e] (τ : Type) :
    (∀ b : Buffer (CharStream ρ) (Token e CharKind),
      Buffer.ways.Ends (Buffer.ask : Request _ _ CharKind τ × τ → _ → _) b) ∧
    (∀ b : Buffer (RunStream ρ) (Token e RunKind),
      Buffer.ways.Ends (Buffer.ask : Request _ _ RunKind τ × τ → _ → _) b) ∧
    (∀ (script : Script (CharStream ρ) (Token e CharKind) CharKind τ Unit) (t : τ) (cell : Nat),
      (Pool.ways cell).Ends (perform : Script _ _ CharKind τ Unit × τ → _ → _) (perform (script, t) ⟨#[], #[]⟩)) ∧
    (∀ (script : Script (RunStream ρ) (Token e RunKind) RunKind τ Unit) (t : τ) (cell : Nat),
      (Pool.ways cell).Ends (perform : Script _ _ RunKind τ Unit × τ → _ → _) (perform (script, t) ⟨#[], #[]⟩)) ∧
    ∀ s : WordStream (CharStream ρ) e,
      WordStream.ways.Ends (WordStream.use : Option (Request _ _ CharKind τ × τ) → _ → _) s := by
  refine ⟨?_, ?_, ?_, ?_, ?_⟩
  · intro b
    exact (Buffer.ways_steps CharStream.announces).ends trivial
  · intro b
    exact (Buffer.ways_steps RunStream.announces).ends trivial
  · intro script t cell
    have unread := (Lasts.nothing.run ReadBy.empty trivial script t).1
    exact (Pool.ways_steps CharStream.announces cell).ends unread
  · intro script t cell
    have unread := (Lasts.nothing.run ReadBy.empty trivial script t).1
    exact (Pool.ways_steps RunStream.announces cell).ends unread
  · intro s
    exact (WordStream.ways_steps CharStream.announces).ends trivial

end TokenScan
