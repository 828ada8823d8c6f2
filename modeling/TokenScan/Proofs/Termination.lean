/-
  TokenScan.Proofs.Termination — scanning ends over every reader whose index is a machine word.

  Such a reader may never report an end, so there is no text whose length would bound a scan. Still a scan goes on
  only if the index has grown, and a word grows so often and no oftener. `Behaviour.turn` is one turn of the loop
  of a scan, made of what the reader does and nothing else, and `Behaviour.loop` gives the loop so many turns.
  Before the index has used up its words the loop is over, and it comes to what `Reader.scan` answers
  (`Behaviour.loop_eq`).

  The same holds from token to token: each one starts behind those before it, so a stream that keeps to its
  course, and whose places are bounded, comes to a call that brings nothing or breaks off (`Course.Steady.finishes`).
-/

import TokenScan.Proofs.Progress
import TokenScan.Reader.Free

namespace TokenScan

variable {ρ σ α κ τ : Type} {e : Encoding}

/-! ## The loop of a scan -/

namespace Behaviour

variable (b : Behaviour ρ) (e : Encoding) (extends? : List Char → StateM τ Bool)

/-- One turn: the reader moves on, and if its index has grown and it is still inside, the predicate is asked about
    the character there. Either there is a further turn, or this is what the loop comes to. -/
def turn (r : ρ) (t : τ) : (ρ × τ) ⊕ (Except Fault Unit × ρ × τ) :=
  match b.advance r with
  | (.error fault, r') => .inr (.error fault, r', t)
  | (.ok inside, r') =>
    if b.index r < b.index r' then
      if inside then
        match extends? (b.current r') t with
        | (true, t') => .inl (r', t')
        | (false, t') => .inr (.ok (), r', t')
      else .inr (.ok (), r', t)
    else .inr (.error (.stalled e (b.index r).toNat), r', t)

/-- What the loop comes to, if it is over after so many turns. -/
def loop : (turns : Nat) → ρ → τ → Option (Except Fault Unit × ρ × τ)
  | 0, _, _ => none
  | turns + 1, r, t =>
    match b.turn e extends? r t with
    | .inl (r', t') => loop turns r' t'
    | .inr result => some result

def consume (turns : Nat) (r : ρ) (t : τ) : Option (Except Fault (Option Span) × ρ × τ) :=
  if b.atEnd r then some (.ok none, r, t)
  else (b.loop e extends? turns r t).map fun
    | (.error fault, r', t') => (.error fault, r', t')
    | (.ok (), r', t') => (.ok (some ⟨(b.index r).toNat, (b.index r').toNat⟩), r', t')

/-- Before the words above the index are used up, the loop is over. -/
theorem loop_eq {turns : Nat} {r : ρ} (enough : maxCount < turns + (b.index r).toNat) (t : τ) :
    b.loop e extends? turns r t =
      let (answer, r', t') := Reader.scan extends? (⟨r⟩ : FreeReader b e) t
      some (answer, r'.state, t') := by
  induction turns generalizing r t with
  | zero =>
    have := Nat.le_of_lt_succ (b.index r).toNat_lt
    have : maxCount = 2 ^ 64 - 1 := rfl
    omega
  | succ turns ih =>
    unfold Reader.scan
    simp only [loop, turn, Reader.advance, Reader.index, Reader.current]
    rcases b.advance r with ⟨fault | inside, r'⟩
    · rfl
    · simp only [UInt64.lt_iff_toNat_lt]
      by_cases grows : (b.index r).toNat < (b.index r').toNat
      · simp only [if_pos grows]
        cases inside with
        | false => rfl
        | true =>
          rcases said : extends? (b.current r') t with ⟨_ | _, t'⟩
          · simp
          · simp only [if_true]
            exact ih (by omega) t'
      · simp only [if_neg grows]

theorem consume_eq {turns : Nat} {r : ρ} (enough : maxCount < turns + (b.index r).toNat) (t : τ) :
    b.consume e extends? turns r t =
      let (answer, r', t') := Reader.advanceWhile extends? (⟨r⟩ : FreeReader b e) t
      some (answer, r'.state, t') := by
  unfold consume Reader.advanceWhile
  rw [b.loop_eq e extends? enough t]
  simp only [Reader.atEnd]
  split
  · rfl
  · rcases Reader.scan extends? (⟨r⟩ : FreeReader b e) t with ⟨fault | _, r', t'⟩
    · rfl
    · rfl

end Behaviour

/-! ## Token after token -/

def Source.Finishes [Source Id σ α] (s : σ) (n : Nat) : Prop :=
  (∀ i < n, ∃ a, (call (after s i)).1 = .ok (some a)) ∧
    ((call (after s n)).1 = .ok none ∨ ∃ fault, (call (after s n)).1 = .error fault)

/-- A stream on its course gives no more tokens than there are places for them. -/
theorem Course.Steady.finishes [Reader ρ e] [Source Id σ (Token e κ)] {c : Course σ ρ} {most : Nat} {s : σ}
    (steady : c.Steady (κ := κ)) (bounded : ∀ s, c.place s ≤ most) (tidy : c.Tidy s) :
    ∃ n, c.place s + n ≤ most ∧ Source.Finishes s n := by
  induction left : most - c.place s using Nat.strong_induction_on generalizing s with
  | _ left ih =>
    have inside := bounded s
    have step := steady s tidy
    rcases called : Source.call s with ⟨fault | _ | t, s'⟩
    · exact ⟨0, inside, by simp, .inr ⟨fault, congrArg Prod.fst called⟩⟩
    · exact ⟨0, inside, by simp, .inl (congrArg Prod.fst called)⟩
    · rw [called] at step
      cases step with
      | token leads =>
        have leads : c.Leads s [t] s' := leads
        have grows : c.place s < c.place s' := by
          obtain ⟨start, stop, covers⟩ := leads.single
          simpa only [start, stop] using covers
        have inside' := bounded s'
        obtain ⟨n, few, brings, ends⟩ := ih (most - c.place s') (by omega) leads.tidy rfl
        have next (i : Nat) : Source.after s (i + 1) = Source.after s' i := by rw [Source.after, called]
        refine ⟨n + 1, by omega, ?_, by rwa [next]⟩
        intro i before
        cases i with
        | zero => exact ⟨t, congrArg Prod.fst called⟩
        | succ i =>
          rw [next]
          exact brings i (by omega)

/-! ## Every reader -/

/-- Whatever a reader does, and whatever decides how far a run goes: the loop that consumes the run is over after
    some number of turns, which the greatest word bounds, and comes to what consuming answers. A stream of
    characters over the reader, and a stream of runs, comes after some number of tokens to a call that brings
    nothing or breaks off. -/
theorem scanning_ends (b : Behaviour ρ) (e : Encoding) (r : ρ) :
    (∀ (τ : Type) (extends? : List Char → StateM τ Bool) (t : τ), ∃ turns, (b.index r).toNat + turns ≤ maxCount + 1 ∧
      b.consume e extends? turns r t =
        let (answer, r', t') := Reader.advanceWhile extends? (⟨r⟩ : FreeReader b e) t
        some (answer, r'.state, t')) ∧
    (∃ n, (b.index r).toNat + n ≤ maxCount ∧ Source.Finishes (⟨⟨r⟩⟩ : CharStream (FreeReader b e)) n) ∧
    ∃ n, (b.index r).toNat + n ≤ maxCount ∧ Source.Finishes (⟨⟨r⟩⟩ : RunStream (FreeReader b e)) n := by
  have word (r : FreeReader b e) : Reader.index r ≤ maxCount := Reader.index_le_bound r
  refine ⟨?_, ?_, ?_⟩
  · intro τ extends? t
    have here : (b.index r).toNat ≤ maxCount := word ⟨r⟩
    exact ⟨maxCount + 1 - (b.index r).toNat, by omega, b.consume_eq e extends? (by omega) t⟩
  · exact CharStream.steady.finishes (s := ⟨⟨r⟩⟩) (fun s => word s.reader) trivial
  · exact RunStream.steady.finishes (s := ⟨⟨r⟩⟩) (fun s => word s.reader) trivial

end TokenScan
