/-
  TokenScan.Proofs.Pausing — looking again, and consuming what was shown, when the source may pause.

  A source may answer that there is nothing and go on later. A buffer does not remember that answer: to look
  ahead, it takes from the source as many items as are missing, or as many as come before the next pause
  (`refill_apply`). So nothing is shown at a distance just if the source pauses before it has given what is
  missing there (`peekAt_eq_none_iff`), and the next look tries again.

  An item that is shown waits from then on, so a second look shows the same item, and consuming brings it. Where
  nothing is shown, a second look and consuming answer the same only if the source still has nothing to give
  (`looks_agree_unless_source_resumes`). So a source that goes on after a pause shows and gives what was not
  there a moment ago (`looks_disagree_after_pause`).
-/

import TokenScan.Proofs.Accounting

namespace TokenScan

variable {σ α : Type} [Source Id σ α]

/-! ## What comes before a pause -/

namespace Source

/-- What up to `n` calls come to, when the first that brings nothing is the last: the items, how they ended, and
    the state that is left. -/
def burst (s : σ) (n : Nat) : Array α × Except Fault Unit × σ := (take s n : Id _)

def PausesWithin (s : σ) (n : Nat) : Prop := (burst s n).2.1 = .ok () ∧ (burst s n).1.size < n

def NeverResumes (s : σ) : Prop := ∀ n, (call (after s n)).1 = .ok none → (call (after s (n + 1))).1 = .ok none

variable {s s' : σ} {a : α} {n : Nat}

theorem takeFrom_succ (items : Array α) (s : σ) (n : Nat) :
    (takeFrom items s (n + 1) : Id (Array α × Except Fault Unit × σ)) =
      match call s with
      | (.ok (some a), s') => takeFrom (items.push a) s' n
      | (.ok none, s') => (items, .ok (), s')
      | (.error fault, s') => (items, .error fault, s') := by
  rw [takeFrom]
  rfl

theorem takeFrom_eq (before : Array α) (s : σ) (n : Nat) :
    (takeFrom before s n : Id _) = (before ++ (burst s n).1, (burst s n).2) := by
  induction n generalizing before s with
  | zero => simp [burst, take, takeFrom, pure]
  | succ n ih =>
    rw [burst, take, takeFrom_succ, takeFrom_succ]
    rcases call s with ⟨_ | _ | a, s'⟩
    · simp
    · simp
    · simp only
      rw [ih, ih]
      simp

theorem burst_of_item (h : call s = (.ok (some a), s')) (n : Nat) :
    burst s (n + 1) = (#[a] ++ (burst s' n).1, (burst s' n).2) := by
  rw [burst, take, takeFrom_succ, h]
  exact takeFrom_eq #[a] s' n

theorem burst_of_pause (h : call s = (.ok none, s')) (n : Nat) : burst s (n + 1) = (#[], .ok (), s') := by
  rw [burst, take, takeFrom_succ, h]

theorem burst_of_fault {fault : Fault} (h : call s = (.error fault, s')) (n : Nat) :
    burst s (n + 1) = (#[], .error fault, s') := by
  rw [burst, take, takeFrom_succ, h]

theorem pausesWithin_of_pause (h : (call s).1 = .ok none) (hn : 0 < n) : PausesWithin s n := by
  obtain ⟨n, rfl⟩ : ∃ before, n = before + 1 := ⟨n - 1, by omega⟩
  have called : call s = (.ok none, (call s).2) := Prod.ext h rfl
  rw [PausesWithin, burst_of_pause called]
  exact ⟨rfl, hn⟩

theorem pausesWithin_one_iff : PausesWithin s 1 ↔ (call s).1 = .ok none := by
  constructor
  · intro ⟨ends, few⟩
    rcases called : call s with ⟨fault | _ | a, s'⟩
    · rw [burst_of_fault called] at ends
      cases ends
    · rfl
    · rw [burst_of_item called] at few
      simp at few
  · intro h
    exact pausesWithin_of_pause h Nat.one_pos

/-- If a source pauses within some calls and never resumes, it has nothing to give from then on. -/
theorem NeverResumes.call_burst (never : NeverResumes s) (h : PausesWithin s n) : (call (burst s n).2.2).1 = .ok none := by
  induction n generalizing s with
  | zero => exact absurd h.2 (Nat.not_lt_zero _)
  | succ n ih =>
    obtain ⟨ends, few⟩ := h
    rcases called : call s with ⟨fault | _ | a, s'⟩
    · rw [burst_of_fault called] at ends
      cases ends
    · have next := never 0 (congrArg Prod.fst called)
      rw [burst_of_pause called]
      rwa [after, called] at next
    · rw [burst_of_item called] at ends few ⊢
      have later : NeverResumes s' := by
        intro k
        have := never (k + 1)
        rwa [after, after, called] at this
      refine ih later ⟨ends, ?_⟩
      simp at few
      omega

end Source

/-! ## Looking ahead -/

namespace Buffer

open Source (burst PausesWithin NeverResumes call)

variable {b b' : Buffer σ α} {distance : Nat}

/-- Refilling takes from the source what comes before it pauses, and puts it behind what waits. -/
theorem refill_apply (b : Buffer σ α) (pulled missing : Nat) :
    ∃ b', (refill pulled missing : ScanT Id (Buffer σ α) Nat) b =
        ((burst b.source missing).2.1.map fun _ => pulled + (burst b.source missing).1.size, b') ∧
      b'.source = (burst b.source missing).2.2 ∧
      b'.pending.toList = b.pending.toList ++ (burst b.source missing).1.toList := by
  induction missing generalizing b pulled with
  | zero => exact ⟨b, rfl, rfl, (List.append_nil _).symm⟩
  | succ missing ih =>
    unfold refill
    rw [ScanT.bind_apply, pull_apply]
    rcases called : call b.source with ⟨fault | _ | a, s'⟩
    · rw [Source.burst_of_fault called]
      exact ⟨{ b with source := s' }, rfl, rfl, (List.append_nil _).symm⟩
    · rw [Source.burst_of_pause called]
      exact ⟨{ b with source := s' }, rfl, rfl, (List.append_nil _).symm⟩
    · rw [Source.burst_of_item called]
      obtain ⟨b', ran, source, pending⟩ := ih { b with source := s', pending := b.pending.push a } (pulled + 1)
      refine ⟨b', ?_, source, ?_⟩
      · simp only
        rw [ScanT.bind_ok (ScanT.modify_apply _ _), ran]
        simp [Nat.add_assoc]
      · rw [pending, Queue.toList_push]
        simp

/-- What a look ahead comes to: what the source brings before it pauses waits behind the rest, and the item at that
    distance is shown, unless the source broke off. -/
theorem peekAt_burst (b : Buffer σ α) (distance : Nat) :
    ∃ b', (peekAt (distance + 1) : ScanT Id (Buffer σ α) (Option α)) b =
        ((burst b.source (distance + 1 - b.buffered)).2.1.map fun _ => b'.pending.toList[distance]?, b') ∧
      b'.source = (burst b.source (distance + 1 - b.buffered)).2.2 ∧
      b'.buffered = b.buffered + (burst b.source (distance + 1 - b.buffered)).1.size := by
  obtain ⟨b', ran, source, pending⟩ := refill_apply b 0 (distance + 1 - b.buffered)
  have waiting := congrArg List.length pending
  rw [List.length_append, Queue.length_toList, Queue.length_toList, Array.length_toList] at waiting
  refine ⟨b', ?_, source, waiting⟩
  rw [peekAt_apply, ran]
  rcases (burst b.source (distance + 1 - b.buffered)).2.1 with fault | _
  · rfl
  · rfl

/-- Nothing is shown just if the source pauses before it has brought what is missing. -/
theorem peekAt_eq_none_iff :
    ((peekAt (distance + 1) : ScanT Id (Buffer σ α) (Option α)) b).1 = .ok none ↔
      PausesWithin b.source (distance + 1 - b.buffered) := by
  obtain ⟨b', ran, -, waiting⟩ := peekAt_burst b distance
  have size : b'.buffered = b'.pending.size := rfl
  rw [ran, PausesWithin]
  rcases (burst b.source (distance + 1 - b.buffered)).2.1 with fault | _
  · simp [Except.map]
  · simp only [Except.map, Except.ok.injEq, List.getElem?_eq_none_iff, Queue.length_toList, true_and]
    omega

/-- What a look that shows nothing leaves. -/
theorem peekAt_of_pausesWithin (h : PausesWithin b.source (distance + 1 - b.buffered)) :
    let left := ((peekAt (distance + 1) : ScanT Id (Buffer σ α) (Option α)) b).2
    left.source = (burst b.source (distance + 1 - b.buffered)).2.2 ∧ left.buffered ≤ distance := by
  obtain ⟨b', ran, source, waiting⟩ := peekAt_burst b distance
  have few := h.2
  rw [ran]
  refine ⟨source, ?_⟩
  show b'.buffered ≤ distance
  omega

theorem next_of_none_waits (h : b.buffered = 0) :
    ((next : ScanT Id (Buffer σ α) (Option α)) b).1 = (call b.source).1 := by
  have empty : b.pending.pop? = none := by
    rw [Queue.pop?_eq_none_iff, ← List.length_eq_zero_iff, Queue.length_toList]
    exact h
  simp only [next, empty, pull_apply]

/-- Looking twice, and consuming after a look, over any source. An item that is shown is shown again, with nothing
    pulled for it, and if it is the next one it is the one consumed. Where nothing is shown, the second look shows
    nothing just if the source pauses again before it has brought what is missing, and consuming brings nothing
    just if the source brings nothing. So both agree with the first look if the source never resumes. -/
theorem looks_agree_unless_source_resumes (b : Buffer σ α) (distance : Nat) :
    let look (b : Buffer σ α) := (peekAt (distance + 1) : ScanT Id (Buffer σ α) (Option α)) b
    let left := (look b).2
    let consumed := (next : ScanT Id (Buffer σ α) (Option α)) left
    (∀ a, (look b).1 = .ok (some a) → look left = look b ∧ (distance = 0 → consumed.1 = (look b).1)) ∧
      ((look b).1 = .ok none →
        ((look left).1 = (look b).1 ↔ PausesWithin left.source (distance + 1 - left.buffered)) ∧
          (distance = 0 → (consumed.1 = (look b).1 ↔ PausesWithin left.source 1))) ∧
      (NeverResumes b.source → ∀ found, (look b).1 = .ok found →
        (look left).1 = (look b).1 ∧ (distance = 0 → consumed.1 = (look b).1)) := by
  intro look left consumed
  have shown (a : α) (first : (look b).1 = .ok (some a)) :
      look left = look b ∧ (distance = 0 → consumed.1 = (look b).1) := by
    have waits := waits_of_peekAt first
    refine ⟨(peekAt_of_waits waits).trans (Prod.ext first.symm rfl), ?_⟩
    rintro rfl
    rw [first]
    exact next_of_waits waits
  have hidden (first : (look b).1 = .ok none) :
      ((look left).1 = (look b).1 ↔ PausesWithin left.source (distance + 1 - left.buffered)) ∧
        (distance = 0 → (consumed.1 = (look b).1 ↔ PausesWithin left.source 1)) := by
    rw [first]
    refine ⟨peekAt_eq_none_iff, ?_⟩
    rintro rfl
    have few := (peekAt_of_pausesWithin (peekAt_eq_none_iff.mp first)).2
    rw [Source.pausesWithin_one_iff, show consumed.1 = _ from next_of_none_waits (Nat.le_zero.mp few)]
  refine ⟨shown, hidden, ?_⟩
  intro never found first
  cases found with
  | some a =>
    obtain ⟨same, brought⟩ := shown a first
    exact ⟨congrArg Prod.fst same, brought⟩
  | none =>
    have pauses := peekAt_eq_none_iff.mp first
    obtain ⟨source, few⟩ := peekAt_of_pausesWithin pauses
    have dry : (call left.source).1 = .ok none := source ▸ never.call_burst pauses
    have missing : 0 < distance + 1 - left.buffered := Nat.sub_pos_of_lt (Nat.lt_succ_of_le few)
    exact ⟨(hidden first).1.mpr (Source.pausesWithin_of_pause dry missing),
      fun one => ((hidden first).2 one).mpr (Source.pausesWithin_of_pause dry Nat.one_pos)⟩

/-- A source that brings nothing once and then an item: what was not there is there at the second look, or is
    consumed although it was not shown. -/
theorem looks_disagree_after_pause :
    let pausing : Buffer (Replay Nat) Nat := .ofSource ⟨fun k => if k = 0 then none else some k, 2, false, .unknown, 0⟩
    let first := (direct.peek : ScanT Id (Buffer (Replay Nat) Nat) (Option Nat)) pausing
    first.1 = .ok none ∧ (direct.peek first.2).1 = .ok (some 1) ∧ (direct.next first.2).1 = .ok (some 1) := by
  decide

end Buffer

end TokenScan
