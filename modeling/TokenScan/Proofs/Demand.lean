/-
  TokenScan.Proofs.Demand — a buffer pulls what it is asked to give and to show, and nothing beyond.

  A counted source knows how many items have been pulled from it (`Counted`). How many had to be pulled
  follows from the calls that were made: those that were consumed, and for each look ahead, those that
  had been consumed by then and as many more as it went (`Call.demand`). A buffer has pulled just
  these, or all that there are, and those that have not been consumed wait (`Buffer.Exact`).

  Each call keeps that (`Drawn.next`, `Drawn.peekAt`), since it pulls only if nothing waits, or only what is
  missing to its distance. So it holds behind every call of every run, and with it the bounds on how
  many items wait (`Buffer.pulls_what_is_demanded`).
-/

import Mathlib.Data.ENat.Lattice
import TokenScan.Proofs.Tracing

namespace TokenScan

open Stream'.Seq (ofList)
open Source (Yields)

variable {σ α κ τ : Type}

/-! ## Counting the items of a sequence -/

namespace Items

theorem length_take_add (items : Items α) (p n : Nat) :
    (items.take (p + n)).length = (items.take p).length + ((items.drop p).take n).length := by
  induction p generalizing items with
  | zero => simp
  | succ p ih =>
    cases items using Stream'.Seq.recOn with
    | nil => simp
    | cons a items =>
      have := ih items
      rw [Nat.succ_add, Stream'.Seq.take_succ_cons, Stream'.Seq.take_succ_cons, Stream'.Seq.drop_succ_cons,
        List.length_cons, List.length_cons]
      omega

theorem drop_length_take (items : Items α) (n : Nat) : items.drop (items.take n).length = items.drop n := by
  induction n generalizing items with
  | zero => simp
  | succ n ih =>
    cases items using Stream'.Seq.recOn with
    | nil => simp
    | cons a items => simp [ih]

/-- The first `n` items are `n`, or all that there are. -/
theorem natCast_length_take (items : Items α) (n : Nat) : ((items.take n).length : ℕ∞) = min items.length' n := by
  induction n generalizing items with
  | zero => simp
  | succ n ih =>
    cases items using Stream'.Seq.recOn with
    | nil => simp
    | cons a items => simp [ih, min_add_add_right]

/-- So there is a number of items in all, or no end of them. -/
theorem length_take_cases (items : Items α) :
    (∀ n, (items.take n).length = n) ∨ ∃ k, ∀ n, (items.take n).length = min k n := by
  have counted := natCast_length_take items
  cases all : items.length' with
  | top =>
    left
    intro n
    have := counted n
    rw [all, min_eq_right le_top] at this
    exact_mod_cast this
  | coe k =>
    right
    refine ⟨k, fun n => ?_⟩
    have := counted n
    rw [all, ← Nat.mono_cast.map_min] at this
    exact_mod_cast this

/-- Behind the first `n` items, so many are missing to the first `k`. -/
theorem length_take_max (items : Items α) (n k : Nat) :
    (items.take (max n k)).length =
      (items.take n).length + ((items.drop (items.take n).length).take (k - (items.take n).length)).length := by
  have further := items.length_take_add (items.take n).length (k - (items.take n).length)
  rcases items.length_take_cases with endless | ⟨all, ends⟩
  · simp only [endless] at further ⊢
    omega
  · simp only [ends] at further ⊢
    omega

end Items

/-! ## Counting what is pulled -/

structure Counted (σ : Type) where
  source : σ
  pulled : Nat

section

variable [Source Id σ α]

instance : Source Id (Counted σ) α where
  next c :=
    ((Source.call c.source).1, ⟨(Source.call c.source).2, c.pulled + (itemOf (Source.call c.source).1).toList.length⟩)

theorem Source.Yields.counted {s : σ} {items : Items α} (h : Yields s items) (n : Nat) :
    Yields (⟨s, n⟩ : Counted σ) items := by
  refine yields_of_invariant (P := fun c items => Yields c.source items) ?_ h
  intro c items yields
  have answered : (Source.call c).1 = .ok items.head := congrArg Prod.fst yields.call
  exact ⟨(Source.call c).2, Prod.ext answered rfl, yields.tail⟩

end

/-! ## What has to be pulled -/

namespace Call

def consumed : List Call → Nat
  | [] => 0
  | .next brought :: earlier => consumed earlier + brought.toNat
  | .peekAt _ :: earlier => consumed earlier

/-- How far from its start the source had to be known for these looks ahead: each goes its distance beyond
    what had been consumed by then. -/
def shown : List Call → Nat
  | [] => 0
  | .next _ :: earlier => shown earlier
  | .peekAt distance :: earlier => max (shown earlier) (consumed earlier + distance)

def demand (calls : List Call) : Nat := max (consumed calls) (shown calls)

/-- Two items are shown, and one of them is consumed; from there, two items are shown again. -/
example : demand [.peekAt 2, .next true, .peekAt 1, .peekAt 2] = 3 := by decide

end Call

open Call (consumed shown demand)

namespace Buffer

variable [Source Id σ α] {items : Items α}

/-- The buffer has pulled as many of these items as the calls demand, or all that there are, and those
    that have not been consumed wait. -/
structure Exact (items : Items α) (calls : List Call) (b : Buffer (Counted σ) α) : Prop where
  pulled : (b.source.pulled : ℕ∞) = min items.length' (demand calls)
  waiting : consumed calls + b.buffered = b.source.pulled

/-- The same, as it goes on from call to call: the source yields what is left of the items. -/
structure Drawn (items : Items α) (calls : List Call) (b : Buffer (Counted σ) α) : Prop where
  yields : Yields b.source (items.drop b.source.pulled)
  pulled : b.source.pulled = (items.take (demand calls)).length
  waiting : consumed calls + b.buffered = b.source.pulled

theorem Drawn.exact {calls : List Call} {b : Buffer (Counted σ) α} (h : Drawn items calls b) : Exact items calls b where
  pulled := by rw [h.pulled, Items.natCast_length_take]
  waiting := h.waiting

theorem refill_pulled (b : Buffer (Counted σ) α) (pulled missing : Nat) :
    let ran := (refill pulled missing : ScanT Id (Buffer (Counted σ) α) Nat) b
    ran.2.source.pulled + b.buffered = b.source.pulled + ran.2.buffered := by
  let Moved (now : Buffer (Counted σ) α) : Prop := now.source.pulled + b.buffered = b.source.pulled + now.buffered
  refine refill_keeps (P := Moved) ?_ rfl pulled missing
  intro now (same : now.source.pulled + b.buffered = b.source.pulled + now.buffered)
  have counted : now.fetched.source.pulled = now.source.pulled + (itemOf (Source.call now.source).1).toList.length := rfl
  have waiting : now.fetched.buffered = now.buffered + (itemOf (Source.call now.source).1).toList.length := by
    cases came : itemOf (Source.call now.source).1 with
    | none => simp [fetched, came, buffered]
    | some a =>
      simp only [fetched, came]
      exact buffered_push _ _ a _
  show now.fetched.source.pulled + b.buffered = b.source.pulled + now.fetched.buffered
  omega

variable {calls : List Call} {b : Buffer (Counted σ) α}

theorem pull_pulled {later : Items α} (yields : Yields b.source later) :
    (pull : ScanT Id (Buffer (Counted σ) α) (Option α)) b =
        (.ok later.head, { b with source := (Source.call b.source).2 }) ∧
      (Source.call b.source).2.pulled = b.source.pulled + later.head.toList.length := by
  have answered : (Source.call b.source).1 = .ok later.head := congrArg Prod.fst yields.call
  refine ⟨(pull_apply b).trans (congrArg (·, _) answered), ?_⟩
  show b.source.pulled + (itemOf (Source.call b.source).1).toList.length = _
  rw [answered]
  rfl

theorem Drawn.next (h : Drawn items calls b) :
    ∃ a b', (next : ScanT Id (Buffer (Counted σ) α) (Option α)) b = (.ok a, b') ∧
      Drawn items (.next a.isSome :: calls) b' ∧ b'.limits = b.limits := by
  obtain ⟨yields, pulled, waiting⟩ := h
  cases popped : b.pending.pop? with
  | some front =>
    obtain ⟨a, pending⟩ := front
    have size := buffered_of_pop? popped
    -- an item that waits was pulled to be shown, so there is no demand for another one
    have few := Stream'.Seq.length_take_le (s := items) (n := demand calls)
    have same : demand (.next true :: calls) = demand calls := by
      simp only [demand, consumed, shown, Bool.toNat_true] at *
      omega
    refine ⟨some a, { b with pending }, ?_, ⟨yields, ?_, ?_⟩, rfl⟩
    · simp only [Buffer.next, popped]
      rfl
    · rw [Option.isSome_some, same]
      exact pulled
    · show consumed calls + 1 + pending.size = b.source.pulled
      omega
  | none =>
    have empty : b.buffered = 0 := by
      rw [buffered, ← Queue.length_toList, (Queue.pop?_eq_none_iff b.pending).mp popped]
      rfl
    have ran : (Buffer.next : ScanT Id (Buffer (Counted σ) α) (Option α)) b = pull b := by simp only [Buffer.next, popped]
    obtain ⟨answered, counted⟩ := pull_pulled yields
    have tail := yields.tail
    refine ⟨_, _, ran.trans answered, ?_, rfl⟩
    cases here : items.drop b.source.pulled using Stream'.Seq.recOn with
    | nil =>
      have counted : (Source.call b.source).2.pulled = b.source.pulled := by
        rw [counted, here]
        rfl
      rw [here] at tail
      refine ⟨?_, counted.trans pulled, ?_⟩
      · show Yields (Source.call b.source).2 (items.drop (Source.call b.source).2.pulled)
        rw [counted, here]
        exact tail
      · show consumed calls + 0 + b.buffered = (Source.call b.source).2.pulled
        omega
    | cons a rest =>
      have counted : (Source.call b.source).2.pulled = b.source.pulled + 1 := by
        rw [counted, here]
        rfl
      have more : demand (.next true :: calls) = max (demand calls) (b.source.pulled + 1) := by
        simp only [demand, consumed, shown, Bool.toNat_true]
        omega
      have further := items.length_take_max (demand calls) (b.source.pulled + 1)
      rw [← pulled, Nat.add_sub_cancel_left] at further
      refine ⟨?_, ?_, ?_⟩
      · show Yields (Source.call b.source).2 (items.drop (Source.call b.source).2.pulled)
        rw [counted]
        exact tail
      · show (Source.call b.source).2.pulled = (items.take (demand (.next true :: calls))).length
        rw [counted, more, further, here]
        simp
      · show consumed calls + 1 + b.buffered = (Source.call b.source).2.pulled
        omega

theorem Drawn.peekAt (h : Drawn items calls b) (distance : Nat) :
    ∃ a b', (peekAt distance : ScanT Id (Buffer (Counted σ) α) (Option α)) b = (.ok a, b') ∧
      Drawn items (.peekAt distance :: calls) b' ∧ b'.limits = b.limits := by
  obtain ⟨yields, pulled, waiting⟩ := h
  cases distance with
  | zero =>
    have same : demand (.peekAt 0 :: calls) = demand calls := by
      simp only [demand, consumed, shown]
      omega
    refine ⟨_, b, peekAt_zero_apply b, ⟨yields, ?_, waiting⟩, rfl⟩
    rw [same]
    exact pulled
  | succ distance =>
    obtain ⟨b', refilled, pending, source, limits⟩ := refill_of_yields yields 0 (distance + 1 - b.buffered)
    have counted := refill_pulled b 0 (distance + 1 - b.buffered)
    rw [refilled] at counted
    have size : b'.buffered = b.buffered + ((items.drop b.source.pulled).take (distance + 1 - b.buffered)).length := by
      have := congrArg List.length pending
      rwa [List.length_append, Queue.length_toList, Queue.length_toList] at this
    have drawn : b'.source.pulled =
        b.source.pulled + ((items.drop b.source.pulled).take (distance + 1 - b.buffered)).length := by
      simp only at counted
      omega
    refine ⟨b'.pending.toList[distance]?, b', ?_, ⟨?_, ?_, ?_⟩, limits⟩
    · rw [peekAt_apply, refilled]
    · rw [drawn, Stream'.Seq.dropn_add, Items.drop_length_take]
      exact source
    · have further := items.length_take_max (demand calls) (consumed calls + (distance + 1))
      have missing : consumed calls + (distance + 1) - b.source.pulled = distance + 1 - b.buffered := by omega
      have more : demand (.peekAt (distance + 1) :: calls) = max (demand calls) (consumed calls + (distance + 1)) :=
        (Nat.max_assoc _ _ _).symm
      rw [drawn, more, further, ← pulled, missing]
    · show consumed calls + b'.buffered = b'.source.pulled
      omega

theorem invariant_drawn (items : Items α) (most : Nat) :
    Invariant (fun calls (b : Buffer (Counted σ) α) => Drawn items calls b) most where
  next _ _ h := h.next
  peekAt distance _ _ _ h := h.peekAt distance
  withLimits _ _ _ h := ⟨h.yields, h.pulled, h.waiting⟩

theorem Drawn.start {s : σ} (h : Yields s items) : Drawn items [] (ofSource ⟨s, 0⟩ : Buffer (Counted σ) α) where
  yields := h.counted 0
  pulled := by simp [demand, consumed, shown, ofSource]
  waiting := rfl

/-- Every run of requests goes through on a fresh buffer over a source that yields these items, and behind
    each of its calls the buffer has pulled what the calls up to then demand, and no more; what has not been
    consumed waits. There never wait more items than the farthest look goes, or one. An operation that
    consumes what it looks at leaves no more items waiting than there were, or one, whatever its limit. -/
theorem pulls_what_is_demanded [Kinded α κ] [DecidableEq κ] {s : σ} (h : Yields s items)
    (requests : List (Request (Counted σ) α κ τ)) (t : τ × List α) :
    let start : Buffer (Counted σ) α := ofSource ⟨s, 0⟩
    ∃ a b log, requests.mapM (Request.run reach.traced) t (start, []) = (.ok a, b, log) ∧
      requests.mapM (Request.run reach) t start = (.ok a, b) ∧
      Trace.Kept (Exact items) (b, log) ∧
      Trace.Kept (fun _ now => now.buffered ≤ max 1 (Request.farthest start.limits.items requests)) (b, log) ∧
      ∀ (op : Op α κ τ) (t : τ × List α), op.Drains →
        ∃ a b' log', op.run direct.traced t (b, []) = (.ok a, b', log') ∧ op.run direct t b = (.ok a, b') ∧
          Trace.Kept (fun _ now => now.buffered ≤ max b.buffered 1) (b', log') := by
  intro start
  have fresh : Drawn items [] start := Drawn.start h
  obtain ⟨a, b, log, ran, ran', kept⟩ :=
    (invariant_drawn items _).run (Nat.le_max_left 1 _) (.start fresh) requests (Nat.le_max_right _ _) t
  obtain ⟨_, _, _, again, -, few⟩ := run_buffered_le (holds_ofSource (h.counted 0)) requests t
  rw [← (Prod.mk.inj (ran.symm.trans again)).2] at few
  have empty : start.buffered = 0 := rfl
  refine ⟨a, b, log, ran, ran', kept.imp fun _ _ now => now.exact, few.imp fun _ _ now => ?_, fun op t drains => ?_⟩
  · rwa [empty, Nat.zero_max] at now
  · exact drains_buffered_le ⟨_, kept.1.yields, rfl⟩ drains t

def twoLetters : Replay (Token .utf8 CharKind) := ⟨fun _ => some ⟨⟨0, 1⟩, .lowercaseLetter⟩, 2, false, .unknown, 0⟩

theorem pulls_what_is_demanded_two_letters :
    let letter : Token .utf8 CharKind := ⟨⟨0, 1⟩, .lowercaseLetter⟩
    let requests : List (Request (Counted (Replay (Token .utf8 CharKind))) (Token .utf8 CharKind) CharKind Unit) :=
      [.perform .next, .perform (.peekAt 5 (by decide)), .withLimits ⟨3⟩, .perform (.peekUntil fun _ => pure false)]
    Yields twoLetters (ofList [letter, letter]) ∧
      ∃ a b log, requests.mapM (Request.run reach.traced) ((), []) (ofSource ⟨twoLetters, 0⟩, []) = (.ok a, b, log) ∧
        Exact (ofList [letter, letter]) log.calls b ∧ b.buffered ≤ 5 := by
  intro letter requests
  have yields : Yields twoLetters (ofList [letter, letter]) := by
    refine Source.yields_of_invariant
      (P := fun s items => ∃ n ≤ 2, s = { twoLetters with position := n } ∧ items = ofList ([letter, letter].drop n)) ?_
      ⟨0, by decide, rfl, rfl⟩
    rintro s items ⟨n, few, rfl, rfl⟩
    obtain rfl | rfl | rfl : n = 0 ∨ n = 1 ∨ n = 2 := by omega
    · exact ⟨_, rfl, 1, by decide, rfl, by simp⟩
    · exact ⟨_, rfl, 2, by decide, rfl, by simp⟩
    · exact ⟨_, rfl, 2, by decide, rfl, by simp⟩
  obtain ⟨a, b, log, ran, -, drawn, few, -⟩ := pulls_what_is_demanded yields requests ((), [])
  exact ⟨yields, a, b, log, ran, drawn.1, few.1⟩

end Buffer

end TokenScan
