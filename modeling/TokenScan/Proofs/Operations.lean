/-
  TokenScan.Proofs.Operations — what each operation of a lookahead does to the items to come.

  `Op` names the operations, and `Op.outcome` says what one of them comes to on the plain
  sequence of the items to come: its answer, the items it consumes, and the items that its
  predicate is asked about, in order. Predicates may keep a state, but leave the items alone.

  What an operation consumes and asks about are always the first of the items to come
  (`Op.outcome_atFront`). `Op.run_cursor` shows that the loops that make up the operations
  come to their outcomes on a `Cursor`, and `Buffer.program_of_holds` that every program of
  operations comes to its outcomes on a buffer, whatever the buffer has pulled before, over
  finite and endless sources alike.
-/

import TokenScan.Proofs.Items
import TokenScan.Proofs.Judge
import TokenScan.Source.Replay

namespace TokenScan

open Stream'.Seq (ofList)

/-! ## Operations and their outcomes -/

/-- An operation of a lookahead, with predicates that keep a state. -/
inductive Op (α κ τ : Type) where
  | next
  | peek
  | peekAt (distance : Nat) (ahead : 0 < distance)
  | peekUntil (p : α → StateM τ Bool)
  | peekUntilWithin (p : α → StateM τ Bool) (limit : Nat)
  | nextIf (p : α → StateM τ Bool)
  | nextUntil (p : α → StateM τ Bool)
  | nextUntilWithin (p : α → StateM τ Bool) (limit : Nat)
  | skipIf (p : α → StateM τ Bool)
  | skipUntil (p : α → StateM τ Bool)
  | skipUntilWithin (p : α → StateM τ Bool) (limit : Nat)
  | nextIfKind (kind : κ)
  | nextUntilIn (kinds : List κ)
  | nextUntilNotIn (kinds : List κ)
  | skipUntilIn (kinds : List κ)
  | skipUntilNotIn (kinds : List κ)

inductive Answer (α : Type) where
  | item (a : Option α)
  | flag (yes : Bool)
  deriving DecidableEq, Repr

variable {α κ τ : Type}

structure Outcome (α τ : Type) where
  answer : Answer α
  consumed : List α
  /-- The items that a predicate given to the operation is asked about, in order. -/
  asked : List α
  state : τ

namespace Outcome

def shown (a : Option α) (t : τ) : Outcome α τ := ⟨.item a, [], [], t⟩

def took (items asked : List α) (t : τ) : Outcome α τ := ⟨.item items.getLast?, items, asked, t⟩

def found (p : α → StateM τ Bool) (items : List α) (t : τ) : Outcome α τ :=
  ⟨.flag (judge p items t).accepted.isSome, [], (judge p items t).asked, (judge p items t).state⟩

def accepted (p : α → StateM τ Bool) (items : List α) (t : τ) : Outcome α τ :=
  took (judge p items t).accepted.toList (judge p items t).asked (judge p items t).state

/-- Consumes the items before the first that `p` accepts. -/
def rejected (p : α → StateM τ Bool) (items : List α) (t : τ) : Outcome α τ :=
  took (judge p items t).rejected (judge p items t).asked (judge p items t).state

def skipped (o : Outcome α τ) : Outcome α τ := { o with answer := .flag !o.consumed.isEmpty }

def unasked (o : Outcome α τ) : Outcome α τ := { o with asked := [] }

end Outcome

namespace Op

variable [Kinded α κ] [DecidableEq κ]

def isOf (kind : κ) : α → StateM τ Bool := fun a => pure (Kinded.kindOf a == kind)

def isIn (kinds : List κ) : α → StateM τ Bool := fun a => pure (kinds.contains (Kinded.kindOf a))

def isNotIn (kinds : List κ) : α → StateM τ Bool := fun a => pure !(kinds.contains (Kinded.kindOf a))

/-- What the operation comes to if these are the items to come and open-ended scans look at
    `limit` of them. -/
def outcome (limit : Nat) (items : Items α) (t : τ) : Op α κ τ → Outcome α τ
  | next => .took (items.take 1) [] t
  | peek => .shown items.head t
  | peekAt distance _ => .shown (items.get? (distance - 1)) t
  | peekUntil p => .found p (items.take limit) t
  | peekUntilWithin p limit => .found p (items.take limit) t
  | nextIf p => .accepted p (items.take 1) t
  | nextUntil p => .rejected p (items.take limit) t
  | nextUntilWithin p limit => .rejected p (items.take limit) t
  | skipIf p => (Outcome.accepted p (items.take 1) t).skipped
  | skipUntil p => (Outcome.rejected p (items.take limit) t).skipped
  | skipUntilWithin p limit => (Outcome.rejected p (items.take limit) t).skipped
  | nextIfKind kind => (Outcome.accepted (isOf kind) (items.take 1) t).unasked
  | nextUntilIn kinds => (Outcome.rejected (isIn kinds) (items.take limit) t).unasked
  | nextUntilNotIn kinds => (Outcome.rejected (isNotIn kinds) (items.take limit) t).unasked
  | skipUntilIn kinds => (Outcome.rejected (isIn kinds) (items.take limit) t).unasked.skipped
  | skipUntilNotIn kinds => (Outcome.rejected (isNotIn kinds) (items.take limit) t).unasked.skipped

def outcomes (limit : Nat) : List (Op α κ τ) → Items α → τ → List (Outcome α τ)
  | [], _, _ => []
  | op :: ops, items, t =>
    let o := op.outcome limit items t
    o :: outcomes limit ops (items.drop o.consumed.length) o.state

variable {m : Type → Type} [Monad m]

/-- A predicate that keeps a state, among computations that have that state. -/
def asking {τ : Type} (p : α → StateM τ Bool) : α → StateT τ m Bool := fun a => modifyGet (p a)

/-- Runs the operation, writing down what its predicate is asked about. -/
def run (l : Lookahead m α) (op : Op α κ τ) : StateT (τ × List α) m (Answer α) :=
  let l : Lookahead (StateT (τ × List α) m) α := l.lift
  match op with
  | next => .item <$> l.next
  | peek => .item <$> l.peek
  | peekAt distance _ => .item <$> l.peekAt distance
  | peekUntil p => .flag <$> l.peekUntil (asking (recorded p))
  | peekUntilWithin p limit => .flag <$> l.peekUntilWithin (asking (recorded p)) limit
  | nextIf p => .item <$> l.nextIf (asking (recorded p))
  | nextUntil p => .item <$> l.nextUntil (asking (recorded p))
  | nextUntilWithin p limit => .item <$> l.nextUntilWithin (asking (recorded p)) limit
  | skipIf p => .flag <$> l.skipIf (asking (recorded p))
  | skipUntil p => .flag <$> l.skipUntil (asking (recorded p))
  | skipUntilWithin p limit => .flag <$> l.skipUntilWithin (asking (recorded p)) limit
  | nextIfKind kind => .item <$> l.nextIfKind kind
  | nextUntilIn kinds => .item <$> l.nextUntilIn kinds
  | nextUntilNotIn kinds => .item <$> l.nextUntilNotIn kinds
  | skipUntilIn kinds => .flag <$> l.skipUntilIn kinds
  | skipUntilNotIn kinds => .flag <$> l.skipUntilNotIn kinds

end Op

/-! ## The first of the items to come -/

namespace Outcome

/-- What is consumed and what is asked about are the first of the items. -/
structure AtFront (o : Outcome α τ) (items : Items α) : Prop where
  consumed : o.consumed = items.take o.consumed.length
  asked : o.asked = items.take o.asked.length

theorem eq_take_of_isPrefix {l : List α} {items : Items α} {n : Nat} (h : l <+: items.take n) : l = items.take l.length := by
  obtain ⟨rest, whole⟩ := h
  have short : l.length ≤ n := by
    have := congrArg List.length whole
    have := Stream'.Seq.length_take_le (s := items) (n := n)
    simp only [List.length_append] at *
    omega
  apply List.ext_getElem?
  intro i
  rw [Stream'.Seq.getElem?_take]
  split
  case isTrue inside =>
    have there := congrArg (·[i]?) whole
    simpa [List.getElem?_append, inside, Nat.lt_of_lt_of_le inside short] using there
  case isFalse outside => exact List.getElem?_eq_none (Nat.le_of_not_lt outside)

variable {p : α → StateM τ Bool} {items : Items α} {t : τ}

theorem found_atFront (n : Nat) : (found p (items.take n) t).AtFront items :=
  ⟨rfl, eq_take_of_isPrefix (Verdict.asked_isPrefix p _ t)⟩

theorem rejected_atFront (n : Nat) : (rejected p (items.take n) t).AtFront items :=
  ⟨eq_take_of_isPrefix (rejected_isPrefix p _ t), eq_take_of_isPrefix (Verdict.asked_isPrefix p _ t)⟩

theorem accepted_atFront : (accepted p (items.take 1) t).AtFront items := by
  refine ⟨eq_take_of_isPrefix (n := 1) ?_, eq_take_of_isPrefix (Verdict.asked_isPrefix p _ t)⟩
  cases items using Stream'.Seq.recOn with
  | nil => exact List.prefix_rfl
  | cons a rest =>
    rw [Stream'.Seq.take_succ_cons, Stream'.Seq.take_zero]
    rcases said : p a t with ⟨_ | _, t'⟩
    · rw [accepted, judge_reject _ said]
      exact List.nil_prefix
    · rw [accepted, judge_accept _ said]
      exact List.prefix_rfl

theorem AtFront.unasked {o : Outcome α τ} (h : o.AtFront items) : o.unasked.AtFront items := ⟨h.consumed, rfl⟩

theorem AtFront.skipped {o : Outcome α τ} (h : o.AtFront items) : o.skipped.AtFront items := ⟨h.consumed, h.asked⟩

end Outcome

/-- An operation touches the first of the items to come and no others. -/
theorem Op.outcome_atFront [Kinded α κ] [DecidableEq κ] (op : Op α κ τ) (limit : Nat) (items : Items α) (t : τ) :
    (op.outcome limit items t).AtFront items := by
  cases op with
  | next => exact ⟨Outcome.eq_take_of_isPrefix List.prefix_rfl, rfl⟩
  | peek => exact ⟨rfl, rfl⟩
  | peekAt distance ahead => exact ⟨rfl, rfl⟩
  | peekUntil p => exact Outcome.found_atFront limit
  | peekUntilWithin p limit => exact Outcome.found_atFront limit
  | nextIf p => exact Outcome.accepted_atFront
  | nextUntil p => exact Outcome.rejected_atFront limit
  | nextUntilWithin p limit => exact Outcome.rejected_atFront limit
  | skipIf p => exact Outcome.accepted_atFront.skipped
  | skipUntil p => exact (Outcome.rejected_atFront limit).skipped
  | skipUntilWithin p limit => exact (Outcome.rejected_atFront limit).skipped
  | nextIfKind kind => exact Outcome.accepted_atFront.unasked
  | nextUntilIn kinds => exact (Outcome.rejected_atFront limit).unasked
  | nextUntilNotIn kinds => exact (Outcome.rejected_atFront limit).unasked
  | skipUntilIn kinds => exact (Outcome.rejected_atFront limit).unasked.skipped
  | skipUntilNotIn kinds => exact (Outcome.rejected_atFront limit).unasked.skipped

/-! ## On the items alone -/

namespace Cursor

abbrev Asker (τ α : Type) := StateT τ (StateM (Cursor α))

abbrev asker : Lookahead (Asker τ α) α := Cursor.lookahead.lift

def behind (c : Cursor α) (n : Nat) : Cursor α := { c with items := c.items.drop n }

section

variable {β γ : Type} (t : τ) (c : Cursor α)

theorem bind_apply (x : Asker τ α β) (f : β → Asker τ α γ) :
    (x >>= f) t c = f (x t c).1.1 (x t c).1.2 (x t c).2 := rfl

theorem map_apply (f : β → γ) (x : Asker τ α β) : (f <$> x) t c = ((f (x t c).1.1, (x t c).1.2), (x t c).2) := rfl

theorem next_apply : asker.next t c = ((c.items.head, t), c.behind 1) := rfl

theorem peekAt_apply (distance : Nat) : asker.peekAt (distance + 1) t c = ((c.items.get? distance, t), c) := rfl

theorem peek_apply : asker.peek t c = ((c.items.head, t), c) := rfl

theorem asking_apply (p : α → StateM τ Bool) (a : α) : (Op.asking p a : Asker τ α Bool) t c = (p a t, c) := rfl

end

variable (p : α → StateM τ Bool) (t : τ) (c : Cursor α)

theorem peekUntilFrom_eq (distance limit : Nat) :
    asker.peekUntilFrom (Op.asking p) (distance + 1) limit t c =
      (((judge p ((c.items.drop distance).take limit) t).accepted.isSome,
        (judge p ((c.items.drop distance).take limit) t).state), c) := by
  induction limit generalizing distance t with
  | zero => rw [Stream'.Seq.take_zero]; rfl
  | succ limit ih =>
    have next_distance : c.items.drop (distance + 1) = (c.items.drop distance).tail := rfl
    unfold Lookahead.peekUntilFrom
    rw [bind_apply, peekAt_apply, ← Stream'.Seq.head_dropn]
    cases here : c.items.drop distance using Stream'.Seq.recOn with
    | nil => rw [Stream'.Seq.take_nil]; rfl
    | cons a rest =>
      rw [here, Stream'.Seq.tail_cons] at next_distance
      simp only [Stream'.Seq.head_cons, Stream'.Seq.take_succ_cons]
      rw [bind_apply, asking_apply]
      rcases said : p a t with ⟨_ | _, t'⟩
      · rw [judge_reject _ said, ← next_distance]
        exact ih t' (distance + 1)
      · rw [judge_accept _ said]
        rfl

theorem nextUntilFrom_eq (last : Option α) (limit : Nat) :
    asker.nextUntilFrom (Op.asking p) last limit t c =
      (((judge p (c.items.take limit) t).rejected.getLast?.or last, (judge p (c.items.take limit) t).state),
        c.behind (judge p (c.items.take limit) t).rejected.length) := by
  induction limit generalizing t c last with
  | zero => rw [Stream'.Seq.take_zero]; rfl
  | succ limit ih =>
    obtain ⟨items, most⟩ := c
    unfold Lookahead.nextUntilFrom
    rw [bind_apply, peek_apply]
    cases items using Stream'.Seq.recOn with
    | nil => rw [Stream'.Seq.take_nil]; rfl
    | cons a rest =>
      simp only [Stream'.Seq.head_cons, Stream'.Seq.take_succ_cons]
      rw [bind_apply, asking_apply]
      rcases said : p a t with ⟨_ | _, t'⟩
      · rw [judge_reject _ said]
        simp only [Bool.false_eq_true, if_false]
        rw [bind_apply, next_apply, ih]
        simp [behind, List.getLast?_cons]
      · rw [judge_accept _ said]
        rfl

theorem nextIf_eq :
    asker.nextIf (Op.asking p) t c =
      (((judge p (c.items.take 1) t).accepted, (judge p (c.items.take 1) t).state),
        c.behind (judge p (c.items.take 1) t).accepted.toList.length) := by
  obtain ⟨items, most⟩ := c
  unfold Lookahead.nextIf
  rw [bind_apply, peek_apply]
  cases items using Stream'.Seq.recOn with
  | nil => rw [Stream'.Seq.take_nil]; rfl
  | cons a rest =>
    simp only [Stream'.Seq.head_cons, Stream'.Seq.take_succ_cons, Stream'.Seq.take_zero]
    rw [bind_apply, asking_apply]
    rcases said : p a t with ⟨_ | _, t'⟩
    · rw [judge_reject _ said]
      rfl
    · rw [judge_accept _ said]
      rfl

end Cursor

namespace Op

open Cursor

section

variable {p : α → StateM τ Bool} {t : τ} {c : Cursor α} {asked : List α}

def ends (o : Outcome α τ) (asked : List α) (c : Cursor α) : (Answer α × τ × List α) × Cursor α :=
  ((o.answer, o.state, asked ++ o.asked), c.behind o.consumed.length)

theorem peekUntilWithin_recorded (limit : Nat) :
    (Answer.flag <$> asker.peekUntilWithin (asking (recorded p)) limit) (t, asked) c =
      ends (.found p (c.items.take limit) t) asked c := by
  rw [map_apply, Lookahead.peekUntilWithin, peekUntilFrom_eq, Stream'.Seq.drop_zero, judge_recorded]
  rfl

def nextIfEnds (v : Verdict α τ) (more asked : List α) (c : Cursor α) : (Option α × τ × List α) × Cursor α :=
  ((v.accepted.toList.getLast?, v.state, asked ++ more), c.behind v.accepted.toList.length)

def nextUntilEnds (v : Verdict α τ) (more asked : List α) (c : Cursor α) : (Option α × τ × List α) × Cursor α :=
  ((v.rejected.getLast?, v.state, asked ++ more), c.behind v.rejected.length)

theorem nextIf_recorded :
    asker.nextIf (asking (recorded p)) (t, asked) c =
      nextIfEnds (judge p (c.items.take 1) t) (judge p (c.items.take 1) t).asked asked c := by
  rw [nextIf_eq, judge_recorded, nextIfEnds]
  cases (judge p (c.items.take 1) t).accepted <;> rfl

theorem nextIf_pure (q : α → Bool) :
    asker.nextIf (fun a => pure (q a)) (t, asked) c =
      nextIfEnds (judge (fun a => (pure (q a) : StateM τ Bool)) (c.items.take 1) t) [] asked c := by
  have plain := nextIf_eq (fun a => (pure (q a) : StateM (τ × List α) Bool)) (t, asked) c
  rw [judge_pure] at plain
  refine Eq.trans plain ?_
  rw [judge_pure, nextIfEnds, List.append_nil]
  cases (c.items.take 1).find? q <;> rfl

theorem nextUntilWithin_recorded (limit : Nat) :
    asker.nextUntilWithin (asking (recorded p)) limit (t, asked) c =
      nextUntilEnds (judge p (c.items.take limit) t) (judge p (c.items.take limit) t).asked asked c := by
  rw [Lookahead.nextUntilWithin, nextUntilFrom_eq, judge_recorded, Option.or_none]
  rfl

theorem nextUntil_pure (q : α → Bool) :
    asker.nextUntil (fun a => pure (q a)) (t, asked) c =
      nextUntilEnds (judge (fun a => (pure (q a) : StateM τ Bool)) (c.items.take c.limit) t) [] asked c := by
  have plain := nextUntilFrom_eq (fun a => (pure (q a) : StateM (τ × List α) Bool)) (t, asked) c none c.limit
  rw [judge_pure, Option.or_none] at plain
  refine Eq.trans plain ?_
  rw [judge_pure, nextUntilEnds, List.append_nil]

variable {x : Asker (τ × List α) α (Option α)} {items more : List α} {t' : τ}

theorem item_of_took (h : x (t, asked) c = ((items.getLast?, t', asked ++ more), c.behind items.length)) :
    (Answer.item <$> x) (t, asked) c = ends (.took items more t') asked c := by
  rw [map_apply, h]
  rfl

theorem flag_of_took (h : x (t, asked) c = ((items.getLast?, t', asked ++ more), c.behind items.length)) :
    (Answer.flag <$> Option.isSome <$> x) (t, asked) c = ends (Outcome.took items more t').skipped asked c := by
  rw [map_apply, map_apply, h]
  have some_iff : items.getLast?.isSome = !items.isEmpty := by
    cases items with
    | nil => rfl
    | cons a rest => rw [List.getLast?_cons]; rfl
  rw [some_iff]
  rfl

end

variable [Kinded α κ] [DecidableEq κ]

/-- On the items alone, every operation comes to its outcome. -/
theorem run_cursor (op : Op α κ τ) (c : Cursor α) (t : τ) (asked : List α) :
    op.run Cursor.lookahead (t, asked) c = ends (op.outcome c.limit c.items t) asked c := by
  cases op with
  | next =>
    obtain ⟨items, most⟩ := c
    simp only [run, map_apply, next_apply]
    cases items using Stream'.Seq.recOn with
    | nil => simp [ends, outcome, Outcome.took, behind]
    | cons a rest => simp [ends, outcome, Outcome.took, behind]
  | peek =>
    simp only [run, map_apply, peek_apply]
    simp [ends, outcome, Outcome.shown, behind]
  | peekAt distance ahead =>
    obtain ⟨before, rfl⟩ := Nat.exists_eq_add_of_lt ahead
    simp only [run, map_apply, Nat.zero_add, peekAt_apply]
    simp [ends, outcome, Outcome.shown, behind]
  | peekUntil p => exact peekUntilWithin_recorded c.limit
  | peekUntilWithin p limit => exact peekUntilWithin_recorded limit
  | nextIf p => exact item_of_took nextIf_recorded
  | nextUntil p => exact item_of_took (nextUntilWithin_recorded c.limit)
  | nextUntilWithin p limit => exact item_of_took (nextUntilWithin_recorded limit)
  | skipIf p => exact flag_of_took nextIf_recorded
  | skipUntil p => exact flag_of_took (nextUntilWithin_recorded c.limit)
  | skipUntilWithin p limit => exact flag_of_took (nextUntilWithin_recorded limit)
  | nextIfKind kind => exact item_of_took (nextIf_pure _)
  | nextUntilIn kinds => exact item_of_took (nextUntil_pure _)
  | nextUntilNotIn kinds => exact item_of_took (nextUntil_pure _)
  | skipUntilIn kinds => exact flag_of_took (nextUntil_pure _)
  | skipUntilNotIn kinds => exact flag_of_took (nextUntil_pure _)

/-- Lookaheads that agree in their three operations agree in all. -/
theorem run_matches {m n : Type → Type} [Monad m] [Monad n] [LawfulMonad m] [LawfulMonad n] {S : Simulation m n}
    {l : Lookahead m α} {r : Lookahead n α} (h : S.Matches l r) (op : Op α κ τ) :
    (S.stateT (τ × List α)).Rel (op.run l) (op.run r) := by
  have lifted : (S.stateT (τ × List α)).Matches _ _ := h.lift
  have asked (p : α → StateM (τ × List α) Bool) (a : α) :
      (S.stateT (τ × List α)).Rel (asking p a : StateT (τ × List α) m Bool) (asking p a) := by
    intro t
    exact S.rel_pure (p a t)
  have plain (q : α → Bool) (a : α) :
      (S.stateT (τ × List α)).Rel (pure (q a) : StateT (τ × List α) m Bool) (pure (q a)) :=
    (S.stateT (τ × List α)).rel_pure (q a)
  cases op with
  | next => exact Simulation.rel_map _ _ lifted.next
  | peek => exact Simulation.rel_map _ _ lifted.peek
  | peekAt distance ahead => exact Simulation.rel_map _ _ (lifted.peekAt distance ahead)
  | peekUntil p => exact Simulation.rel_map _ _ (lifted.peekUntil (asked _))
  | peekUntilWithin p limit => exact Simulation.rel_map _ _ (lifted.peekUntilWithin (asked _) limit)
  | nextIf p => exact Simulation.rel_map _ _ (lifted.nextIf (asked _))
  | nextUntil p => exact Simulation.rel_map _ _ (lifted.nextUntil (asked _))
  | nextUntilWithin p limit => exact Simulation.rel_map _ _ (lifted.nextUntilWithin (asked _) limit)
  | skipIf p => exact Simulation.rel_map _ _ (Simulation.rel_map _ _ (lifted.nextIf (asked _)))
  | skipUntil p => exact Simulation.rel_map _ _ (Simulation.rel_map _ _ (lifted.nextUntil (asked _)))
  | skipUntilWithin p limit =>
    exact Simulation.rel_map _ _ (Simulation.rel_map _ _ (lifted.nextUntilWithin (asked _) limit))
  | nextIfKind kind => exact Simulation.rel_map _ _ (lifted.nextIf (plain _))
  | nextUntilIn kinds => exact Simulation.rel_map _ _ (lifted.nextUntil (plain _))
  | nextUntilNotIn kinds => exact Simulation.rel_map _ _ (lifted.nextUntil (plain _))
  | skipUntilIn kinds => exact Simulation.rel_map _ _ (Simulation.rel_map _ _ (lifted.nextUntil (plain _)))
  | skipUntilNotIn kinds => exact Simulation.rel_map _ _ (Simulation.rel_map _ _ (lifted.nextUntil (plain _)))

end Op

theorem Cursor.nextUntil_pure (q : α → Bool) (c : Cursor α) :
    Cursor.lookahead.nextUntil (fun a => pure (q a)) c =
      (((c.items.take c.limit).takeWhile (!q ·)).getLast?, c.behind ((c.items.take c.limit).takeWhile (!q ·)).length) := by
  -- `nextUntilFrom_eq` is about predicates with a state; this one's is `()`
  have lifted : (asker : Lookahead (Asker Unit α) α).nextUntil (fun a => pure (q a)) =
      liftM (Cursor.lookahead.nextUntil fun a => pure (q a)) :=
    (Simulation.Matches.lifting Cursor.lookahead).nextUntil fun a => rfl
  have ran := nextUntilFrom_eq (fun a => (pure (q a) : StateM Unit Bool)) () c none c.limit
  rw [judge_pure, Option.or_none] at ran
  have same := (congrFun (congrFun lifted ()) c).symm.trans ran
  exact congrArg (fun r => (r.1.1, r.2)) same

/-! ## On a buffer -/

namespace Buffer

variable {σ : Type} [Source Id σ α] [Kinded α κ] [DecidableEq κ] {b : Buffer σ α} {items : Items α}

theorem peek_of_holds (h : b.Holds items) :
    ∃ b', (direct.peek : ScanT Id (Buffer σ α) (Option α)) b = (.ok items.head, b') ∧ b'.Holds items ∧
      b'.limits = b.limits :=
  peekAt_of_holds h 0

theorem nextUntil_of_holds (h : b.Holds items) (q : α → Bool) :
    let taken := (items.take b.limits.items).takeWhile (!q ·)
    ∃ b', (direct.nextUntil fun a => pure (q a) : ScanT Id (Buffer σ α) (Option α)) b = (.ok taken.getLast?, b') ∧
      b'.Holds (items.drop taken.length) ∧ b'.limits = b.limits := by
  intro taken
  obtain ⟨b', ran, shown⟩ :=
    matches_cursor.nextUntil (fun a => (simulation : Simulation (ScanT Id (Buffer σ α)) _).rel_pure (q a)) b
      ⟨items, b.limits.items⟩ ⟨h, rfl⟩
  rw [Cursor.nextUntil_pure] at ran shown
  exact ⟨b', ran, shown.holds, congrArg ScanLimits.mk shown.limit⟩

/-- On a buffer, every operation comes to its outcome on the items that the buffer holds. -/
theorem run_of_holds (h : b.Holds items) (op : Op α κ τ) (t : τ) (asked : List α) :
    ∃ b', op.run direct (t, asked) b =
        (.ok ((op.outcome b.limits.items items t).answer, (op.outcome b.limits.items items t).state,
          asked ++ (op.outcome b.limits.items items t).asked), b') ∧
      b'.Holds (items.drop (op.outcome b.limits.items items t).consumed.length) ∧ b'.limits = b.limits := by
  obtain ⟨b', ran, shown⟩ :=
    Op.run_matches (S := simulation) matches_cursor op (t, asked) b ⟨items, b.limits.items⟩ ⟨h, rfl⟩
  rw [Op.run_cursor] at ran shown
  exact ⟨b', ran, shown.holds, congrArg ScanLimits.mk shown.limit⟩

theorem bind_ok {β γ : Type} {x : StateT τ (ScanT Id σ) β} {f : β → StateT τ (ScanT Id σ) γ} {t t' : τ} {s s' : σ}
    {a : β} (h : x t s = (.ok (a, t'), s')) : (x >>= f) t s = f a t' s' := ScanT.bind_ok h

/-- A program of operations on a buffer comes to what it comes to on the items that the buffer
    holds, one operation after the other: its answers, the questions its predicates are asked,
    and the items that are left. What an operation consumes and asks about are the first of
    the items to come, each once and in order. -/
theorem program_of_holds (h : b.Holds items) (program : List (Op α κ τ)) (t : τ) (asked : List α) :
    ∃ b', program.mapM (Op.run direct) (t, asked) b =
        (.ok ((Op.outcomes b.limits.items program items t).map Outcome.answer,
          ((Op.outcomes b.limits.items program items t).getLast?.map Outcome.state).getD t,
          asked ++ (Op.outcomes b.limits.items program items t).flatMap Outcome.asked), b') ∧
      b'.Holds (items.drop ((Op.outcomes b.limits.items program items t).flatMap Outcome.consumed).length) ∧
      b'.limits = b.limits ∧
      ∀ (op : Op α κ τ) (limit : Nat) (items : Items α) (t : τ), (op.outcome limit items t).AtFront items := by
  induction program generalizing b items t asked with
  | nil =>
    refine ⟨b, ?_, ?_, rfl, Op.outcome_atFront⟩
    · simp [Op.outcomes]
      rfl
    · simpa [Op.outcomes] using h
  | cons op program ih =>
    obtain ⟨b', ran, holds, limits⟩ := run_of_holds h op t asked
    generalize first : op.outcome b.limits.items items t = o at ran holds
    obtain ⟨b'', rest, left, same, front⟩ := ih holds o.state (asked ++ o.asked)
    rw [limits] at rest left same
    have outcomes : Op.outcomes b.limits.items (op :: program) items t =
        o :: Op.outcomes b.limits.items program (items.drop o.consumed.length) o.state := by
      simp only [Op.outcomes, first]
    refine ⟨b'', ?_, ?_, same, front⟩
    · rw [List.mapM_cons, bind_ok ran, bind_ok rest, outcomes]
      simp [List.getLast?_cons]
      rfl
    · rw [outcomes, List.flatMap_cons, List.length_append, Stream'.Seq.dropn_add]
      exact left

def letterForEver : Replay (Token .utf8 CharKind) := ⟨fun _ => some ⟨⟨0, 1⟩, .lowercaseLetter⟩, 1, true, .unknown, 0⟩

theorem program_of_holds_endless :
    let letter : Token .utf8 CharKind := ⟨⟨0, 1⟩, .lowercaseLetter⟩
    let letters : Items (Token .utf8 CharKind) := Stream'.Seq.ofStream (Stream'.const letter)
    let second : Token .utf8 CharKind → StateM Nat Bool := fun _ calls => (calls == 1, calls + 1)
    (ofSource letterForEver).Holds letters ∧
      ∃ b', [Op.peekAt 9 (by decide), .nextUntil second, .nextUntilIn [.digit], .peekUntilWithin second 0].mapM
            (Op.run direct) (0, []) ((ofSource letterForEver).withLimits ⟨4⟩) =
          (.ok ([.item (some letter), .item (some letter), .item (some letter), .flag false], 2, [letter, letter]), b') ∧
        b'.Holds (letters.drop 5) := by
  intro letter letters second
  have yields : Source.Yields letterForEver letters := by
    refine Source.yields_of_invariant (P := fun s items => (s = letterForEver ∨ s = { letterForEver with position := 1 }) ∧
      items = letters) ?_ ⟨.inl rfl, rfl⟩
    rintro s items ⟨rfl | rfl, rfl⟩
    · exact ⟨_, rfl, .inr rfl, rfl⟩
    · exact ⟨_, rfl, .inr rfl, rfl⟩
  have holds := (holds_ofSource yields).withLimits ⟨4⟩
  obtain ⟨b', ran, left, -⟩ := program_of_holds holds
    [Op.peekAt 9 (by decide), .nextUntil second, .nextUntilIn [.digit], .peekUntilWithin second 0] 0 []
  exact ⟨holds_ofSource yields, b', ran, left⟩

end Buffer

end TokenScan
