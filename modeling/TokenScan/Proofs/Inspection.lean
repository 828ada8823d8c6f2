/-
  TokenScan.Proofs.Inspection — predicates that look at the buffer that is being scanned.

  An `Inspection` comes to a decision by looks ahead. Each look goes through a handle and to a distance of its
  choice, and what it shows may decide about the next. `Inspection.seeing` is the decision if the looks go to a
  given sequence, and then it matters neither which handles are used nor what has been pulled before.

  A scan with such predicates pulls items in between its own looks, as far as its predicates ask. To the scan this
  makes no difference: it does what it does on the plain sequence of the items to come (`Pool.answers`), where its
  loops are opened (`Cursor.nextUntilFrom_inspecting`, `Cursor.peekUntilFrom_inspecting`). The place where it stops
  is the least of `Inspection.stops`, in which a predicate sees the items from that place on if the scan consumes,
  and the items as they were at first if it does not.
-/

import Mathlib.Order.Bounds.Defs
import TokenScan.Proofs.Sharing
import TokenScan.Source.Replay

namespace TokenScan

open Stream'.Seq (ofList)

variable {m n : Type → Type} [Monad m] [Monad n] {σ α β τ : Type} {count : Nat}

/-! ## Inspections -/

/-- A decision that depends on looks ahead through some of `count` handles. -/
inductive Inspection (α : Type) (count : Nat) (β : Type) where
  | decided (decision : β)
  | look (handle : Fin count) (distance : Nat) (ahead : 0 < distance) (rest : Option α → Inspection α count β)

namespace Inspection

def run (through : Fin count → Lookahead m α) : Inspection α count β → m β
  | decided decision => pure decision
  | look handle distance _ rest => do (rest (← (through handle).peekAt distance)).run through

def seeing (items : Items α) : Inspection α count β → β
  | decided decision => decision
  | look _ distance _ rest => (rest (items.get? (distance - 1))).seeing items

/-- A predicate that inspects and keeps a state, among computations that have that state. -/
def asking (through : Fin count → Lookahead m α) (p : α → τ → Inspection α count (Bool × τ)) : α → StateT τ m Bool :=
  fun a t => (p a t).run through

theorem run_rel {S : Simulation m n} {through : Fin count → Lookahead m α} {through' : Fin count → Lookahead n α}
    (agree : ∀ handle, S.Matches (through handle) (through' handle)) (i : Inspection α count β) :
    S.Rel (i.run through) (i.run through') := by
  induction i with
  | decided decision => exact S.rel_pure decision
  | look handle distance ahead rest ih => exact S.rel_bind ((agree handle).peekAt distance ahead) ih

/-- On the items themselves, an inspection changes nothing. -/
theorem run_cursor (i : Inspection α count β) (c : Cursor α) :
    i.run (fun _ => Cursor.lookahead) c = (i.seeing c.items, c) := by
  induction i with
  | decided decision => rfl
  | look handle distance ahead rest ih => exact ih (c.items.get? (distance - 1))

/-! ### Where a scan stops -/

variable (p : α → τ → Inspection α count (Bool × τ)) (view : Items α → Items α)

/-- The state in which `p` is asked about the item in this place, after it has been asked about those before it.
    Asked about an item, it has this view of the items from there on. -/
def before : Items α → τ → (place : Nat) → τ
  | _, t, 0 => t
  | items, t, place + 1 =>
    match items.head with
    | none => t
    | some a => before items.tail ((p a t).seeing (view items)).2 place

def holdsAt (items : Items α) (t : τ) (place : Nat) : Bool :=
  (items.get? place).any fun a => ((p a (before p view items t place)).seeing (view (items.drop place))).1

/-- Where a scan has to stop: behind `limit` items, behind the last one, or where the predicate holds. -/
def stops (items : Items α) (t : τ) (limit : Nat) : Set Nat :=
  {place | place = limit ∨ items.get? place = none ∨ holdsAt p view items t place = true}

variable {items rest : Items α} {a : α} {t : τ} {limit place : Nat}

theorem before_one : before p view (rest.cons a) t 1 = ((p a t).seeing (view (rest.cons a))).2 := by
  simp [before]

theorem before_succ : before p view (rest.cons a) t (place + 1) =
    before p view rest ((p a t).seeing (view (rest.cons a))).2 place := by
  simp [before]

variable {p view}

theorem holdsAt_nil : holdsAt p view Stream'.Seq.nil t place = false := by
  simp [holdsAt]

theorem holdsAt_zero : holdsAt p view (rest.cons a) t 0 = ((p a t).seeing (view (rest.cons a))).1 := by
  simp [holdsAt, before]

/-- Further on, the items and the state are those behind the first item. -/
theorem holdsAt_succ : holdsAt p view (rest.cons a) t (place + 1) =
    holdsAt p view rest ((p a t).seeing (view (rest.cons a))).2 place := by
  simp [holdsAt, before]

theorem isLeast_stops_zero (h : 0 ∈ stops p view items t limit) : IsLeast (stops p view items t limit) 0 :=
  ⟨h, fun place _ => Nat.zero_le place⟩

/-- If the predicate does not hold for the first item, the scan stops where it stops behind it. -/
theorem isLeast_stops_succ (fails : holdsAt p view (rest.cons a) t 0 = false)
    (least : IsLeast (stops p view rest ((p a t).seeing (view (rest.cons a))).2 limit) place) :
    IsLeast (stops p view (rest.cons a) t (limit + 1)) (place + 1) := by
  have same (place : Nat) : place + 1 ∈ stops p view (rest.cons a) t (limit + 1) ↔
      place ∈ stops p view rest ((p a t).seeing (view (rest.cons a))).2 limit := by
    simp [stops, holdsAt_succ]
  refine ⟨(same place).mpr least.1, ?_⟩
  intro other mem
  cases other with
  | zero =>
    rcases mem with done | ended | holds
    · omega
    · simp at ended
    · rw [fails] at holds
      cases holds
  | succ other => exact Nat.succ_le_succ (least.2 ((same other).mp mem))

/-- The scan stops at an item, and not for its limit, just if the predicate holds for one of the items within it. -/
theorem stopped_iff (least : IsLeast (stops p view items t limit) place) :
    (place < limit ∧ (items.get? place).isSome = true) ↔ ∃ found < limit, holdsAt p view items t found = true := by
  constructor
  · rintro ⟨short, there⟩
    rcases least.1 with done | ended | holds
    · omega
    · simp [ended] at there
    · exact ⟨place, short, holds⟩
  · rintro ⟨found, short, holds⟩
    have first := least.2 (.inr (.inr holds))
    obtain ⟨a, there, -⟩ := Option.any_eq_true _ _ |>.mp holds
    obtain ⟨earlier, shown⟩ := items.ge_stable first there
    exact ⟨Nat.lt_of_le_of_lt first short, by simp [shown]⟩

end Inspection

/-! ## On the items alone -/

namespace Cursor

open Inspection

variable (p : α → τ → Inspection α count (Bool × τ)) (t : τ) (c : Cursor α)

abbrev inspecting : α → Asker τ α Bool := asking (fun _ => lookahead) p

theorem inspecting_apply (a : α) : inspecting p a t c = ((p a t).seeing c.items, c) := run_cursor (p a t) c

theorem nextUntilFrom_inspecting (last : Option α) (limit : Nat) :
    ∃ place, IsLeast (stops p id c.items t limit) place ∧
      asker.nextUntilFrom (inspecting p) last limit t c =
        ((if place = 0 then last else c.items.get? (place - 1), before p id c.items t (min (place + 1) limit)),
          c.behind place) := by
  induction limit generalizing t c last with
  | zero => exact ⟨0, isLeast_stops_zero (.inl rfl), rfl⟩
  | succ limit ih =>
    obtain ⟨items, most⟩ := c
    unfold Lookahead.nextUntilFrom
    rw [bind_apply, peek_apply]
    cases items using Stream'.Seq.recOn with
    | nil => exact ⟨0, isLeast_stops_zero (.inr (.inl rfl)), rfl⟩
    | cons a rest =>
      simp only [Stream'.Seq.head_cons]
      rw [bind_apply, inspecting_apply]
      rcases said : (p a t).seeing (rest.cons a) with ⟨_ | _, t'⟩
      · -- the first item is consumed, and what follows is the same scan over the rest
        have fails : holdsAt p id (rest.cons a) t 0 = false := by simp [holdsAt_zero, said]
        obtain ⟨place, least, ran⟩ := ih t' ⟨rest, most⟩ (some a)
        refine ⟨place + 1, isLeast_stops_succ fails (by rwa [id, said]), ?_⟩
        have behind_first : (⟨rest.cons a, most⟩ : Cursor α).behind 1 = ⟨rest, most⟩ := by simp [behind]
        simp only [Bool.false_eq_true, if_false]
        rw [bind_apply, next_apply, behind_first, Stream'.Seq.head_cons, ran, Nat.add_min_add_right,
          before_succ p id, id, said]
        cases place <;> simp [behind]
      · have holds : holdsAt p id (rest.cons a) t 0 = true := by simp [holdsAt_zero, said]
        refine ⟨0, isLeast_stops_zero (.inr (.inr holds)), ?_⟩
        have once : min (0 + 1) (limit + 1) = 1 := by omega
        rw [once, before_one p id, id, said]
        rfl

theorem peekUntilFrom_inspecting (distance limit : Nat) :
    ∃ place, IsLeast (stops p (fun _ => c.items) (c.items.drop distance) t limit) place ∧
      asker.peekUntilFrom (inspecting p) (distance + 1) limit t c =
        ((decide (place < limit ∧ ((c.items.drop distance).get? place).isSome = true),
          before p (fun _ => c.items) (c.items.drop distance) t (min (place + 1) limit)), c) := by
  induction limit generalizing distance t with
  | zero => exact ⟨0, isLeast_stops_zero (.inl rfl), rfl⟩
  | succ limit ih =>
    have next_distance : c.items.drop (distance + 1) = (c.items.drop distance).tail := rfl
    unfold Lookahead.peekUntilFrom
    rw [bind_apply, peekAt_apply, ← Stream'.Seq.head_dropn]
    cases here : c.items.drop distance using Stream'.Seq.recOn with
    | nil =>
      refine ⟨0, isLeast_stops_zero (.inr (.inl rfl)), ?_⟩
      simp
      rfl
    | cons a rest =>
      rw [here, Stream'.Seq.tail_cons] at next_distance
      simp only [Stream'.Seq.head_cons]
      rw [bind_apply, inspecting_apply]
      rcases said : (p a t).seeing c.items with ⟨_ | _, t'⟩
      · -- the scan looks one item further, and its predicate goes on seeing all of them
        have fails : holdsAt p (fun _ => c.items) (rest.cons a) t 0 = false := by simp [holdsAt_zero, said]
        obtain ⟨place, least, ran⟩ := ih t' (distance + 1)
        rw [next_distance] at least ran
        refine ⟨place + 1, isLeast_stops_succ fails (by rwa [said]), ?_⟩
        simp only [Bool.false_eq_true, if_false]
        rw [ran, Nat.add_min_add_right, before_succ, said]
        simp
      · have holds : holdsAt p (fun _ => c.items) (rest.cons a) t 0 = true := by simp [holdsAt_zero, said]
        refine ⟨0, isLeast_stops_zero (.inr (.inr holds)), ?_⟩
        have once : min (0 + 1) (limit + 1) = 1 := by omega
        rw [once, before_one, said]
        simp
        rfl

theorem nextIf_inspecting :
    asker.nextIf (inspecting p) t c =
      if holdsAt p id c.items t 0 then ((c.items.head, before p id c.items t 1), c.behind 1)
      else ((none, before p id c.items t 1), c) := by
  obtain ⟨items, most⟩ := c
  unfold Lookahead.nextIf
  rw [bind_apply, peek_apply]
  cases items using Stream'.Seq.recOn with
  | nil => simp [holdsAt_nil, before]; rfl
  | cons a rest =>
    simp only [Stream'.Seq.head_cons]
    rw [bind_apply, inspecting_apply, holdsAt_zero, before_one p id, id]
    rcases said : (p a t).seeing (rest.cons a) with ⟨_ | _, t'⟩
    · rfl
    · rfl

end Cursor

/-! ## Through the handles of a shared buffer -/

namespace Pool

open Inspection

variable [Source Id σ α] {cell : Nat} {handles : List Nat} {b : Buffer σ α} {h : Nat}

def answers (cell : Nat) (handles : List Nat) : Simulation (ScanT Id (Pool σ α)) (StateM (Cursor α)) where
  Rel x y := ∀ p b c, Shares cell handles p b → b.Shows c →
    ∃ p' b', x p = (.ok (y c).1, p') ∧ Shares cell handles p' b' ∧ b'.Shows (y c).2
  rel_pure a p b c shares hs := ⟨p, b, rfl, shares, hs⟩
  rel_bind := by
    intro β γ x y f g hx hf p b c shares hs
    obtain ⟨p', b', ran, shares, hs⟩ := hx p b c shares hs
    obtain ⟨p'', b'', finished, shares, hs⟩ := hf (y c).1 p' b' (y c).2 shares hs
    exact ⟨p'', b'', (ScanT.bind_ok ran).trans finished, shares, hs⟩

/-- What comes to the same for the owner of the buffer, who is answered from the items. -/
theorem answers_of_owner {x : ScanT Id (Pool σ α) β} {y : ScanT Id (Buffer σ α) β} {z : StateM (Cursor α) β}
    (shared : (ScanT.simulation (Shares cell handles)).Rel x y) (owned : Buffer.simulation.Rel y z) :
    (answers cell handles : Simulation (ScanT Id (Pool σ α)) _).Rel x z := by
  intro p b c shares hs
  obtain ⟨same, left⟩ := shared p b shares
  obtain ⟨b', ran, hs⟩ := owned b c hs
  rw [ran] at same left
  exact ⟨_, b', Prod.ext same rfl, left, hs⟩

theorem matches_items (mem : h ∈ handles) :
    (answers cell handles : Simulation (ScanT Id (Pool σ α)) _).Matches (cursor h) Cursor.lookahead where
  next := answers_of_owner (reach_matches mem).cursor.next Buffer.matches_cursor.next
  peekAt distance ahead :=
    answers_of_owner ((reach_matches mem).cursor.peekAt distance ahead) (Buffer.matches_cursor.peekAt distance ahead)
  scanLimit := answers_of_owner (reach_matches mem).cursor.scanLimit Buffer.matches_cursor.scanLimit

abbrev scanner (h : Nat) : Lookahead (StateT τ (ScanT Id (Pool σ α))) α :=
  (cursor h : Lookahead (ScanT Id (Pool σ α)) α).lift

abbrev inspecting (handles : Vector Nat count) (p : α → τ → Inspection α count (Bool × τ)) :
    α → StateT τ (ScanT Id (Pool σ α)) Bool :=
  asking (fun h => cursor (handles.get h)) p

/-- Predicates may look at the buffer that is scanned, through any of the handles to it, as far and as often as they
    like. No scan breaks off. A consuming scan stops at the least place where it has to, with `p` seeing the items
    from each place on; it answers with the item before that place, and all those before it are gone. An item is
    consumed by `nextIf` if `p` holds for it, seeing the items from it on. A scan that does not consume finds an item
    if `p` holds for one within the limit, seeing the items as they were, and that is how they are left. -/
theorem scans_with_inspecting_predicates (handles : Vector Nat count) (handle : Fin count)
    (p : α → τ → Inspection α count (Bool × τ)) (t : τ) (limit : Nat) {items : Items α} {pool : Pool σ α}
    (shares : Shares cell handles.toList pool b) (holds : b.Holds items) :
    let scan := scanner (handles.get handle)
    let asked := inspecting handles p
    (∃ place, IsLeast (stops p id items t limit) place ∧ ∃ pool' b',
      scan.nextUntilWithin asked limit t pool =
        (.ok (if place = 0 then none else items.get? (place - 1), before p id items t (min (place + 1) limit)), pool') ∧
      Shares cell handles.toList pool' b' ∧ b'.Holds (items.drop place)) ∧
    (∃ pool' b',
      scan.nextIf asked t pool =
        (.ok (if holdsAt p id items t 0 then items.head else none, before p id items t 1), pool') ∧
      Shares cell handles.toList pool' b' ∧ b'.Holds (if holdsAt p id items t 0 then items.tail else items)) ∧
    ∃ found t' pool' b', scan.peekUntilWithin asked limit t pool = (.ok (found, t'), pool') ∧
      (found = true ↔ ∃ place < limit, holdsAt p (fun _ => items) items t place = true) ∧
      Shares cell handles.toList pool' b' ∧ b'.Holds items := by
  intro scan asked
  have mem (h : Fin count) : handles.get h ∈ handles.toList := by
    show handles[h] ∈ handles.toList
    exact Vector.mem_toList_iff.mpr (Vector.getElem_mem h.isLt)
  have hm : ((answers cell handles.toList).stateT τ).Matches scan Cursor.asker := (matches_items (mem handle)).lift
  have agree (a : α) : ((answers cell handles.toList).stateT τ).Rel (asked a) (Cursor.inspecting p a) :=
    fun t => run_rel (fun h => matches_items (mem h)) (p a t)
  have hs : b.Shows ⟨items, b.limits.items⟩ := ⟨holds, rfl⟩
  refine ⟨?_, ?_, ?_⟩
  · obtain ⟨place, least, ran⟩ := Cursor.nextUntilFrom_inspecting p t ⟨items, b.limits.items⟩ none limit
    obtain ⟨pool', b', answered, shares, shown⟩ := hm.nextUntilWithin agree limit t pool b _ shares hs
    rw [show Cursor.asker.nextUntilWithin (Cursor.inspecting p) limit t _ = _ from ran] at answered shown
    exact ⟨place, least, pool', b', answered, shares, shown.holds⟩
  · obtain ⟨pool', b', answered, shares, shown⟩ := hm.nextIf agree t pool b _ shares hs
    rw [Cursor.nextIf_inspecting] at answered shown
    refine ⟨pool', b', ?_, shares, ?_⟩
    · rw [answered]
      split <;> rfl
    · by_cases yes : holdsAt p id items t 0 = true
      · rw [if_pos yes] at shown ⊢
        exact shown.holds
      · rw [if_neg yes] at shown ⊢
        exact shown.holds
  · obtain ⟨place, least, ran⟩ := Cursor.peekUntilFrom_inspecting p t ⟨items, b.limits.items⟩ 0 limit
    obtain ⟨pool', b', answered, shares, shown⟩ := hm.peekUntilWithin agree limit t pool b _ shares hs
    rw [show Cursor.asker.peekUntilWithin (Cursor.inspecting p) limit t _ = _ from ran] at answered shown
    refine ⟨_, _, pool', b', answered, ?_, shares, shown.holds⟩
    rw [decide_eq_true_iff]
    exact stopped_iff least

def belowFour : Replay Nat := ⟨some, 4, false, .unknown, 0⟩

theorem belowFour_yields : Source.Yields belowFour (ofList [0, 1, 2, 3]) := by
  refine Source.yields_of_invariant (P := fun s items => ∃ taken ≤ 4, s = { belowFour with position := taken } ∧
    items = ofList ([0, 1, 2, 3].drop taken)) ?_ ⟨0, by decide, rfl, rfl⟩
  rintro s items ⟨taken, atMost, rfl, rfl⟩
  rw [Items.head_ofList, Items.tail_ofList, List.tail_drop]
  by_cases more : taken = 4
  · subst more
    exact ⟨_, rfl, 4, by decide, rfl, rfl⟩
  · refine ⟨{ belowFour with position := taken + 1 }, ?_, taken + 1, by omega, rfl, rfl⟩
    have inside : taken < 4 := by omega
    obtain rfl | rfl | rfl | rfl : taken = 0 ∨ taken = 1 ∨ taken = 2 ∨ taken = 3 := by omega
    all_goals rfl

/-- It stops once the number after the next one is 2, which it has looked at through the other handle. -/
theorem scans_with_inspecting_predicates_below_four :
    let shared : Pool (Replay Nat) Nat := ⟨#[⟨.ofSource belowFour, 0⟩], #[some ⟨0, .shared⟩, some ⟨0, .shared⟩]⟩
    let beforeTwo : Nat → Unit → Inspection Nat 2 (Bool × Unit) := fun _ _ =>
      .look 0 9 (by decide) fun _ => .look 1 2 (by decide) fun second => .decided (second == some 2, ())
    (Shares 0 [0, 1] shared (.ofSource belowFour) ∧ (Buffer.ofSource belowFour).Holds (ofList [0, 1, 2, 3])) ∧
      ∃ pool' b', (scanner 0).nextUntilWithin (inspecting #v[0, 1] beforeTwo) 3 () shared = (.ok (some 0, ()), pool') ∧
        Shares 0 [0, 1] pool' b' ∧ b'.Holds (ofList [1, 2, 3]) := by
  intro shared beforeTwo
  have shares : Shares 0 [0, 1] shared (.ofSource belowFour) := ⟨rfl, by simp [shared, handle?]⟩
  have holds := Buffer.holds_ofSource belowFour_yields
  obtain ⟨⟨place, least, pool', b', ran, left, holds'⟩, -⟩ :=
    scans_with_inspecting_predicates #v[0, 1] 0 beforeTwo () 3 shares holds
  have atMost : place ≤ 1 := least.2 (.inr (.inr (by decide)))
  have second : place = 1 := by
    by_contra other
    obtain rfl : place = 0 := by omega
    rcases least.1 with done | ended | holds
    · cases done
    · cases ended
    · exact absurd holds (by decide)
  subst second
  rw [Items.drop_ofList] at holds'
  exact ⟨⟨shares, holds⟩, pool', b', ran, left, holds'⟩

end Pool

end TokenScan
