/-
  TokenScan.Proofs.Judge — asking a predicate about items in turn, up to the first it accepts.

  A predicate may keep a state from one question to the next, so what it says about an item
  can depend on those it was asked about before. `judge` says which items it rejects, which
  one it accepts, and in which state it is left; it is asked about these items only, in order
  and once each (`judge_recorded`, `Verdict.asked_isPrefix`). For a predicate without a state
  this is `takeWhile` and `find?` (`judge_pure`).
-/

import TokenScan.Scan

namespace TokenScan

variable {α β τ : Type}

structure Verdict (α τ : Type) where
  /-- The items it rejected before it accepted one, or before there were no more. -/
  rejected : List α
  accepted : Option α
  state : τ

def Verdict.asked (v : Verdict α τ) : List α := v.rejected ++ v.accepted.toList

/-- Asks about the items in turn, up to the first that is accepted. -/
def judge (p : α → StateM τ Bool) : List α → τ → Verdict α τ
  | [], t => ⟨[], none, t⟩
  | a :: rest, t =>
    match (p a t : Bool × τ) with
    | (true, t) => ⟨[], some a, t⟩
    | (false, t) => let v := judge p rest t; ⟨a :: v.rejected, v.accepted, v.state⟩

/-- The same predicate, which also writes down what it is asked about. -/
def recorded (p : α → StateM τ Bool) : α → StateM (τ × List α) Bool := fun a (t, asked) =>
  ((p a t).1, (p a t).2, asked ++ [a])

def refuses (p : α → StateM τ Bool) : α → StateM τ Bool := fun a t => (!(p a t).1, (p a t).2)

section

variable {p : α → StateM τ Bool} {a : α} {t t' : τ}

theorem judge_accept (rest : List α) (h : p a t = (true, t')) : judge p (a :: rest) t = ⟨[], some a, t'⟩ := by
  simp only [judge, h]

theorem judge_reject (rest : List α) (h : p a t = (false, t')) :
    judge p (a :: rest) t =
      ⟨a :: (judge p rest t').rejected, (judge p rest t').accepted, (judge p rest t').state⟩ := by
  simp only [judge, h]

end

theorem Verdict.asked_isPrefix (p : α → StateM τ Bool) (items : List α) (t : τ) : (judge p items t).asked <+: items := by
  induction items generalizing t with
  | nil => exact List.prefix_rfl
  | cons a rest ih =>
    rcases h : p a t with ⟨_ | _, t'⟩
    · rw [judge_reject rest h]
      exact List.cons_prefix_cons.mpr ⟨rfl, ih t'⟩
    · rw [judge_accept rest h]
      exact ⟨rest, rfl⟩

theorem rejected_isPrefix (p : α → StateM τ Bool) (items : List α) (t : τ) : (judge p items t).rejected <+: items :=
  (List.prefix_append _ _).trans (Verdict.asked_isPrefix p items t)

theorem judge_recorded (p : α → StateM τ Bool) (items : List α) (t : τ) (asked : List α) :
    judge (recorded p) items (t, asked) =
      ⟨(judge p items t).rejected, (judge p items t).accepted,
        (judge p items t).state, asked ++ (judge p items t).asked⟩ := by
  induction items generalizing t asked with
  | nil => simp [judge, Verdict.asked]
  | cons a rest ih =>
    rcases h : p a t with ⟨_ | _, t'⟩
    · have said : recorded p a (t, asked) = (false, t', asked ++ [a]) := by simp only [recorded, h]
      rw [judge_reject rest h, judge_reject rest said, ih]
      simp [Verdict.asked]
    · have said : recorded p a (t, asked) = (true, t', asked ++ [a]) := by simp only [recorded, h]
      rw [judge_accept rest h, judge_accept rest said]
      simp [Verdict.asked]

/-- It is the same to ask about what `f` makes of the items, and to ask by way of `f`. -/
theorem judge_map (p : β → StateM τ Bool) (f : α → β) (items : List α) (t : τ) :
    judge p (items.map f) t =
      let v := judge (fun a => p (f a)) items t
      ⟨v.rejected.map f, v.accepted.map f, v.state⟩ := by
  induction items generalizing t with
  | nil => rfl
  | cons a items ih =>
    rcases said : p (f a) t with ⟨_ | _, t'⟩
    · rw [List.map_cons, judge_reject _ said, ih, judge_reject (p := fun a => p (f a)) _ said]
      rfl
    · rw [List.map_cons, judge_accept _ said, judge_accept (p := fun a => p (f a)) _ said]
      rfl

theorem head?_drop_rejected (p : α → StateM τ Bool) (items : List α) (t : τ) :
    (items.drop (judge p items t).rejected.length).head? = (judge p items t).accepted := by
  induction items generalizing t with
  | nil => rfl
  | cons a items ih =>
    rcases said : p a t with ⟨_ | _, t'⟩
    · rw [judge_reject _ said]
      exact ih t'
    · rw [judge_accept _ said]
      rfl

theorem drop_length_takeWhile (q : α → Bool) (items : List α) :
    items.drop (items.takeWhile q).length = items.dropWhile q := by
  induction items with
  | nil => rfl
  | cons a rest ih => cases h : q a <;> simp [h, ih]

/-- A predicate without a state rejects the longest prefix that it does not hold for. -/
theorem judge_pure (q : α → Bool) (items : List α) (t : τ) :
    judge (fun a => (pure (q a) : StateM τ Bool)) items t =
      ⟨items.takeWhile fun a => !q a, items.find? q, t⟩ := by
  induction items with
  | nil => rfl
  | cons a rest ih =>
    cases h : q a with
    | true =>
      have said : (pure (q a) : StateM τ Bool) t = (true, t) := by rw [h]; rfl
      rw [judge_accept rest said]
      simp [h]
    | false =>
      have said : (pure (q a) : StateM τ Bool) t = (false, t) := by rw [h]; rfl
      rw [judge_reject rest said, ih]
      simp [h]

end TokenScan
