/-
  TokenScan.Proofs.Simulation — comparing what is computed in two monads.

  A `Simulation` relates computations of one monad to computations of another, and doing one
  thing after another keeps the relation. Everything that a `Lookahead` offers is made of three
  operations, so two lookaheads that agree in these (`Simulation.Matches`) agree in every scan,
  whatever the scan asks about the items on its way (`Matches.peekUntilWithin`,
  `Matches.nextIf`, `Matches.nextUntilWithin` and the forms made of them).

  `Simulation.stateT` gives the computations on both sides a state of their own, and
  `Simulation.lifting` is the simulation of computations by themselves with such a state added.
-/

import TokenScan.Lookahead

namespace TokenScan

/-- A relation between the computations of two monads that putting them together keeps. -/
structure Simulation (m n : Type → Type) [Monad m] [Monad n] where
  Rel : {β : Type} → m β → n β → Prop
  rel_pure : ∀ {β : Type} (a : β), Rel (pure a) (pure a)
  rel_bind : ∀ {β γ : Type} {x : m β} {y : n β} {f : β → m γ} {g : β → n γ},
    Rel x y → (∀ a, Rel (f a) (g a)) → Rel (x >>= f) (y >>= g)

namespace Simulation

variable {m n : Type → Type} [Monad m] [Monad n] {α β γ τ : Type}

theorem rel_map [LawfulMonad m] [LawfulMonad n] (S : Simulation m n) (f : β → γ) {x : m β} {y : n β}
    (h : S.Rel x y) : S.Rel (f <$> x) (f <$> y) := by
  rw [map_eq_pure_bind, map_eq_pure_bind]
  exact S.rel_bind h fun a => S.rel_pure (f a)

def stateT (S : Simulation m n) (τ : Type) : Simulation (StateT τ m) (StateT τ n) where
  Rel x y := ∀ t, S.Rel (x t) (y t)
  rel_pure a t := S.rel_pure (a, t)
  rel_bind h k t := S.rel_bind (h t) fun (a, t) => k a t

def lifting (m : Type → Type) [Monad m] [LawfulMonad m] (τ : Type) : Simulation m (StateT τ m) where
  Rel x y := y = liftM x
  rel_pure a := (liftM_pure a).symm
  rel_bind {_ _ x y f g} h k := by
    obtain rfl := h
    obtain rfl : g = fun a => liftM (f a) := funext k
    exact (liftM_bind x f).symm

/-! ## Lookaheads -/

/-- Two lookaheads whose operations are related. At distance 0 they may differ: what waits
    already is no matter of the items to come. -/
structure Matches (S : Simulation m n) (l : Lookahead m α) (r : Lookahead n α) : Prop where
  next : S.Rel l.next r.next
  peekAt : ∀ distance, 0 < distance → S.Rel (l.peekAt distance) (r.peekAt distance)
  scanLimit : S.Rel l.scanLimit r.scanLimit

namespace Matches

variable {S : Simulation m n} {l : Lookahead m α} {r : Lookahead n α}

theorem lift (h : S.Matches l r) : (S.stateT τ).Matches (l.lift : Lookahead (StateT τ m) α) r.lift where
  next t := S.rel_bind h.next fun a => S.rel_pure (a, t)
  peekAt distance ahead t := S.rel_bind (h.peekAt distance ahead) fun a => S.rel_pure (a, t)
  scanLimit t := S.rel_bind h.scanLimit fun a => S.rel_pure (a, t)

theorem lifting [LawfulMonad m] (l : Lookahead m α) :
    (Simulation.lifting m τ).Matches l (l.lift : Lookahead (StateT τ m) α) :=
  ⟨rfl, fun _ _ => rfl, rfl⟩

theorem peek (h : S.Matches l r) : S.Rel l.peek r.peek := h.peekAt 1 Nat.one_pos

variable {p : α → m Bool} {q : α → n Bool}

theorem peekUntilFrom (h : S.Matches l r) (asked : ∀ a, S.Rel (p a) (q a)) (distance limit : Nat)
    (ahead : 0 < distance) : S.Rel (l.peekUntilFrom p distance limit) (r.peekUntilFrom q distance limit) := by
  induction limit generalizing distance with
  | zero => exact S.rel_pure false
  | succ limit ih =>
    unfold Lookahead.peekUntilFrom
    apply S.rel_bind (h.peekAt distance ahead)
    intro found
    cases found with
    | none => exact S.rel_pure false
    | some item =>
      apply S.rel_bind (asked item)
      intro yes
      cases yes with
      | true => exact S.rel_pure true
      | false => exact ih (distance + 1) (Nat.succ_pos distance)

theorem peekUntilWithin (h : S.Matches l r) (asked : ∀ a, S.Rel (p a) (q a)) (limit : Nat) :
    S.Rel (l.peekUntilWithin p limit) (r.peekUntilWithin q limit) :=
  h.peekUntilFrom asked 1 limit Nat.one_pos

theorem peekUntil (h : S.Matches l r) (asked : ∀ a, S.Rel (p a) (q a)) : S.Rel (l.peekUntil p) (r.peekUntil q) :=
  S.rel_bind h.scanLimit fun limit => h.peekUntilWithin asked limit

theorem nextIf (h : S.Matches l r) (asked : ∀ a, S.Rel (p a) (q a)) : S.Rel (l.nextIf p) (r.nextIf q) := by
  apply S.rel_bind h.peek
  intro found
  cases found with
  | none => exact S.rel_pure none
  | some item =>
    apply S.rel_bind (asked item)
    intro yes
    cases yes with
    | true => exact h.next
    | false => exact S.rel_pure none

theorem nextUntilFrom (h : S.Matches l r) (asked : ∀ a, S.Rel (p a) (q a)) (last : Option α) (limit : Nat) :
    S.Rel (l.nextUntilFrom p last limit) (r.nextUntilFrom q last limit) := by
  induction limit generalizing last with
  | zero => exact S.rel_pure last
  | succ limit ih =>
    unfold Lookahead.nextUntilFrom
    apply S.rel_bind h.peek
    intro found
    cases found with
    | none => exact S.rel_pure last
    | some item =>
      apply S.rel_bind (asked item)
      intro yes
      cases yes with
      | true => exact S.rel_pure last
      | false => exact S.rel_bind h.next fun taken => ih taken

theorem nextUntilWithin (h : S.Matches l r) (asked : ∀ a, S.Rel (p a) (q a)) (limit : Nat) :
    S.Rel (l.nextUntilWithin p limit) (r.nextUntilWithin q limit) := h.nextUntilFrom asked none limit

theorem nextUntil (h : S.Matches l r) (asked : ∀ a, S.Rel (p a) (q a)) : S.Rel (l.nextUntil p) (r.nextUntil q) :=
  S.rel_bind h.scanLimit fun limit => h.nextUntilWithin asked limit

end Matches

end Simulation

end TokenScan
