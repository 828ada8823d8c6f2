/-
  TokenScan.Proofs.Recording — what is asked of a buffer, and what is consumed by asking it.

  A `Reach` is what can be done with a buffer from where it can be reached: by its owner, or
  through a handle. `Request` names everything that can be asked of it: the operations of a
  lookahead, and looks at the buffer as it is.

  A recorded lookahead also writes down every item that it consumes, in order of time
  (`Lookahead.recorded`), whatever operation consumes it. `ScanT.simulation` relates scans on
  two kinds of state that answer alike, also when they break off, and that keep the states
  related. Requests to buffers that agree in their few primitive operations get the same
  replies (`Request.run_matches`), and writing down what is consumed changes nothing about
  that (`Reach.Matches.recorded`, `Reach.recorded_matches`).
-/

import TokenScan.Proofs.Operations

namespace TokenScan

variable {m n : Type → Type} [Monad m] [Monad n] {σ τ σ' ρ α κ β γ : Type}

/-! ## Scans on related states -/

namespace ScanT

theorem bind_apply (x : ScanT Id σ β) (f : β → ScanT Id σ γ) (s : σ) :
    (x >>= f) s = match x s with
      | (.ok a, s') => f a s'
      | (.error fault, s') => (.error fault, s') := by
  rcases h : x s with ⟨_ | _, s'⟩
  · simp only [bind, ExceptT.bind, ExceptT.mk, StateT.bind, h, ExceptT.bindCont]
    rfl
  · exact bind_ok h

/-- Scans that answer alike from related states, and leave related states. -/
def simulation (R : σ → ρ → Prop) : Simulation (ScanT Id σ) (ScanT Id ρ) where
  Rel x y := ∀ s t, R s t → (x s).1 = (y t).1 ∧ R (x s).2 (y t).2
  rel_pure a s t h := ⟨rfl, h⟩
  rel_bind := by
    intro β γ x y f g hx hf s t h
    obtain ⟨same, related⟩ := hx s t h
    rw [bind_apply, bind_apply]
    rcases ran : x s with ⟨answer, s'⟩
    rcases ran' : y t with ⟨answer', t'⟩
    rw [ran, ran'] at same related
    obtain rfl : answer = answer' := same
    cases answer with
    | ok a => exact hf a s' t' related
    | error fault => exact ⟨rfl, related⟩

variable {R : σ → ρ → Prop}

theorem rel_throw (fault : Fault) : (simulation R).Rel (throw fault : ScanT Id σ β) (throw fault) := by
  intro s t related
  exact ⟨rfl, related⟩

theorem rel_emit (event : Event) : (simulation R).Rel (MonadTrace.emit event) (MonadTrace.emit event) := by
  intro s t related
  exact ⟨rfl, related⟩

def beside (x : ScanT Id σ β) : ScanT Id (σ × γ) β := fun s => ((x s.1).1, (x s.1).2, s.2)

end ScanT

/-! ## What can be done with a buffer -/

structure Reach (m : Type → Type) (σ α : Type) where
  cursor : Lookahead m α
  /-- The buffer as it is. -/
  buffer : m (Buffer σ α)
  withLimits : ScanLimits → m Unit

def Buffer.reach [Source Id σ α] : Reach (ScanT Id (Buffer σ α)) σ α :=
  ⟨Buffer.lookahead, get, fun limits => modify (·.withLimits limits)⟩

inductive Reply (α : Type) where
  | answer (a : Answer α)
  | count (n : Nat)
  | done
  deriving DecidableEq, Repr

inductive Request (σ α κ τ : Type) where
  | perform (op : Op α κ τ)
  /-- The item that waits longest, if any waits: to look ahead at distance 0. -/
  | peekWaiting
  | scanLimit
  | withLimits (limits : ScanLimits)
  /-- Anything that can be seen of the buffer as it is. -/
  | look (see : Buffer σ α → Reply α)

namespace Request

def buffered : Request σ α κ τ := look fun b => .count b.buffered

def isAtEnd {reader : Type} {e : Encoding} [ReadsFrom σ reader] [Reader reader e] : Request σ α κ τ :=
  look fun b => .answer (.flag b.isAtEnd)

variable [Kinded α κ] [DecidableEq κ]

/-- What comes of asking, while the predicates keep a state and what they are asked about is
    written down. -/
def run (r : Reach m σ α) : Request σ α κ τ → StateT (τ × List α) m (Reply α)
  | perform op => .answer <$> op.run r.cursor
  | peekWaiting => liftM ((.answer <| .item ·) <$> r.cursor.peekAt 0)
  | scanLimit => liftM (.count <$> r.cursor.scanLimit)
  | withLimits limits => liftM ((fun _ => .done) <$> r.withLimits limits)
  | look see => liftM (see <$> r.buffer)

end Request

structure Reach.Matches (S : Simulation m n) (r : Reach m σ α) (r' : Reach n σ α) : Prop where
  cursor : S.Matches r.cursor r'.cursor
  waiting : S.Rel (r.cursor.peekAt 0) (r'.cursor.peekAt 0)
  buffer : S.Rel r.buffer r'.buffer
  withLimits : ∀ limits, S.Rel (r.withLimits limits) (r'.withLimits limits)

/-- Buffers with which the same can be done reply alike to every request. -/
theorem Request.run_matches [LawfulMonad m] [LawfulMonad n] [Kinded α κ] [DecidableEq κ] {S : Simulation m n}
    {r : Reach m σ α} {r' : Reach n σ α} (h : r.Matches S r') (request : Request σ α κ τ) :
    (S.stateT (τ × List α)).Rel (request.run r) (request.run r') := by
  have lifted {x : m (Reply α)} {y : n (Reply α)} (related : S.Rel x y) :
      (S.stateT (τ × List α)).Rel (liftM x) (liftM y) := by
    intro t
    exact S.rel_bind related fun a => S.rel_pure (a, t)
  cases request with
  | perform op => exact Simulation.rel_map _ _ (Op.run_matches h.cursor op)
  | peekWaiting => exact lifted (S.rel_map _ h.waiting)
  | scanLimit => exact lifted (S.rel_map _ h.cursor.scanLimit)
  | withLimits limits => exact lifted (S.rel_map _ (h.withLimits limits))
  | look see => exact lifted (S.rel_map _ h.buffer)

theorem Simulation.rel_mapM [LawfulMonad m] [LawfulMonad n] (S : Simulation m n) {f : ρ → m β} {g : ρ → n β}
    (h : ∀ a, S.Rel (f a) (g a)) (l : List ρ) : S.Rel (l.mapM f) (l.mapM g) := by
  induction l with
  | nil => exact S.rel_pure []
  | cons a l ih =>
    rw [List.mapM_cons, List.mapM_cons]
    exact S.rel_bind (h a) fun b => S.rel_bind ih fun bs => S.rel_pure (b :: bs)

/-! ## Writing down what is consumed -/

def itemOf : Except Fault (Option α) → Option α
  | .ok item => item
  | .error _ => none

/-- The lookahead with a list behind which it writes every item that it consumes. -/
def Lookahead.recorded (l : Lookahead (ScanT Id ρ) α) : Lookahead (ScanT Id (ρ × List α)) α where
  next s := ((l.next s.1).1, (l.next s.1).2, s.2 ++ (itemOf (l.next s.1).1).toList)
  peekAt distance := ScanT.beside (l.peekAt distance)
  scanLimit := ScanT.beside l.scanLimit

namespace Reach

def recorded (r : Reach (ScanT Id ρ) σ α) : Reach (ScanT Id (ρ × List α)) σ α :=
  ⟨r.cursor.recorded, ScanT.beside r.buffer, fun limits => ScanT.beside (r.withLimits limits)⟩

/-- What does the same still does the same, and consumes the same, if it is written down. -/
theorem Matches.recorded {R : σ → ρ → Prop} {r : Reach (ScanT Id σ) σ' α} {r' : Reach (ScanT Id ρ) σ' α}
    (h : r.Matches (ScanT.simulation R) r') :
    r.recorded.Matches (ScanT.simulation fun (s, taken) (t, taken') => R s t ∧ taken = taken') r'.recorded := by
  have kept {β : Type} {x : ScanT Id σ β} {y : ScanT Id ρ β} (related : (ScanT.simulation R).Rel x y) :
      (ScanT.simulation fun (s, taken) (t, taken') => R s t ∧ taken = taken').Rel
        (ScanT.beside x : ScanT Id (σ × List α) β) (ScanT.beside y) := by
    rintro ⟨s, taken⟩ ⟨t, _⟩ ⟨hs, rfl⟩
    obtain ⟨same, hs'⟩ := related s t hs
    exact ⟨same, hs', rfl⟩
  refine ⟨⟨?_, fun distance ahead => kept (h.cursor.peekAt distance ahead), kept h.cursor.scanLimit⟩, kept h.waiting,
    kept h.buffer, fun limits => kept (h.withLimits limits)⟩
  rintro ⟨s, taken⟩ ⟨t, _⟩ ⟨hs, rfl⟩
  obtain ⟨same, hs'⟩ := h.cursor.next s t hs
  refine ⟨same, hs', ?_⟩
  show taken ++ (itemOf (r.cursor.next s).1).toList = taken ++ (itemOf (r'.cursor.next t).1).toList
  rw [same]

/-- With the list forgotten, the recorded reach is the reach itself. What holds of the buffer
    and the list together, and goes on to hold whatever primitive is used, comes on top. -/
theorem recorded_matches {P : ρ × List α → Prop} {r : Reach (ScanT Id ρ) σ α}
    (next : ∀ s taken, P (s, taken) → P ((r.cursor.next s).2, taken ++ (itemOf (r.cursor.next s).1).toList))
    (peekAt : ∀ distance s taken, P (s, taken) → P ((r.cursor.peekAt distance s).2, taken))
    (scanLimit : ∀ s taken, P (s, taken) → P ((r.cursor.scanLimit s).2, taken))
    (buffer : ∀ s taken, P (s, taken) → P ((r.buffer s).2, taken))
    (withLimits : ∀ limits s taken, P (s, taken) → P ((r.withLimits limits s).2, taken)) :
    r.recorded.Matches (ScanT.simulation fun s t => s.1 = t ∧ P s) r := by
  refine ⟨⟨?_, fun distance _ => ?_, ?_⟩, ?_, ?_, fun limits => ?_⟩
  all_goals rintro ⟨s, taken⟩ _ ⟨rfl, hs⟩
  · exact ⟨rfl, rfl, next s taken hs⟩
  · exact ⟨rfl, rfl, peekAt distance s taken hs⟩
  · exact ⟨rfl, rfl, scanLimit s taken hs⟩
  · exact ⟨rfl, rfl, peekAt 0 s taken hs⟩
  · exact ⟨rfl, rfl, buffer s taken hs⟩
  · exact ⟨rfl, rfl, withLimits limits s taken hs⟩

end Reach

end TokenScan
