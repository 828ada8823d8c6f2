/-
  TokenScan.Proofs.Tracing — which calls operations make, and what holds behind each of them.

  Every operation of a lookahead is made of calls to `next` and `peekAt`. A traced lookahead writes them
  down, each with the state that it leaves (`Lookahead.traced`). So a property can be followed through a run
  call by call, and not only from one operation to the next (`Trace.Kept`).

  How far an operation looks is known beforehand (`Op.sees`), and a view of so many items is enough for it
  (`Op.run_within`). So whatever calls keep that look no further, a run keeps (`Buffer.Invariant.run`). One such
  property is that there wait no more items than that (`Buffer.run_buffered_le`).
-/

import TokenScan.Proofs.Accounting

namespace TokenScan

variable {m : Type → Type} {σ τ ρ α κ β γ : Type}

/-! ## Scans that do not break off -/

/-- Scans that come to the same answer from related states, and leave related states; neither breaks off. -/
def ScanT.succeeding (R : σ → ρ → Prop) : Simulation (ScanT Id σ) (ScanT Id ρ) where
  Rel x y := ∀ s t, R s t → ∃ a s' t', x s = (.ok a, s') ∧ y t = (.ok a, t') ∧ R s' t'
  rel_pure a s t h := ⟨a, s, t, rfl, rfl, h⟩
  rel_bind := by
    intro β γ x y f g hx hf s t h
    obtain ⟨a, s', t', ran, ran', h⟩ := hx s t h
    obtain ⟨b, s'', t'', finished, finished', h⟩ := hf a s' t' h
    exact ⟨b, s'', t'', (bind_ok ran).trans finished, (bind_ok ran').trans finished', h⟩

/-! ## Writing down calls -/

inductive Call where
  | next (brought : Bool)
  | peekAt (distance : Nat)
  deriving DecidableEq, Repr

/-- The calls so far, each with the state that it left, the latest first. -/
abbrev Trace (ρ : Type) := List (Call × ρ)

namespace Trace

def calls (log : Trace ρ) : List Call := log.map Prod.fst

def Throughout (P : List Call → ρ → Prop) : Trace ρ → Prop
  | [] => True
  | (call, s) :: earlier => P (call :: calls earlier) s ∧ Throughout P earlier

/-- This holds now, and it held behind every call. -/
def Kept (P : List Call → ρ → Prop) (s : ρ × Trace ρ) : Prop := P s.2.calls s.1 ∧ s.2.Throughout P

theorem Kept.start {P : List Call → ρ → Prop} {s : ρ} (h : P [] s) : Kept P (s, []) := ⟨h, trivial⟩

theorem Throughout.imp {P Q : List Call → ρ → Prop} {log : Trace ρ} (h : log.Throughout P)
    (weaker : ∀ calls s, P calls s → Q calls s) : log.Throughout Q := by
  induction log with
  | nil => trivial
  | cons entry earlier ih => exact ⟨weaker _ _ h.1, ih h.2⟩

theorem Kept.imp {P Q : List Call → ρ → Prop} {s : ρ × Trace ρ} (h : Kept P s)
    (weaker : ∀ calls s, P calls s → Q calls s) : Kept Q s := ⟨weaker _ _ h.1, h.2.imp weaker⟩

end Trace

def Lookahead.traced (l : Lookahead (ScanT Id ρ) α) : Lookahead (ScanT Id (ρ × Trace ρ)) α where
  next s := ((l.next s.1).1, (l.next s.1).2, (.next (itemOf (l.next s.1).1).isSome, (l.next s.1).2) :: s.2)
  peekAt distance s :=
    ((l.peekAt distance s.1).1, (l.peekAt distance s.1).2, (.peekAt distance, (l.peekAt distance s.1).2) :: s.2)
  scanLimit := ScanT.beside l.scanLimit

def Reach.traced (r : Reach (ScanT Id ρ) σ α) : Reach (ScanT Id (ρ × Trace ρ)) σ α :=
  ⟨r.cursor.traced, ScanT.beside r.buffer, fun limits => ScanT.beside (r.withLimits limits)⟩

/-! ## How far operations look -/

/-- The lookahead with a view of the next `most` items and no others. -/
def Lookahead.within (l : Lookahead m α) (most : Nat) : Lookahead m α :=
  { l with peekAt := fun distance => l.peekAt (min distance most) }

namespace Lookahead

variable {l : Lookahead m α} {p : α → m Bool} {most : Nat}

theorem peek_within (h1 : 1 ≤ most) : (l.within most).peek = l.peek := congrArg l.peekAt (Nat.min_eq_left h1)

variable [Monad m]

theorem nextIf_within (h1 : 1 ≤ most) : (l.within most).nextIf p = l.nextIf p := by
  rw [nextIf, nextIf, peek_within h1]
  rfl

theorem nextUntilFrom_within (h1 : 1 ≤ most) (last : Option α) (limit : Nat) :
    (l.within most).nextUntilFrom p last limit = l.nextUntilFrom p last limit := by
  induction limit generalizing last with
  | zero => rfl
  | succ limit ih =>
    unfold nextUntilFrom
    simp only [peek_within h1, ih]
    rfl

theorem nextUntil_within (h1 : 1 ≤ most) : (l.within most).nextUntil p = l.nextUntil p := by
  have same (limit : Nat) : (l.within most).nextUntilWithin p limit = l.nextUntilWithin p limit :=
    nextUntilFrom_within h1 none limit
  simp only [nextUntil, same]
  rfl

theorem peekUntilFrom_within (distance limit : Nat) (near : distance + limit ≤ most + 1) :
    (l.within most).peekUntilFrom p distance limit = l.peekUntilFrom p distance limit := by
  induction limit generalizing distance with
  | zero => rfl
  | succ limit ih =>
    have inside : (l.within most).peekAt distance = l.peekAt distance := congrArg l.peekAt (Nat.min_eq_left (by omega))
    unfold peekUntilFrom
    rw [inside, ih (distance + 1) (by omega)]

end Lookahead

namespace Op

variable [Kinded α κ] [DecidableEq κ]

/-- How far the operation is told to look, if open-ended scans look at `limit` items. Those that
    consume what they look at are told nothing. -/
def sees (limit : Nat) : Op α κ τ → Nat
  | peekAt distance _ => distance
  | peekUntil _ => limit
  | peekUntilWithin _ limit => limit
  | _ => 0

/-- The operation consumes what it looks at, until something is found or a limit is reached. -/
def Drains : Op α κ τ → Prop
  | nextUntil _ | nextUntilWithin _ _ | skipUntil _ | skipUntilWithin _ _ => True
  | nextUntilIn _ | nextUntilNotIn _ | skipUntilIn _ | skipUntilNotIn _ => True
  | _ => False

omit [Kinded α κ] [DecidableEq κ] in
theorem sees_of_drains {op : Op α κ τ} (h : op.Drains) (limit : Nat) : op.sees limit = 0 := by
  cases op <;> first | rfl | cases h

variable {l : Lookahead (ScanT Id ρ) α} {s : ρ} {limit most : Nat} {t : τ × List α}

theorem map_congr_at (f : β → γ) {x y : StateT (τ × List α) (ScanT Id ρ) β} (same : x t s = y t s) :
    (f <$> x) t s = (f <$> y) t s := by
  show (x t >>= fun a => pure (f a.1, a.2)) s = (y t >>= fun a => pure (f a.1, a.2)) s
  rw [ScanT.bind_apply, ScanT.bind_apply, same]

theorem run_peekUntil (reads : l.scanLimit s = (.ok limit, s)) (p : α → StateM τ Bool) :
    (peekUntil p : Op α κ τ).run l t s = (peekUntilWithin p limit : Op α κ τ).run l t s := by
  have lifted : (l.lift : Lookahead (StateT (τ × List α) (ScanT Id ρ)) α).scanLimit t s = (.ok (limit, t), s) :=
    ScanT.bind_ok reads
  exact map_congr_at Answer.flag (Buffer.bind_ok lifted)

/-- A view of the next item, and as far as it is told to look, is enough for an operation. -/
theorem run_within (op : Op α κ τ) (reads : l.scanLimit s = (.ok limit, s)) (h1 : 1 ≤ most)
    (near : op.sees limit ≤ most) : op.run (l.within most) t s = op.run l t s := by
  have item {x y : StateT (τ × List α) (ScanT Id ρ) (Option α)} (same : x = y) :
      (Answer.item <$> x) t s = (Answer.item <$> y) t s := map_congr_at _ (congrFun (congrFun same t) s)
  have flag {x y : StateT (τ × List α) (ScanT Id ρ) Bool} (same : x = y) :
      (Answer.flag <$> x : StateT (τ × List α) (ScanT Id ρ) (Answer α)) t s = (Answer.flag <$> y) t s :=
    map_congr_at _ (congrFun (congrFun same t) s)
  have skip {x y : StateT (τ × List α) (ScanT Id ρ) (Option α)} (same : x = y) :
      (Answer.flag <$> Option.isSome <$> x : StateT (τ × List α) (ScanT Id ρ) (Answer α)) t s =
        (Answer.flag <$> Option.isSome <$> y) t s :=
    flag (congrArg (Option.isSome <$> ·) same)
  have found (p : α → StateM τ Bool) (n : Nat) (near : n ≤ most) :
      (peekUntilWithin p n : Op α κ τ).run (l.within most) t s = (peekUntilWithin p n : Op α κ τ).run l t s :=
    flag (Lookahead.peekUntilFrom_within (l := l.lift) 1 n (by omega))
  -- `peekUntil` alone looks as far as the state says; what the others call does not depend on it
  cases op with
  | next => rfl
  | peek => exact item (Lookahead.peek_within (l := l.lift) h1)
  | peekAt distance _ => exact item (congrArg (Lookahead.lift l).peekAt (Nat.min_eq_left near))
  | peekUntil p =>
    have reads' : (l.within most).scanLimit s = (.ok limit, s) := reads
    rw [run_peekUntil reads, run_peekUntil reads']
    exact found p limit near
  | peekUntilWithin p limit => exact found p limit near
  | nextIf p => exact item (Lookahead.nextIf_within (l := l.lift) h1)
  | nextUntil p => exact item (Lookahead.nextUntil_within (l := l.lift) h1)
  | nextUntilWithin p limit => exact item (Lookahead.nextUntilFrom_within (l := l.lift) h1 none limit)
  | skipIf p => exact skip (Lookahead.nextIf_within (l := l.lift) h1)
  | skipUntil p => exact skip (Lookahead.nextUntil_within (l := l.lift) h1)
  | skipUntilWithin p limit => exact skip (Lookahead.nextUntilFrom_within (l := l.lift) h1 none limit)
  | nextIfKind kind => exact item (Lookahead.nextIf_within (l := l.lift) h1)
  | nextUntilIn kinds => exact item (Lookahead.nextUntil_within (l := l.lift) h1)
  | nextUntilNotIn kinds => exact item (Lookahead.nextUntil_within (l := l.lift) h1)
  | skipUntilIn kinds => exact skip (Lookahead.nextUntil_within (l := l.lift) h1)
  | skipUntilNotIn kinds => exact skip (Lookahead.nextUntil_within (l := l.lift) h1)

end Op

namespace Request

def sees (limit : Nat) : Request σ α κ τ → Nat
  | perform op => op.sees limit
  | _ => 0

def limitAfter (limit : Nat) : Request σ α κ τ → Nat
  | withLimits limits => limits.items
  | _ => limit

/-- The farthest that one of the requests is told to look, if the limit of open-ended scans is this one before
    the first of them. -/
def farthest (limit : Nat) : List (Request σ α κ τ) → Nat
  | [] => 0
  | request :: requests => max (request.sees limit) (farthest (request.limitAfter limit) requests)

end Request

/-! ## What every call keeps -/

namespace Buffer

variable [Source Id σ α]

/-- Every call to the buffer that looks no further than `most` keeps this, and none breaks off. -/
structure Invariant (P : List Call → Buffer σ α → Prop) (most : Nat) : Prop where
  next : ∀ calls b, P calls b → ∃ a b', (next : ScanT Id (Buffer σ α) (Option α)) b = (.ok a, b') ∧
    P (.next a.isSome :: calls) b' ∧ b'.limits = b.limits
  peekAt : ∀ distance ≤ most, ∀ calls b, P calls b → ∃ a b',
    (peekAt distance : ScanT Id (Buffer σ α) (Option α)) b = (.ok a, b') ∧
      P (.peekAt distance :: calls) b' ∧ b'.limits = b.limits
  withLimits : ∀ limits calls b, P calls b → P calls (b.withLimits limits)

namespace Invariant

variable {P : List Call → Buffer σ α → Prop} {most : Nat} {b : Buffer σ α} {log : Trace (Buffer σ α)}

/-- With a view of so many items, the traced buffer does what the buffer itself does, and keeps the property. -/
theorem traced_matches (h : Invariant P most) (limits : ScanLimits) :
    (ScanT.succeeding fun s b => s.1 = b ∧ Trace.Kept P s ∧ b.limits = limits).Matches (direct.traced.within most)
      (direct.within most) where
  next := by
    rintro ⟨b, log⟩ _ ⟨rfl, ⟨now, before⟩, rfl⟩
    obtain ⟨a, b', ran, kept, same⟩ := h.next _ b now
    have ran : direct.next b = (.ok a, b') := ran
    refine ⟨a, (b', (.next a.isSome, b') :: log), b', ?_, ran, rfl, ⟨kept, kept, before⟩, same⟩
    simp only [Lookahead.within, Lookahead.traced, ran]
    rfl
  peekAt distance _ := by
    rintro ⟨b, log⟩ _ ⟨rfl, ⟨now, before⟩, rfl⟩
    obtain ⟨a, b', ran, kept, same⟩ := h.peekAt (min distance most) (Nat.min_le_right _ _) _ b now
    have ran : direct.peekAt (min distance most) b = (.ok a, b') := ran
    refine ⟨a, (b', (.peekAt (min distance most), b') :: log), b', ?_, ran, rfl, ⟨kept, kept, before⟩, same⟩
    simp only [Lookahead.within, Lookahead.traced, ran]
  scanLimit := by
    rintro ⟨b, log⟩ _ ⟨rfl, kept, rfl⟩
    exact ⟨b.limits.items, (b, log), b, rfl, rfl, rfl, kept, rfl⟩

variable [Kinded α κ] [DecidableEq κ] (h : Invariant P most) (h1 : 1 ≤ most) (kept : Trace.Kept P (b, log))
include h h1 kept

theorem perform (op : Op α κ τ) (near : op.sees b.limits.items ≤ most) (t : τ × List α) :
    ∃ a b' log', op.run direct.traced t (b, log) = (.ok a, b', log') ∧ op.run direct t b = (.ok a, b') ∧
      Trace.Kept P (b', log') ∧ b'.limits = b.limits := by
  obtain ⟨a, ⟨b', log'⟩, _, ran, ran', rfl, kept, limits⟩ :=
    Op.run_matches (h.traced_matches b.limits) op t (b, log) b ⟨rfl, kept, rfl⟩
  rw [Op.run_within op rfl h1 near] at ran ran'
  exact ⟨a, b', log', ran, ran', kept, limits⟩

theorem request (request : Request σ α κ τ) (near : request.sees b.limits.items ≤ most) (t : τ × List α) :
    ∃ a b' log', request.run reach.traced t (b, log) = (.ok a, b', log') ∧ request.run reach t b = (.ok a, b') ∧
      Trace.Kept P (b', log') ∧ b'.limits.items = request.limitAfter b.limits.items := by
  cases request with
  | perform op =>
    obtain ⟨⟨a, t'⟩, b', log', ran, ran', kept, limits⟩ := h.perform h1 kept op near t
    exact ⟨(.answer a, t'), b', log', ScanT.bind_ok ran, ScanT.bind_ok ran', kept, congrArg ScanLimits.items limits⟩
  | peekWaiting =>
    obtain ⟨a, b', ran, now, limits⟩ := h.peekAt 0 (Nat.zero_le most) _ b kept.1
    have traced : reach.traced.cursor.peekAt 0 (b, log) = (.ok a, b', (.peekAt 0, b') :: log) := by
      have ran : reach.cursor.peekAt 0 b = (.ok a, b') := ran
      simp only [Reach.traced, Lookahead.traced, ran]
    have shown {ρ : Type} {x : ScanT Id ρ (Option α)} {s s' : ρ} (ran : x s = (.ok a, s')) :
        (liftM ((fun a => Reply.answer (.item a)) <$> x) : StateT (τ × List α) (ScanT Id ρ) (Reply α)) t s =
          (.ok (.answer (.item a), t), s') :=
      ScanT.bind_ok (f := fun reply => pure (reply, t)) (ScanT.map_ok ran)
    exact ⟨(.answer (.item a), t), b', (.peekAt 0, b') :: log, shown traced, shown ran, ⟨now, now, kept.2⟩,
      congrArg ScanLimits.items limits⟩
  | scanLimit => exact ⟨(.count b.limits.items, t), b, log, rfl, rfl, kept, rfl⟩
  | withLimits limits =>
    exact ⟨(.done, t), b.withLimits limits, log, rfl, rfl, ⟨h.withLimits limits _ b kept.1, kept.2⟩, rfl⟩
  | look see => exact ⟨(see b, t), b, log, rfl, rfl, kept, rfl⟩

/-- A run of requests that look no further keeps what every call keeps. -/
theorem run (requests : List (Request σ α κ τ)) (near : Request.farthest b.limits.items requests ≤ most)
    (t : τ × List α) :
    ∃ a b' log', requests.mapM (Request.run reach.traced) t (b, log) = (.ok a, b', log') ∧
      requests.mapM (Request.run reach) t b = (.ok a, b') ∧ Trace.Kept P (b', log') := by
  induction requests generalizing b log t with
  | nil => exact ⟨([], t), b, log, rfl, rfl, kept⟩
  | cons request requests ih =>
    obtain ⟨here, behind⟩ := Nat.max_le.mp near
    obtain ⟨⟨reply, t'⟩, b', log', ran, ran', kept, limit⟩ := h.request h1 kept request here t
    rw [← limit] at behind
    obtain ⟨⟨replies, t''⟩, b'', log'', rest, rest', kept⟩ := ih kept behind t'
    refine ⟨(reply :: replies, t''), b'', log'', ?_, ?_, kept⟩
    · rw [List.mapM_cons, bind_ok ran, bind_ok rest]
      rfl
    · rw [List.mapM_cons, bind_ok ran', bind_ok rest']
      rfl

end Invariant

/-! ## How many items wait -/

omit [Source Id σ α] in
theorem buffered_of_pop? {b : Buffer σ α} {a : α} {pending : Queue α} (h : b.pending.pop? = some (a, pending)) :
    b.buffered = pending.size + 1 := by
  have := congrArg List.length (Queue.toList_of_pop? h)
  rwa [Queue.length_toList, List.length_cons, Queue.length_toList] at this

theorem next_buffered_le (b : Buffer σ α) :
    ((next : ScanT Id (Buffer σ α) (Option α)) b).2.buffered ≤ b.buffered := by
  cases popped : b.pending.pop? with
  | some front =>
    obtain ⟨a, pending⟩ := front
    simp only [next, popped]
    rw [buffered_of_pop? popped]
    exact Nat.le_succ pending.size
  | none =>
    simp only [next, popped]
    exact Nat.le_refl _

omit [Source Id σ α] in
theorem buffered_push (source : σ) (pending : Queue α) (a : α) (limits : ScanLimits) :
    (⟨source, pending.push a, limits⟩ : Buffer σ α).buffered = pending.size + 1 := by
  show (pending.push a).size = _
  rw [← Queue.length_toList, Queue.toList_push, List.length_append, Queue.length_toList]
  rfl

theorem refill_buffered_le (b : Buffer σ α) (pulled missing : Nat) :
    ((refill pulled missing : ScanT Id (Buffer σ α) Nat) b).2.buffered ≤ b.buffered + missing := by
  induction missing generalizing b pulled with
  | zero => exact Nat.le_refl _
  | succ missing ih =>
    unfold refill
    rw [ScanT.bind_apply, pull_apply]
    rcases Source.call b.source with ⟨_ | found, source⟩
    · exact Nat.le_add_right _ _
    · cases found with
      | none => exact Nat.le_add_right _ _
      | some a =>
        simp only
        rw [ScanT.bind_ok (ScanT.modify_apply _ _)]
        refine Nat.le_trans (ih _ _) ?_
        rw [buffered_push, Nat.add_right_comm]
        exact Nat.le_refl _

theorem peekAt_buffered_le (distance : Nat) (b : Buffer σ α) :
    ((peekAt distance : ScanT Id (Buffer σ α) (Option α)) b).2.buffered ≤ max b.buffered distance := by
  cases distance with
  | zero =>
    rw [peekAt_zero_apply]
    exact Nat.le_max_left _ _
  | succ distance =>
    have refilled := refill_buffered_le b 0 (distance + 1 - b.buffered)
    rw [peekAt_apply]
    split
    · next ran =>
      rw [ran] at refilled
      exact Nat.le_trans refilled (by omega)
    · next ran =>
      rw [ran] at refilled
      exact Nat.le_trans refilled (by omega)

/-- If there wait no more items than this, and no look goes further, then it stays so. -/
theorem invariant_buffered_le {most bound : Nat} (far : most ≤ bound) :
    Invariant (fun _ (b : Buffer σ α) => (∃ items, b.Holds items) ∧ b.buffered ≤ bound) most where
  next := by
    rintro calls b ⟨⟨items, holds⟩, few⟩
    obtain ⟨b', ran, holds, limits⟩ := next_of_holds holds
    have := next_buffered_le b
    rw [ran] at this
    exact ⟨_, b', ran, ⟨⟨_, holds⟩, Nat.le_trans this few⟩, limits⟩
  peekAt := by
    rintro distance near calls b ⟨⟨items, holds⟩, few⟩
    have := peekAt_buffered_le distance b
    cases distance with
    | zero => exact ⟨_, b, peekAt_zero_apply b, ⟨⟨_, holds⟩, few⟩, rfl⟩
    | succ distance =>
      obtain ⟨b', ran, holds, limits⟩ := peekAt_of_holds holds distance
      rw [ran] at this
      exact ⟨_, b', ran, ⟨⟨_, holds⟩, Nat.le_trans this (Nat.max_le.mpr ⟨few, Nat.le_trans near far⟩)⟩, limits⟩
  withLimits limits calls b h := h

variable {b : Buffer σ α} {items : Items α} [Kinded α κ] [DecidableEq κ]

/-- Behind every call of a run there wait no more items than at its start, or than the farthest look goes,
    or one. -/
theorem run_buffered_le (h : b.Holds items) (requests : List (Request σ α κ τ)) (t : τ × List α) :
    ∃ a b' log, requests.mapM (Request.run reach.traced) t (b, []) = (.ok a, b', log) ∧
      requests.mapM (Request.run reach) t b = (.ok a, b') ∧
      Trace.Kept (fun _ now => now.buffered ≤ max b.buffered (max 1 (Request.farthest b.limits.items requests)))
        (b', log) := by
  have far := Nat.le_max_right b.buffered (max 1 (Request.farthest b.limits.items requests))
  obtain ⟨a, b', log, ran, ran', kept⟩ :=
    (invariant_buffered_le far).run (Nat.le_max_left _ _) (.start ⟨⟨items, h⟩, Nat.le_max_left _ _⟩) requests
      (Nat.le_max_right _ _) t
  exact ⟨a, b', log, ran, ran', kept.imp fun _ _ now => now.2⟩

/-- An operation that consumes what it looks at leaves no more items waiting than there were, or one, and
    there are no more behind any of its calls. -/
theorem drains_buffered_le (h : b.Holds items) {op : Op α κ τ} (drains : op.Drains) (t : τ × List α) :
    ∃ a b' log, op.run direct.traced t (b, []) = (.ok a, b', log) ∧ op.run direct t b = (.ok a, b') ∧
      Trace.Kept (fun _ now => now.buffered ≤ max b.buffered 1) (b', log) := by
  have near : op.sees b.limits.items ≤ 1 := by simp [Op.sees_of_drains drains]
  have far := Nat.le_max_right b.buffered 1
  obtain ⟨a, b', log, ran, ran', kept, -⟩ :=
    (invariant_buffered_le far).perform (Nat.le_refl 1) (.start ⟨⟨items, h⟩, Nat.le_max_left _ _⟩) op near t
  exact ⟨a, b', log, ran, ran', kept.imp fun _ _ now => now.2⟩

end Buffer

end TokenScan
