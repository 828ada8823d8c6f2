/-
  TokenScan.Proofs.Items — sources and buffers as the plain sequence of the items to come.

  A source `Yields` a sequence if call after call answers with the next item of it, and with
  `none` for ever once it is at an end; the sequence may be endless. A buffer over such a
  source `Holds` what waits in its queue followed by what its source yields.

  A `Cursor` is that sequence and nothing else: its operations do to the sequence what they
  are there for, and nothing is pulled or waits. `Buffer.simulation` relates a buffer to the
  cursor over the items that it holds, and `Buffer.matches_cursor` says that their operations
  agree, however many items have been pulled so far.
-/

import Mathlib.Data.Seq.Basic
import TokenScan.Buffer
import TokenScan.Proofs.Simulation

namespace TokenScan

/-- A finite or endless sequence of items. -/
abbrev Items (α : Type) := Stream'.Seq α

open Stream'.Seq (ofList)

variable {σ α β γ : Type}

/-! ## Sequences -/

namespace Items

theorem get?_append (l : List α) (s : Items α) (i : Nat) :
    ((ofList l).append s).get? i = if i < l.length then l[i]? else s.get? (i - l.length) := by
  induction l generalizing i with
  | nil => simp
  | cons a l ih =>
    cases i with
    | zero => simp
    | succ i => simp [ih]

theorem take_append_length (l : List α) (s : Items α) : ((ofList l).append s).take l.length = l := by
  induction l with
  | nil => simp
  | cons a l ih => simp [ih]

theorem take_append_drop (s : Items α) (n : Nat) : (ofList (s.take n)).append (s.drop n) = s := by
  induction n generalizing s with
  | zero => simp
  | succ n ih =>
    cases s using Stream'.Seq.recOn with
    | nil => simp
    | cons a s => simp [ih]

theorem head_ofList (l : List α) : (ofList l).head = l.head? := by
  cases l <;> simp

theorem tail_ofList (l : List α) : (ofList l).tail = ofList l.tail := by
  cases l <;> simp

theorem take_ofList (l : List α) (n : Nat) : (ofList l).take n = l.take n := by
  apply List.ext_getElem?
  intro i
  rw [Stream'.Seq.getElem?_take, List.getElem?_take]
  rfl

theorem drop_ofList (l : List α) (n : Nat) : (ofList l).drop n = ofList (l.drop n) := by
  ext1 i
  simp

end Items

/-! ## Scans over `Id` -/

namespace ScanT

variable {x : ScanT Id σ β} {f : β → ScanT Id σ γ} {s s' : σ}

theorem bind_ok {a : β} (h : x s = (.ok a, s')) : (x >>= f) s = f a s' := by
  simp only [bind, ExceptT.bind, ExceptT.mk, StateT.bind, h, ExceptT.bindCont]

theorem map_ok {a : β} {g : β → γ} (h : x s = (.ok a, s')) : (g <$> x) s = (.ok (g a), s') := by
  rw [map_eq_pure_bind, bind_ok h]
  rfl

theorem pure_apply (a : β) (s : σ) : (pure a : ScanT Id σ β) s = (.ok a, s) := rfl

theorem get_apply (s : σ) : (get : ScanT Id σ σ) s = (.ok s, s) := rfl

theorem modify_apply (g : σ → σ) (s : σ) : (modify g : ScanT Id σ PUnit) s = (.ok ⟨⟩, g s) := rfl

theorem emit_apply (e : Event) (s : σ) : (MonadTrace.emit e : ScanT Id σ Unit) s = (.ok (), s) := rfl

end ScanT

/-! ## What a source yields -/

namespace Source

variable [Source Id σ α]

def call (s : σ) : Except Fault (Option α) × σ := (next : ScanT Id σ (Option α)) s

def after (s : σ) : Nat → σ
  | 0 => s
  | n + 1 => after (call s).2 n

/-- Call after call answers with the next item, and with `none` for ever behind the last. -/
def Yields (s : σ) (items : Items α) : Prop := ∀ n, (call (after s n)).1 = .ok (items.get? n)

variable {s s' : σ} {items : Items α}

theorem Yields.call (h : Yields s items) : call s = (.ok items.head, (call s).2) :=
  Prod.ext (h 0) rfl

theorem Yields.tail (h : Yields s items) : Yields (Source.call s).2 items.tail := by
  intro n
  rw [Stream'.Seq.get?_tail]
  exact h (n + 1)

/-- A property of states and sequences that every call keeps, while it answers with the head,
    makes the states yield the sequences. -/
theorem yields_of_invariant {P : σ → Items α → Prop}
    (keeps : ∀ s items, P s items → ∃ s', call s = (.ok items.head, s') ∧ P s' items.tail)
    (h : P s items) : Yields s items := by
  intro n
  induction n generalizing s items with
  | zero =>
    obtain ⟨s', called, -⟩ := keeps s items h
    exact congrArg Prod.fst called
  | succ n ih =>
    obtain ⟨s', called, kept⟩ := keeps s items h
    rw [after, called, ← Stream'.Seq.get?_tail]
    exact ih kept

theorem Yields.unique {others : Items α} (h : Yields s items) (h' : Yields s others) : items = others := by
  ext1 n
  exact Except.ok.inj ((h n).symm.trans (h' n))

end Source

/-! ## What a buffer holds -/

namespace Buffer

open Source (Yields)

variable [Source Id σ α]

/-- The items to come are these: what waits in the queue, and then what the source yields. -/
def Holds (b : Buffer σ α) (items : Items α) : Prop :=
  ∃ later, Yields b.source later ∧ items = (ofList b.pending.toList).append later

variable {b : Buffer σ α} {items : Items α}

theorem holds_ofSource {s : σ} (h : Yields s items) : (ofSource s).Holds items := by
  refine ⟨items, h, ?_⟩
  simp [ofSource]

theorem Holds.withLimits (h : b.Holds items) (limits : ScanLimits) : (b.withLimits limits).Holds items := h

theorem next_of_holds (h : b.Holds items) :
    ∃ b', (next : ScanT Id (Buffer σ α) (Option α)) b = (.ok items.head, b') ∧ b'.Holds items.tail ∧
      b'.limits = b.limits := by
  obtain ⟨later, yields, rfl⟩ := h
  cases popped : b.pending.pop? with
  | some front =>
    obtain ⟨a, pending⟩ := front
    refine ⟨{ b with pending }, ?_, ⟨later, yields, ?_⟩, rfl⟩
    · simp [next, popped, Queue.toList_of_pop? popped]
      rfl
    · simp [Queue.toList_of_pop? popped]
  | none =>
    have empty := (Queue.pop?_eq_none_iff b.pending).mp popped
    refine ⟨{ b with source := (Source.call b.source).2 }, ?_, ⟨later.tail, yields.tail, ?_⟩, rfl⟩
    · have called := yields.call
      simp only [Source.call] at called
      simp only [next, popped, pull, ScanT.zoom, empty, Stream'.Seq.ofList_nil, Stream'.Seq.nil_append]
      rw [called]
      rfl
    · simp [empty]

theorem refill_of_yields {later : Items α} (yields : Yields b.source later) (pulled missing : Nat) :
    ∃ b', (refill pulled missing : ScanT Id (Buffer σ α) Nat) b = (.ok (pulled + (later.take missing).length), b') ∧
      b'.pending.toList = b.pending.toList ++ later.take missing ∧ Yields b'.source (later.drop missing) ∧
      b'.limits = b.limits := by
  induction missing generalizing b later pulled with
  | zero =>
    refine ⟨b, ?_, ?_, yields, rfl⟩
    · simp [refill, ScanT.pure_apply]
    · simp
  | succ missing ih =>
    have called := yields.call
    simp only [Source.call] at called
    have pulls : (pull : ScanT Id (Buffer σ α) (Option α)) b =
        (.ok later.head, { b with source := (Source.call b.source).2 }) := by
      simp only [pull, ScanT.zoom]
      rw [called]
      rfl
    unfold refill
    rw [ScanT.bind_ok pulls]
    have tail := yields.tail
    cases later using Stream'.Seq.recOn with
    | nil =>
      refine ⟨{ b with source := (Source.call b.source).2 }, ?_, ?_, ?_, rfl⟩
      · simp [ScanT.pure_apply]
      · simp
      · simpa using tail
    | cons a later =>
      obtain ⟨b', refilled, pending, source, limits⟩ :=
        ih (b := { b with source := (Source.call b.source).2, pending := b.pending.push a }) tail (pulled + 1)
      refine ⟨b', ?_, ?_, ?_, limits⟩
      · simp only [Stream'.Seq.head_cons]
        rw [ScanT.bind_ok (ScanT.modify_apply _ _), refilled]
        simp [Nat.add_assoc, Nat.add_comm]
      · simpa using pending
      · simpa using source

theorem peekAt_of_holds (h : b.Holds items) (distance : Nat) :
    ∃ b', (peekAt (distance + 1) : ScanT Id (Buffer σ α) (Option α)) b = (.ok (items.get? distance), b') ∧
      b'.Holds items ∧ b'.limits = b.limits := by
  obtain ⟨later, yields, rfl⟩ := h
  obtain ⟨b', refilled, pending, source, limits⟩ := refill_of_yields yields 0 (distance + 1 - b.buffered)
  refine ⟨b', ?_, ⟨_, source, ?_⟩, limits⟩
  · have shown : b'.pending.get? distance = ((ofList b.pending.toList).append later).get? distance := by
      have size : b.buffered = b.pending.toList.length := (Queue.length_toList b.pending).symm
      rw [Queue.get?_eq, pending, Items.get?_append, List.getElem?_append, Stream'.Seq.getElem?_take]
      split
      · rfl
      · rw [if_pos (by omega)]
    simp only [peekAt]
    rw [ScanT.bind_ok (ScanT.get_apply b), ScanT.bind_ok refilled]
    split
    · rw [ScanT.bind_ok (ScanT.get_apply b'), ScanT.bind_ok (ScanT.emit_apply _ b'), ScanT.bind_ok (ScanT.get_apply b'),
        ScanT.pure_apply, shown]
    · rw [ScanT.bind_ok (ScanT.get_apply b'), ScanT.pure_apply, shown]
  · rw [pending, Stream'.Seq.ofList_append, Stream'.Seq.append_assoc, Items.take_append_drop]

end Buffer

/-! ## The items alone -/

structure Cursor (α : Type) where
  items : Items α
  limit : Nat

def Cursor.lookahead : Lookahead (StateM (Cursor α)) α where
  next c := (c.items.head, { c with items := c.items.tail })
  peekAt distance c := (c.items.get? (distance - 1), c)
  scanLimit c := (c.limit, c)

namespace Buffer

variable [Source Id σ α]

/-- The buffer holds the items of the cursor and has its limit. -/
structure Shows (b : Buffer σ α) (c : Cursor α) : Prop where
  holds : b.Holds c.items
  limit : b.limits.items = c.limit

def simulation : Simulation (ScanT Id (Buffer σ α)) (StateM (Cursor α)) where
  Rel x y := ∀ b c, b.Shows c → ∃ b', x b = (.ok (y c).1, b') ∧ b'.Shows (y c).2
  rel_pure a b c hs := ⟨b, rfl, hs⟩
  rel_bind := by
    intro β γ x y f g hx hf b c hs
    obtain ⟨b', ran, shown⟩ := hx b c hs
    obtain ⟨b'', finished, shown⟩ := hf (y c).1 b' (y c).2 shown
    exact ⟨b'', (ScanT.bind_ok ran).trans finished, shown⟩

/-- The buffer as a lookahead whose computations are functions of the buffer. -/
abbrev direct : Lookahead (ScanT Id (Buffer σ α)) α := lookahead

/-- A buffer agrees with the items that it holds. -/
theorem matches_cursor : (simulation : Simulation _ _).Matches (direct : Lookahead (ScanT Id (Buffer σ α)) α)
    Cursor.lookahead where
  next b c hs := by
    obtain ⟨b', ran, holds, limits⟩ := next_of_holds hs.holds
    exact ⟨b', ran, holds, limits ▸ hs.limit⟩
  peekAt distance ahead b c hs := by
    obtain ⟨distance, rfl⟩ := Nat.exists_eq_add_of_lt ahead
    rw [Nat.zero_add]
    obtain ⟨b', ran, holds, limits⟩ := peekAt_of_holds hs.holds distance
    exact ⟨b', ran, holds, limits ▸ hs.limit⟩
  scanLimit b c hs := ⟨b, congrArg (fun limit => (Except.ok limit, b)) hs.limit, hs⟩

end Buffer

end TokenScan
