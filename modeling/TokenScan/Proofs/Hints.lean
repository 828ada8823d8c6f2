/-
  TokenScan.Proofs.Hints — what a buffer says about the number of items left in it is true.

  A source may say how many items it still has: at least so many, and at most so many. A buffer over it adds what
  waits to both bounds. The lower one stays at the greatest machine word rather than pass it, and an upper one that
  passes it says nothing, so nothing is said that is not so, also of a source without an end
  (`SizeHint.Sound.more`). Words compute it (`SizeHint.more_ofWords`): a sum that wraps is less than what was added to.

  If what the source says is true in every state that it comes to (`Source.Hinted`), then what the buffer says is
  true behind every call of every run, and the buffer is such a source again, for another buffer to stand on
  (`Buffer.hinted_of_source`). The buffer knows how many items are left just if the source knows and the number is a
  word. Looking ahead only moves items from the one count to the other. So over a source that always knows how many
  it has, no look changes what the buffer says (`Buffer.size_hint_holds_throughout`). Over one that forgets when it
  is asked for an item, the first look makes an exact hint vague (`Buffer.a_look_makes_a_source_forget`): the buffer asks
  the source anew each time, and remembers no number.
-/

import Mathlib.Data.ENat.Lattice
import TokenScan.Proofs.Tracing

namespace TokenScan

open Stream'.Seq (ofList)
open Source (Yields)

variable {σ α κ τ : Type}

/-! ## Bounds -/

namespace SizeHint

def exact (n : Nat) : SizeHint := ⟨n, some n⟩

/-- The bounds hold for this number of items, of which there may be no end. -/
structure Sound (hint : SizeHint) (left : ℕ∞) : Prop where
  low : (hint.low : ℕ∞) ≤ left
  high : ∀ high, hint.high = some high → left ≤ high

variable {hint : SizeHint} {left : ℕ∞} {n : Nat}

theorem Sound.eq_of_exact (h : (exact n).Sound left) : left = n := le_antisymm (h.high n rfl) h.low

theorem high_more_eq_some_iff {high : Nat} :
    (hint.more n).high = some high ↔ ∃ most, hint.high = some most ∧ most + n = high ∧ high ≤ maxCount := by
  cases known : hint.high with
  | none => simp [more, known]
  | some most =>
    simp only [more, known, Option.bind_some]
    split
    · simp only [Option.some.injEq, exists_eq_left']
      omega
    · simp only [Option.some.injEq, exists_eq_left', reduceCtorEq, false_iff]
      omega

/-- Bounds that hold still hold when more items are added to both sides. -/
theorem Sound.more (h : hint.Sound left) (n : Nat) : (hint.more n).Sound (n + left) where
  low := by
    have enough : min (hint.low + n) maxCount ≤ n + hint.low := by omega
    calc ((hint.more n).low : ℕ∞) ≤ ((n + hint.low : Nat) : ℕ∞) := by exact_mod_cast enough
      _ = n + hint.low := Nat.cast_add n hint.low
      _ ≤ n + left := by gcongr; exact h.low
  high := by
    intro high known
    obtain ⟨most, knows, rfl, -⟩ := high_more_eq_some_iff.mp known
    rw [Nat.cast_add, add_comm (most : ℕ∞)]
    gcongr
    exact h.high most knows

/-- The number is known with more items just if it was known without them, and it is a word. -/
theorem more_eq_exact_iff (h : hint.Sound left) {total : Nat} :
    hint.more n = exact total ↔ ∃ k, hint = exact k ∧ k + n = total ∧ total ≤ maxCount := by
  constructor
  · intro same
    obtain ⟨most, known, rfl, fits⟩ := high_more_eq_some_iff.mp (congrArg SizeHint.high same)
    have low : min (hint.low + n) maxCount = most + n := congrArg SizeHint.low same
    have ordered : hint.low ≤ most := by exact_mod_cast h.low.trans (h.high most known)
    refine ⟨most, ?_, rfl, fits⟩
    have tight : hint.low = most := by omega
    rw [exact, ← known, ← tight]
  · rintro ⟨k, rfl, rfl, fits⟩
    simp [more, exact, fits]

theorem more_exact_congr {k k' n' : Nat} (same : k + n = k' + n') : (exact k).more n = (exact k').more n' := by
  simp [more, exact, same]

/-! ## In machine words -/

/-- The sum of two machine words, or the greatest word if the sum is not one: a sum that wraps is less than what
    was added to. -/
def wordSum (a b : UInt64) : UInt64 := if a + b < a then UInt64.ofNat maxCount else a + b

def wordSum? (a b : UInt64) : Option UInt64 := if a + b < a then none else some (a + b)

def ofWords (low : UInt64) (high : Option UInt64) : SizeHint := ⟨low.toNat, high.map UInt64.toNat⟩

theorem add_lt_iff (a b : UInt64) : a + b < a ↔ maxCount < a.toNat + b.toNat := by
  have small := a.toNat_lt
  have small' := b.toNat_lt
  rw [UInt64.lt_iff_toNat_lt, UInt64.toNat_add, maxCount]
  omega

theorem toNat_add_of_le {a b : UInt64} (fits : a.toNat + b.toNat ≤ maxCount) : (a + b).toNat = a.toNat + b.toNat := by
  rw [UInt64.toNat_add]
  exact Nat.mod_eq_of_lt (Nat.lt_succ_of_le fits)

theorem toNat_wordSum (a b : UInt64) : (wordSum a b).toNat = min (a.toNat + b.toNat) maxCount := by
  unfold wordSum
  split
  case isTrue wraps =>
    rw [Nat.min_eq_right (Nat.le_of_lt ((add_lt_iff a b).mp wraps))]
    rfl
  case isFalse fits =>
    have fits := Nat.le_of_not_lt ((add_lt_iff a b).not.mp fits)
    rw [toNat_add_of_le fits, Nat.min_eq_left fits]

theorem map_toNat_wordSum? (a b : UInt64) :
    (wordSum? a b).map UInt64.toNat = if a.toNat + b.toNat ≤ maxCount then some (a.toNat + b.toNat) else none := by
  unfold wordSum?
  split
  case isTrue wraps => rw [if_neg (Nat.not_le_of_lt ((add_lt_iff a b).mp wraps))]; rfl
  case isFalse fits =>
    have fits := Nat.le_of_not_lt ((add_lt_iff a b).not.mp fits)
    rw [if_pos fits, Option.map_some, toNat_add_of_le fits]

/-- Machine words come to the bounds with more items. -/
theorem more_ofWords (low n : UInt64) (high : Option UInt64) :
    (ofWords low high).more n.toNat = ofWords (wordSum low n) (high.bind (wordSum? · n)) := by
  rw [more, ofWords, ofWords, toNat_wordSum]
  cases high with
  | none => rfl
  | some high => rw [Option.map_some, Option.bind_some, Option.bind_some, map_toNat_wordSum?]

end SizeHint

/-! ## Sources that say what is so -/

theorem Items.length'_ofList_append (l : List α) (later : Items α) :
    ((ofList l).append later).length' = l.length + later.length' := by
  induction l with
  | nil => simp
  | cons a l ih => simp [ih, add_right_comm]

namespace Source

variable [Source Id σ α] {s : σ}

noncomputable def left (s : σ) : ℕ∞ := (items s).length'

variable [HasSizeHint σ]

/-- The source ends for good if it ends, and what it says about the number of items left is true, now and in every
    state that calls lead to. -/
structure Hinted (s : σ) : Prop where
  yields : ∃ items, Yields s items
  sound : ∀ n, (HasSizeHint.sizeHint (after s n)).Sound (left (after s n))

/-- The source knows how many items are left, now and in every state that calls lead to. -/
def KnowsCount (s : σ) : Prop := ∀ n, ∃ k, HasSizeHint.sizeHint (after s n) = .exact k

theorem Hinted.call (h : Hinted s) : Hinted (call s).2 where
  yields := by
    obtain ⟨items, yields⟩ := h.yields
    exact ⟨items.tail, yields.tail⟩
  sound n := h.sound (n + 1)

theorem KnowsCount.call (h : KnowsCount s) : KnowsCount (call s).2 := fun n => h (n + 1)

end Source

/-! ## What looks ahead -/

namespace Op

def Looks : Op α κ τ → Prop
  | peek | peekAt _ _ | peekUntil _ | peekUntilWithin _ _ => True
  | _ => False

theorem consumed_of_looks [Kinded α κ] [DecidableEq κ] {op : Op α κ τ} (h : op.Looks) (limit : Nat) (items : Items α)
    (t : τ) : (op.outcome limit items t).consumed = [] := by
  cases op <;> first | rfl | cases h

end Op

def Request.Looks : Request σ α κ τ → Prop
  | perform op => op.Looks
  | withLimits _ => False
  | _ => True

namespace Buffer

/-! ## What calls keep of a source -/

theorem holds_items [Source Id σ α] {b : Buffer σ α} (h : ∃ items, Yields b.source items) : b.Holds b.items := by
  obtain ⟨later, yields⟩ := h
  exact ⟨later, yields, congrArg _ yields.items_eq⟩

section

variable [Source Id σ α] {b : Buffer σ α} {Q : σ → Prop} (keeps : ∀ s, Q s → Q (Source.call s).2)
include keeps

theorem next_source (h : Q b.source) : Q ((next : ScanT Id (Buffer σ α) (Option α)) b).2.source := by
  cases popped : b.pending.pop? with
  | some front =>
    simp only [next, popped]
    exact h
  | none =>
    simp only [next, popped, pull_apply]
    exact keeps b.source h

theorem peekAt_source (distance : Nat) (h : Q b.source) :
    Q ((peekAt distance : ScanT Id (Buffer σ α) (Option α)) b).2.source :=
  peekAt_keeps (P := fun b => Q b.source) (fun b => keeps b.source) h distance

/-- What a call keeps of a source that ends for good, every run keeps of the source of a buffer. -/
theorem invariant_source (yields : ∀ s, Q s → ∃ items, Yields s items) (most : Nat) :
    Invariant (fun _ (b : Buffer σ α) => Q b.source) most where
  next calls b h := by
    obtain ⟨b', ran, -, limits⟩ := next_of_holds (holds_items (yields _ h))
    have kept := next_source keeps h
    rw [ran] at kept
    exact ⟨_, b', ran, kept, limits⟩
  peekAt distance _ calls b h := by
    have kept := peekAt_source keeps distance h
    cases distance with
    | zero => exact ⟨_, b, peekAt_zero_apply b, h, rfl⟩
    | succ distance =>
      obtain ⟨b', ran, -, limits⟩ := peekAt_of_holds (holds_items (yields _ h)) distance
      rw [ran] at kept
      exact ⟨_, b', ran, kept, limits⟩
  withLimits _ _ _ h := h

variable [Kinded α κ] [DecidableEq κ]

/-- Looking ahead leaves the items that there were, and of the source what calls keep. -/
theorem run_of_looks (yields : ∀ s, Q s → ∃ items, Yields s items) (h : Q b.source) {request : Request σ α κ τ}
    (looks : request.Looks) (t : τ × List α) :
    ∃ a b', request.run reach t b = (.ok a, b') ∧ b'.items = b.items ∧ Q b'.source := by
  cases request with
  | perform op =>
    obtain ⟨b', ran, holds, -⟩ := run_of_holds (holds_items (yields _ h)) op t.1 t.2
    obtain ⟨a, _, log, -, ran', kept, -⟩ :=
      (invariant_source keeps yields (max 1 (op.sees b.limits.items))).perform (Nat.le_max_left _ _) (.start h) op
        (Nat.le_max_right _ _) t
    obtain ⟨-, rfl⟩ := Prod.mk.inj (ran'.symm.trans ran)
    rw [Op.consumed_of_looks looks] at holds
    exact ⟨_, _, ScanT.bind_ok ran, holds.items_eq, kept.1⟩
  | peekWaiting =>
    have shown := ScanT.map_ok (g := fun a => Reply.answer (.item a)) (peekAt_zero_apply b)
    exact ⟨(.answer (.item b.pending.toList.head?), t), b, ScanT.bind_ok (f := fun reply => pure (reply, t)) shown, rfl, h⟩
  | scanLimit => exact ⟨_, b, rfl, rfl, h⟩
  | withLimits limits => exact False.elim looks
  | look see => exact ⟨_, b, rfl, rfl, h⟩

end

/-! ## What a buffer says -/

section

variable [Source Id σ α]

noncomputable def left (b : Buffer σ α) : ℕ∞ := b.items.length'

theorem left_eq (b : Buffer σ α) : b.left = b.buffered + Source.left b.source := by
  rw [left, items, Items.length'_ofList_append, Queue.length_toList]
  rfl

theorem left_of_items_eq {b b' : Buffer σ α} (same : b'.items = b.items) : b'.left = b.left := by rw [left, left, same]

theorem yields_items {b : Buffer σ α} (h : ∃ items, Yields b.source items) : Yields b b.items := by
  refine Source.yields_of_invariant (P := fun b items => b.Holds items) ?_ (holds_items h)
  intro b items holds
  obtain ⟨b', ran, holds, -⟩ := next_of_holds holds
  exact ⟨b', ran, holds⟩

variable [HasSizeHint σ] {b b' : Buffer σ α}

theorem sound_of_hinted (h : Source.Hinted b.source) : (HasSizeHint.sizeHint b).Sound b.left := by
  rw [left_eq]
  exact (h.sound 0).more b.buffered

/-- The buffer knows how many items are left just if its source does, and the number is a word. -/
theorem sizeHint_eq_exact_iff (h : Source.Hinted b.source) {n : Nat} :
    HasSizeHint.sizeHint b = .exact n ↔
      ∃ k, HasSizeHint.sizeHint b.source = .exact k ∧ k + b.buffered = n ∧ n ≤ maxCount :=
  SizeHint.more_eq_exact_iff (h.sound 0)

/-- A buffer over a source that says what is so is such a source. -/
theorem hinted_of_source (h : Source.Hinted b.source) : Source.Hinted b where
  yields := ⟨b.items, yields_items h.yields⟩
  sound n := by
    have kept : Source.Hinted (Source.after b n).source := by
      induction n generalizing b with
      | zero => exact h
      | succ n ih => exact ih (next_source (fun _ => Source.Hinted.call) h)
    have sound := sound_of_hinted kept
    rwa [left, ← (yields_items kept.yields).items_eq] at sound

theorem sizeHint_congr (h : Source.Hinted b.source) (h' : Source.Hinted b'.source)
    (knows : ∃ k, HasSizeHint.sizeHint b.source = .exact k) (knows' : ∃ k, HasSizeHint.sizeHint b'.source = .exact k)
    (same : b'.left = b.left) : HasSizeHint.sizeHint b' = HasSizeHint.sizeHint b := by
  obtain ⟨k, known⟩ := knows
  obtain ⟨k', known'⟩ := knows'
  have left : Source.left b.source = k := (known ▸ h.sound 0 : SizeHint.Sound (.exact k) _).eq_of_exact
  have left' : Source.left b'.source = k' := (known' ▸ h'.sound 0 : SizeHint.Sound (.exact k') _).eq_of_exact
  rw [left_eq, left_eq, left, left'] at same
  have sum : b'.buffered + k' = b.buffered + k := by exact_mod_cast same
  show (HasSizeHint.sizeHint b'.source).more _ = (HasSizeHint.sizeHint b.source).more _
  rw [known, known']
  exact SizeHint.more_exact_congr (by omega)

variable [Kinded α κ] [DecidableEq κ]

/-- What the buffer says about the number of its items as it is. Machine words come to it. The number is known just
    if the source knows, and the sum is a word. When a buffer that knows it has looked ahead, it says the same
    just if the source still knows, which not every source does. Over one that always knows, a look changes nothing. -/
structure Estimates (τ : Type) (b : Buffer σ α) : Prop where
  sound : (HasSizeHint.sizeHint b).Sound b.left
  words : ∀ low high n, HasSizeHint.sizeHint b.source = .ofWords low high → b.buffered = n.toNat →
    HasSizeHint.sizeHint b = .ofWords (SizeHint.wordSum low n) (high.bind (SizeHint.wordSum? · n))
  exact_iff : ∀ n, HasSizeHint.sizeHint b = .exact n ↔
    ∃ k, HasSizeHint.sizeHint b.source = .exact k ∧ k + b.buffered = n ∧ n ≤ maxCount
  looks : ∀ (request : Request σ α κ τ) (t : τ × List α), request.Looks →
    ∃ a b', request.run reach t b = (.ok a, b') ∧ b'.items = b.items ∧
    (∀ n, HasSizeHint.sizeHint b = .exact n →
      (HasSizeHint.sizeHint b' = .exact n ↔ ∃ k, HasSizeHint.sizeHint b'.source = .exact k)) ∧
    (Source.KnowsCount b.source → HasSizeHint.sizeHint b' = HasSizeHint.sizeHint b)

theorem estimates_of_hinted (h : Source.Hinted b.source) : Estimates τ b where
  sound := sound_of_hinted h
  words low high n said waiting := by
    show (HasSizeHint.sizeHint b.source).more b.buffered = _
    rw [said, waiting, SizeHint.more_ofWords]
  exact_iff n := sizeHint_eq_exact_iff h
  looks request t looks := by
    -- looking ahead calls the source, and calls keep both what is asked of it and what it may know besides
    let Kept (s : σ) : Prop := Source.Hinted s ∧ (Source.KnowsCount b.source → Source.KnowsCount s)
    have keeps (s : σ) (kept : Kept s) : Kept (Source.call s).2 := ⟨kept.1.call, fun knows => (kept.2 knows).call⟩
    obtain ⟨a, b', ran, same, hinted, stays⟩ := run_of_looks keeps (fun _ kept => kept.1.yields) ⟨h, id⟩ looks t
    have left := left_of_items_eq same
    refine ⟨a, b', ran, same, ?_, fun knows => sizeHint_congr h hinted (knows 0) (stays knows 0) left⟩
    intro n known
    obtain ⟨k, knows, -⟩ := (sizeHint_eq_exact_iff h).mp known
    rw [← known]
    constructor
    · intro unchanged
      obtain ⟨k', knows', -⟩ := (sizeHint_eq_exact_iff hinted).mp (unchanged.trans known)
      exact ⟨k', knows'⟩
    · intro knows'
      exact sizeHint_congr h hinted ⟨k, knows⟩ knows' left

/-! ## Every run -/

/-- Every run of requests goes through on the buffer, and behind each of its calls this holds of it. -/
def Throughout (τ : Type) (P : Buffer σ α → Prop) (b : Buffer σ α) : Prop :=
  ∀ (requests : List (Request σ α κ τ)) (t : τ × List α), ∃ a b' log,
    requests.mapM (Request.run reach.traced) t (b, []) = (.ok a, b', log) ∧
      requests.mapM (Request.run reach) t b = (.ok a, b') ∧ Trace.Kept (fun _ now => P now) (b', log)

theorem throughout_of_hinted {P : Buffer σ α → Prop} (holds : ∀ b : Buffer σ α, Source.Hinted b.source → P b)
    (h : Source.Hinted b.source) : Throughout τ P b := by
  intro requests t
  obtain ⟨a, b', log, ran, ran', kept⟩ :=
    (invariant_source (fun _ => Source.Hinted.call) (fun _ h => h.yields)
      (max 1 (Request.farthest b.limits.items requests))).run (Nat.le_max_left _ _) (.start h) requests
      (Nat.le_max_right _ _) t
  exact ⟨a, b', log, ran, ran', kept.imp fun _ now hinted => holds now hinted⟩

/-- Over a source that says what is so in every state, a buffer says what is so behind every call of every run; and
    so does a buffer that stands on it there. -/
theorem size_hint_holds_throughout {s : σ} (h : Source.Hinted s) :
    Throughout τ (fun b => Source.Hinted b ∧ Estimates τ b ∧
      Throughout τ (fun outer => Estimates τ outer) (ofSource b : Buffer (Buffer σ α) α)) (ofSource s) := by
  refine throughout_of_hinted (fun b hinted => ?_) h
  have standing : Source.Hinted b := hinted_of_source hinted
  exact ⟨standing, estimates_of_hinted hinted, throughout_of_hinted (fun _ => estimates_of_hinted) standing⟩

end

/-- A buffer with two letters waiting, over a source that has nothing to give and says so. -/
def twoWaiting : Buffer (Replay (Token .utf8 CharKind)) (Token .utf8 CharKind) :=
  let letter : Token .utf8 CharKind := ⟨⟨0, 1⟩, .lowercaseLetter⟩
  ⟨⟨fun _ => none, 0, false, .exact 0, 0⟩, ((∅ : Queue _).push letter).push letter, .guarded⟩

theorem size_hint_holds_throughout_two_waiting :
    let requests : List (Request (Buffer (Replay (Token .utf8 CharKind)) (Token .utf8 CharKind)) (Token .utf8 CharKind)
      CharKind Unit) := [.perform (.peekAt 5 (by decide)), .perform .next]
    Source.Hinted twoWaiting ∧ ∃ a b log,
      requests.mapM (Request.run reach.traced) ((), []) (ofSource twoWaiting, []) = (.ok a, b, log) ∧
        HasSizeHint.sizeHint twoWaiting = .exact 2 ∧ HasSizeHint.sizeHint b = .exact 1 ∧ b.left = 1 := by
  intro requests
  have yields : Yields twoWaiting.source (Stream'.Seq.nil : Items (Token .utf8 CharKind)) :=
    Source.yields_of_invariant (P := fun s items => s = twoWaiting.source ∧ items = Stream'.Seq.nil)
      (by rintro s items ⟨rfl, rfl⟩; exact ⟨_, rfl, rfl, rfl⟩) ⟨rfl, rfl⟩
  have same (n : Nat) : Source.after twoWaiting.source n = twoWaiting.source := by
    induction n with
    | zero => rfl
    | succ n ih => exact ih
  have hinted : Source.Hinted twoWaiting.source := by
    refine ⟨⟨_, yields⟩, fun n => ?_⟩
    rw [same, Source.left, yields.items_eq]
    exact ⟨by simp [HasSizeHint.sizeHint, twoWaiting, SizeHint.exact], by
      intro high known
      simp [HasSizeHint.sizeHint, twoWaiting, SizeHint.exact] at known ⊢⟩
  have standing := hinted_of_source hinted
  obtain ⟨a, b, log, ran, -, kept⟩ := size_hint_holds_throughout standing requests ((), [])
  have left : HasSizeHint.sizeHint b = .exact 1 := by
    have := congrArg (fun r => HasSizeHint.sizeHint r.2.1) ran
    rw [← this]
    decide
  refine ⟨standing, a, b, log, ran, by decide, left, ?_⟩
  exact (left ▸ kept.1.2.1.sound).eq_of_exact

end Buffer

/-! ## A source that forgets -/

/-- A list to be given item by item, of which it is told how long it is until it is first asked for an item. -/
structure Forgetful (α : Type) where
  list : List α
  asked : Bool

namespace Forgetful

instance : Source Id (Forgetful α) α where
  next := ScanT.ofStep fun s => (.ok s.list.head?, ⟨s.list.tail, true⟩)

instance : HasSizeHint (Forgetful α) := ⟨fun s => if s.asked then .unknown else .exact s.list.length⟩

theorem yields_list (s : Forgetful α) : Yields s (ofList s.list) := by
  refine Source.yields_of_invariant (P := fun (s : Forgetful α) items => items = ofList s.list) ?_ rfl
  rintro s _ rfl
  rw [Items.head_ofList, Items.tail_ofList]
  exact ⟨⟨s.list.tail, true⟩, rfl, rfl⟩

theorem left_eq (s : Forgetful α) : Source.left s = s.list.length := by
  have counted := Items.length'_ofList_append s.list Stream'.Seq.nil
  rw [Stream'.Seq.append_nil, Stream'.Seq.length'_nil, add_zero] at counted
  rw [Source.left, s.yields_list.items_eq, counted]

/-- What it says is true as long as it says anything. -/
theorem hinted (s : Forgetful α) : Source.Hinted s where
  yields := ⟨_, s.yields_list⟩
  sound n := by
    obtain ⟨list, asked⟩ := Source.after s n
    rw [left_eq]
    cases asked with
    | false => exact ⟨le_rfl, by rintro _ ⟨⟩; exact le_rfl⟩
    | true => exact ⟨Nat.cast_le.mpr (Nat.zero_le _), by rintro _ ⟨⟩⟩

end Forgetful

/-- A buffer that knows how many items are left need not know it after a look, though what its source says is true in
    every state. -/
theorem Buffer.a_look_makes_a_source_forget :
    let s : Forgetful Nat := ⟨[1, 2], false⟩
    let b : Buffer (Forgetful Nat) Nat := ofSource s
    Source.Hinted s ∧ HasSizeHint.sizeHint b = .exact 2 ∧
      ∃ b', (peekAt 1 : ScanT Id (Buffer (Forgetful Nat) Nat) _) b = (.ok (some 1), b') ∧
        HasSizeHint.sizeHint b' = ⟨1, none⟩ :=
  ⟨Forgetful.hinted _, by decide, _, rfl, by decide⟩

end TokenScan
