/-
  TokenScan.Proofs.Accounting — no item is lost, none comes twice, and none changes its place.

  A source may answer that there is nothing and go on later, so it yields no sequence in the sense
  of `Source.Yields`. `Source.items` is the sequence of all items that it will ever answer with, its
  pauses left out; it is known by what the first calls produce (`Source.get?_items`) and unfolds
  call by call (`Source.items_eq`). For a source without pauses it is what the source yields
  (`Source.Yields.items_eq`).

  Whatever is done with a buffer only moves items from the source to the end of the queue, and from
  the front of the queue to those consumed (`Follows`). One primitive operation at a time keeps
  that (`next_follows`, `peekAt_follows`), and so does every run of requests
  (`Buffer.run_follows`). Hence those consumed, those that wait and those that the source has still
  to produce are always the same items in the same order, and an item that has been seen keeps its
  place until it is consumed (`Buffer.every_item_accounted_for`).
-/

import TokenScan.Proofs.Recording

namespace TokenScan

open Stream'.Seq (ofList)

variable {σ α κ τ : Type} [Source Id σ α]

/-! ## The items of a source with pauses -/

namespace Source

def produced (s : σ) (n : Nat) : List α := (List.range n).filterMap fun k => itemOf (call (after s k)).1

variable {s : σ} {i k n : Nat} {a : α}

/-- A call that answers that there is nothing takes no place among them. -/
example :
    let pausing : Replay Nat := ⟨fun k => if k = 1 then none else some k, 4, false, .unknown, 0⟩
    produced pausing 4 = [0, 2, 3] := by
  decide

theorem produced_succ (s : σ) (n : Nat) :
    produced s (n + 1) = (itemOf (call s).1).toList ++ produced (call s).2 n := by
  rw [produced, List.range_succ_eq_map, List.filterMap_cons, List.filterMap_map]
  cases h : itemOf (call s).1 with
  | none =>
    simp only [after, h]
    rfl
  | some a =>
    simp only [after, h]
    rfl

theorem produced_isPrefix (s : σ) (h : k ≤ n) : produced s k <+: produced s n := by
  have first : List.range k = (List.range n).take k := by rw [List.take_range, Nat.min_eq_left h]
  rw [produced, first]
  exact (List.take_prefix k _).filterMap _

theorem getElem?_produced_of_le (h : k ≤ n) (found : (produced s k)[i]? = some a) : (produced s n)[i]? = some a := by
  obtain ⟨more, whole⟩ := produced_isPrefix s h
  rw [← whole, List.getElem?_append_left (List.getElem?_eq_some_iff.mp found).1]
  exact found

open Classical in
/-- The item at place `i` of those that the source will ever produce. -/
noncomputable def itemAt (s : σ) (i : Nat) : Option α :=
  if h : ∃ n, i < (produced s n).length then (produced s h.choose)[i]? else none

theorem itemAt_eq_some_iff : itemAt s i = some a ↔ ∃ n, (produced s n)[i]? = some a := by
  unfold itemAt
  split
  case isTrue h =>
    refine ⟨fun found => ⟨_, found⟩, ?_⟩
    rintro ⟨n, found⟩
    have enough := getElem?_produced_of_le (Nat.le_max_left n h.choose) found
    have chosen := List.getElem?_eq_getElem h.choose_spec
    rw [getElem?_produced_of_le (Nat.le_max_right n h.choose) chosen] at enough
    rw [chosen, enough]
  case isFalse h =>
    refine ⟨fun found => (by cases found), ?_⟩
    rintro ⟨n, found⟩
    exact absurd ⟨n, (List.getElem?_eq_some_iff.mp found).1⟩ h

theorem itemAt_succ_eq_none (h : itemAt s i = none) : itemAt s (i + 1) = none := by
  rw [Option.eq_none_iff_forall_ne_some] at h ⊢
  intro a found
  obtain ⟨n, found⟩ := itemAt_eq_some_iff.mp found
  have inside : i < (produced s n).length := Nat.lt_of_succ_lt (List.getElem?_eq_some_iff.mp found).1
  exact h _ (itemAt_eq_some_iff.mpr ⟨n, List.getElem?_eq_getElem inside⟩)

/-- The items that the source will ever produce, in order, without the pauses between them. -/
noncomputable def items (s : σ) : Items α := ⟨itemAt s, itemAt_succ_eq_none⟩

theorem get?_items : (items s).get? i = some a ↔ ∃ n, (produced s n)[i]? = some a := itemAt_eq_some_iff

/-- A call takes its item, if it has one, from the front of the items. -/
theorem items_eq (s : σ) : items s = (ofList (itemOf (call s).1).toList).append (items (call s).2) := by
  ext1 i
  apply Option.ext
  intro a
  rw [Items.get?_append, get?_items]
  constructor
  · rintro ⟨n, found⟩
    cases n with
    | zero => cases found
    | succ n =>
      rw [produced_succ, List.getElem?_append] at found
      split
      case isTrue inside => rwa [if_pos inside] at found
      case isFalse outside =>
        rw [if_neg outside] at found
        exact get?_items.mpr ⟨n, found⟩
  · intro found
    split at found
    case isTrue inside =>
      refine ⟨1, ?_⟩
      rwa [produced_succ, List.getElem?_append_left inside]
    case isFalse outside =>
      obtain ⟨n, found⟩ := get?_items.mp found
      refine ⟨n + 1, ?_⟩
      rwa [produced_succ, List.getElem?_append_right (Nat.le_of_not_lt outside)]

theorem Yields.produced_eq {items : Items α} (h : Yields s items) (n : Nat) : produced s n = items.take n := by
  induction n generalizing s items with
  | zero => rw [Stream'.Seq.take_zero]; rfl
  | succ n ih =>
    have answered : itemOf (Source.call s).1 = items.head := congrArg (itemOf ·.1) h.call
    rw [produced_succ, answered, ih h.tail]
    cases items using Stream'.Seq.recOn with
    | nil => simp
    | cons a rest => simp

/-- The items of a source without pauses are those that it yields. -/
theorem Yields.items_eq {items : Items α} (h : Yields s items) : Source.items s = items := by
  ext1 i
  apply Option.ext
  intro a
  rw [get?_items]
  constructor
  · rintro ⟨n, found⟩
    rw [h.produced_eq, Stream'.Seq.getElem?_take] at found
    split at found
    · exact found
    · cases found
  · intro found
    refine ⟨i + 1, ?_⟩
    rw [h.produced_eq, Stream'.Seq.getElem?_take, if_pos (Nat.lt_succ_self i)]
    exact found

end Source

/-! ## One operation -/

namespace Buffer

/-- The items that the buffer will ever give: what waits, and what its source will produce. -/
noncomputable def items (b : Buffer σ α) : Items α := (ofList b.pending.toList).append (Source.items b.source)

theorem Holds.items_eq {b : Buffer σ α} {items : Items α} (h : b.Holds items) : b.items = items := by
  obtain ⟨later, yields, rfl⟩ := h
  rw [Buffer.items, yields.items_eq]

/-- A buffer, and the items that have been consumed so far. -/
abbrev Moment (σ α : Type) := Buffer σ α × List α

def Moment.drawn (now : Moment σ α) : List α := now.2 ++ now.1.pending.toList

/-- From the one moment to the other, nothing has happened but that the next items of the source
    have come behind those that were drawn before. -/
def Follows (start now : Moment σ α) : Prop :=
  ∃ new, now.drawn = start.drawn ++ new ∧
    Source.items start.1.source = (ofList new).append (Source.items now.1.source)

variable {b : Buffer σ α} {taken : List α} {start now later : Moment σ α} {distance : Nat} {a : α}

theorem Follows.refl (start : Moment σ α) : Follows start start := ⟨[], by simp, by simp⟩

theorem Follows.trans (h : Follows start now) (h' : Follows now later) : Follows start later := by
  obtain ⟨new, drawn, items⟩ := h
  obtain ⟨new', drawn', items'⟩ := h'
  refine ⟨new ++ new', ?_, ?_⟩
  · rw [drawn', drawn, List.append_assoc]
  · rw [items, items', Stream'.Seq.ofList_append, Stream'.Seq.append_assoc]

/-- What has been drawn and what is still to come make up the same sequence. -/
theorem Follows.items_eq (h : Follows start now) :
    (ofList now.drawn).append (Source.items now.1.source) = (ofList start.drawn).append (Source.items start.1.source) := by
  obtain ⟨new, drawn, items⟩ := h
  rw [drawn, items, Stream'.Seq.ofList_append, Stream'.Seq.append_assoc]

/-- What has been consumed since, and what the buffer still gives, is what it gave at the start. -/
theorem Follows.taken_append_items {b' : Buffer σ α} (h : Follows (b, []) (b', taken)) :
    (ofList taken).append b'.items = b.items := by
  have whole := h.items_eq
  rw [Moment.drawn, Stream'.Seq.ofList_append, Stream'.Seq.append_assoc] at whole
  exact whole

theorem pull_apply (b : Buffer σ α) :
    (pull : ScanT Id (Buffer σ α) (Option α)) b =
      ((Source.call b.source).1, { b with source := (Source.call b.source).2 }) := rfl

theorem next_follows (b : Buffer σ α) (taken : List α) :
    let ran := (next : ScanT Id (Buffer σ α) (Option α)) b
    Follows (b, taken) (ran.2, taken ++ (itemOf ran.1).toList) := by
  intro ran
  cases popped : b.pending.pop? with
  | some front =>
    obtain ⟨a, pending⟩ := front
    have ends : ran = (.ok (some a), { b with pending }) := by
      simp only [ran, next, popped]
      rfl
    refine ⟨[], ?_, ?_⟩
    · simp [ends, Moment.drawn, itemOf, Queue.toList_of_pop? popped]
    · simp [ends]
  | none =>
    have empty := (Queue.pop?_eq_none_iff b.pending).mp popped
    have ends : ran = ((Source.call b.source).1, { b with source := (Source.call b.source).2 }) := by
      simp only [ran, next, popped]
      exact pull_apply b
    refine ⟨(itemOf (Source.call b.source).1).toList, ?_, ?_⟩
    · simp [ends, Moment.drawn, empty]
    · rw [ends]
      exact Source.items_eq b.source

/-- The buffer after one call of its source, with the item that came, if any, behind those that wait. -/
def fetched (b : Buffer σ α) : Buffer σ α :=
  { b with source := (Source.call b.source).2, pending := (itemOf (Source.call b.source).1).elim b.pending b.pending.push }

/-- Refilling fetches and does nothing else, also if a pause or a fault ends it: it keeps what fetching keeps. -/
theorem refill_keeps {P : Buffer σ α → Prop} (keeps : ∀ b, P b → P b.fetched) (h : P b) (pulled missing : Nat) :
    P ((refill pulled missing : ScanT Id (Buffer σ α) Nat) b).2 := by
  induction missing generalizing b pulled with
  | zero => exact h
  | succ missing ih =>
    have kept := keeps b h
    unfold fetched at kept
    unfold refill
    rw [ScanT.bind_apply, pull_apply]
    rcases called : Source.call b.source with ⟨fault | _ | a, source⟩ <;> rw [called] at kept
    · exact kept
    · exact kept
    · simp only
      rw [ScanT.bind_ok (ScanT.modify_apply _ _)]
      exact ih kept (pulled + 1)

/-- Looking ahead refills, and then shows what waits at that distance. -/
theorem peekAt_apply (distance : Nat) (b : Buffer σ α) :
    (peekAt (distance + 1) : ScanT Id (Buffer σ α) (Option α)) b =
      match (refill 0 (distance + 1 - b.buffered) : ScanT Id (Buffer σ α) Nat) b with
      | (.ok _, b') => (.ok b'.pending.toList[distance]?, b')
      | (.error fault, b') => (.error fault, b') := by
  simp only [peekAt]
  rw [ScanT.bind_ok (ScanT.get_apply b), ScanT.bind_apply]
  rcases (refill 0 (distance + 1 - b.buffered) : ScanT Id (Buffer σ α) Nat) b with ⟨fault | pulled, b'⟩
  · rfl
  · simp only
    split
    · rw [ScanT.bind_ok (ScanT.get_apply b'), ScanT.bind_ok (ScanT.emit_apply _ b'), ScanT.bind_ok (ScanT.get_apply b'),
        ScanT.pure_apply, Queue.get?_eq]
    · rw [ScanT.bind_ok (ScanT.get_apply b'), ScanT.pure_apply, Queue.get?_eq]

theorem peekAt_zero_apply (b : Buffer σ α) :
    (peekAt 0 : ScanT Id (Buffer σ α) (Option α)) b = (.ok b.pending.toList.head?, b) := by
  simp only [peekAt]
  rw [ScanT.bind_ok (ScanT.get_apply b), ScanT.pure_apply, Queue.get?_eq, List.head?_eq_getElem?]

theorem peekAt_keeps {P : Buffer σ α → Prop} (keeps : ∀ b, P b → P b.fetched) (h : P b) (distance : Nat) :
    P ((peekAt distance : ScanT Id (Buffer σ α) (Option α)) b).2 := by
  cases distance with
  | zero =>
    rw [peekAt_zero_apply]
    exact h
  | succ distance =>
    have refilled := refill_keeps keeps h 0 (distance + 1 - b.buffered)
    rw [peekAt_apply]
    split
    · next ran => rwa [ran] at refilled
    · next ran => rwa [ran] at refilled

theorem peekAt_follows (distance : Nat) (b : Buffer σ α) (taken : List α) :
    Follows (b, taken) (((peekAt distance : ScanT Id (Buffer σ α) (Option α)) b).2, taken) := by
  refine peekAt_keeps (P := fun now => Follows (b, taken) (now, taken)) ?_ (Follows.refl _) distance
  intro now follows
  refine follows.trans ⟨(itemOf (Source.call now.source).1).toList, ?_, Source.items_eq now.source⟩
  cases came : itemOf (Source.call now.source).1 with
  | none => simp [fetched, came, Moment.drawn]
  | some a => simp [fetched, came, Moment.drawn]

/-! ## Items that have been seen -/

theorem waits_of_peekAt (h : ((peekAt (distance + 1) : ScanT Id (Buffer σ α) (Option α)) b).1 = .ok (some a)) :
    ((peekAt (distance + 1) : ScanT Id (Buffer σ α) (Option α)) b).2.pending.toList[distance]? = some a := by
  rw [peekAt_apply] at h ⊢
  split at h
  · exact Except.ok.inj h
  · cases h

theorem peekAt_of_waits (h : b.pending.toList[distance]? = some a) :
    (peekAt (distance + 1) : ScanT Id (Buffer σ α) (Option α)) b = (.ok (some a), b) := by
  have inside : distance < b.buffered := by
    have := (List.getElem?_eq_some_iff.mp h).1
    rwa [Queue.length_toList] at this
  have none_missing : distance + 1 - b.buffered = 0 := by omega
  rw [peekAt_apply, none_missing, refill, ScanT.pure_apply]
  exact congrArg (fun item => (Except.ok item, b)) h

theorem next_of_waits (h : b.pending.toList[0]? = some a) :
    ((next : ScanT Id (Buffer σ α) (Option α)) b).1 = .ok (some a) := by
  cases popped : b.pending.pop? with
  | none =>
    rw [(Queue.pop?_eq_none_iff b.pending).mp popped] at h
    cases h
  | some front =>
    obtain ⟨c, pending⟩ := front
    rw [Queue.toList_of_pop? popped] at h
    obtain rfl : c = a := Option.some.inj h
    simp only [next, popped]
    rfl

/-- The item has this place, counted from the first item ever: once it is consumed, it is the one
    consumed there; before that, looking there shows it; and when it is next, consuming brings it. -/
structure Keeps (place : Nat) (item : α) (now : Moment σ α) : Prop where
  consumed : place < now.2.length → now.2[place]? = some item
  shown : ∀ ahead, now.2.length + ahead = place →
    ((peekAt (ahead + 1) : ScanT Id (Buffer σ α) (Option α)) now.1).1 = .ok (some item)
  next : now.2.length = place → ((next : ScanT Id (Buffer σ α) (Option α)) now.1).1 = .ok (some item)

theorem keeps_of_drawn {place : Nat} {item : α} (h : now.drawn[place]? = some item) : Keeps place item now where
  consumed behind := by rwa [Moment.drawn, List.getElem?_append_left behind] at h
  shown ahead there := by
    rw [Moment.drawn, List.getElem?_append_right (by omega), ← there, Nat.add_sub_cancel_left] at h
    rw [peekAt_of_waits h]
  next here := by
    rw [Moment.drawn, List.getElem?_append_right (by omega), ← here, Nat.sub_self] at h
    exact next_of_waits h

theorem Follows.keeps {place : Nat} {item : α} (h : Follows start now) (drawn : start.drawn[place]? = some item) :
    Keeps place item now := by
  obtain ⟨new, whole, -⟩ := h
  apply keeps_of_drawn
  rw [whole, List.getElem?_append_left (List.getElem?_eq_some_iff.mp drawn).1]
  exact drawn

/-! ## Every run -/

theorem recorded_follows (start : Moment σ α) :
    (reach : Reach (ScanT Id (Buffer σ α)) σ α).recorded.Matches
      (ScanT.simulation fun now b => now.1 = b ∧ Follows start now) reach :=
  Reach.recorded_matches
    (fun b taken h => h.trans (next_follows b taken))
    (fun distance b taken h => h.trans (peekAt_follows distance b taken))
    (fun _ _ h => h)
    (fun _ _ h => h)
    (fun _ b taken h => h.trans ⟨[], by simp [Moment.drawn]; rfl, by simp; rfl⟩)

variable [Kinded α κ] [DecidableEq κ]

/-- A run of requests draws items and consumes some of them; to write these down changes nothing. -/
theorem run_follows (start : Moment σ α) (requests : List (Request σ α κ τ)) (t : τ × List α) :
    let ran := requests.mapM (Request.run reach.recorded) t start
    let plain := requests.mapM (Request.run reach) t start.1
    ran.1 = plain.1 ∧ ran.2.1 = plain.2 ∧ Follows start ran.2 :=
  (Simulation.stateT _ _).rel_mapM (Request.run_matches (recorded_follows start)) requests t start start.1
    ⟨rfl, Follows.refl start⟩

/-- Over any source, also one that pauses and goes on, and after any run of requests: the items
    consumed so far, those that wait, and those that the source has still to produce are the items
    that there were, in their order; and the last two are the parts of the buffer. An item that
    has once been shown keeps its place through every later run until it is consumed, and it is
    the one consumed there. -/
theorem every_item_accounted_for (b : Buffer σ α) (taken : List α) (requests : List (Request σ α κ τ)) (t : τ × List α) :
    let run (start : Moment σ α) := requests.mapM (Request.run reach.recorded) t start
    let plain := requests.mapM (Request.run reach) t b
    let now := (run (b, taken)).2
    (run (b, taken)).1 = plain.1 ∧ now.1 = plain.2 ∧
      (let (source, pending) := now.1.parts
       (ofList (now.2 ++ pending)).append (Source.items source) =
         (ofList (taken ++ b.pending.toList)).append (Source.items b.source)) ∧
      ∀ (distance : Nat) (item : α),
        ((peekAt (distance + 1) : ScanT Id (Buffer σ α) (Option α)) b).1 = .ok (some item) →
        Keeps (taken.length + distance) item
          (run (((peekAt (distance + 1) : ScanT Id (Buffer σ α) (Option α)) b).2, taken)).2 := by
  intro run plain now
  obtain ⟨same, left, follows⟩ := run_follows (b, taken) requests t
  refine ⟨same, left, follows.items_eq, ?_⟩
  intro distance item shown
  obtain ⟨-, -, follows⟩ := run_follows (((peekAt (distance + 1) : ScanT Id (Buffer σ α) (Option α)) b).2, taken) requests t
  apply follows.keeps
  rw [Moment.drawn, List.getElem?_append_right (Nat.le_add_right _ _), Nat.add_sub_cancel_left]
  exact waits_of_peekAt shown

end Buffer

end TokenScan
