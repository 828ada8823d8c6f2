/-
  TokenScan.Proofs.Scripts — programs over handles in which programs are passed on.

  A `Script` uses handles, as many and to as many buffers as it likes. The predicates of its scans are scripts, and
  so is what it does while it reads a buffer; either may scan and read in turn, to any depth. Scripts share a state,
  which stands for the variables that predicates capture.

  `Hands` are what scripts are run with. A script comes to the same with hands that agree in the primitives
  (`Script.run_rel`), by induction on the script, whose cases are the uses of handles. `Pool.hands` are those that
  use the handles of a pool.

  While a body reads a buffer, the buffer counts it among its readers. `Pool.ReadBy` says that the counts are right:
  the readers of each buffer are the bodies around that read it. What holds on through every single thing that is
  done with a pool holds on through scripts, and so do right counts (`Pool.Lasts.run`).
-/

import TokenScan.Proofs.Commands

namespace TokenScan

variable {m n : Type → Type} [Monad m] [Monad n] {σ α κ τ β γ : Type}

/-! ## Scans and what they ask -/

inductive Scan where
  | peekUntil
  | peekUntilWithin (limit : Nat)
  | nextIf
  | nextUntil
  | nextUntilWithin (limit : Nat)
  | skipIf
  | skipUntil
  | skipUntilWithin (limit : Nat)

namespace Scan

def run (l : Lookahead m α) (p : α → m Bool) : Scan → m (Answer α)
  | peekUntil => .flag <$> l.peekUntil p
  | peekUntilWithin limit => .flag <$> l.peekUntilWithin p limit
  | nextIf => .item <$> l.nextIf p
  | nextUntil => .item <$> l.nextUntil p
  | nextUntilWithin limit => .item <$> l.nextUntilWithin p limit
  | skipIf => .flag <$> l.skipIf p
  | skipUntil => .flag <$> l.skipUntil p
  | skipUntilWithin limit => .flag <$> l.skipUntilWithin p limit

theorem run_rel [LawfulMonad m] [LawfulMonad n] {S : Simulation m n} {l : Lookahead m α} {r : Lookahead n α}
    {p : α → m Bool} {q : α → n Bool} (h : S.Matches l r) (asked : ∀ a, S.Rel (p a) (q a)) (scan : Scan) :
    S.Rel (scan.run l p) (scan.run r q) := by
  cases scan with
  | peekUntil => exact S.rel_map _ (h.peekUntil asked)
  | peekUntilWithin limit => exact S.rel_map _ (h.peekUntilWithin asked limit)
  | nextIf => exact S.rel_map _ (h.nextIf asked)
  | nextUntil => exact S.rel_map _ (h.nextUntil asked)
  | nextUntilWithin limit => exact S.rel_map _ (h.nextUntilWithin asked limit)
  | skipIf => exact S.rel_map _ (S.rel_map _ (h.nextIf asked))
  | skipUntil => exact S.rel_map _ (S.rel_map _ (h.nextUntil asked))
  | skipUntilWithin limit => exact S.rel_map _ (S.rel_map _ (h.nextUntilWithin asked limit))

end Scan

inductive Pick (κ : Type) where
  | nextIfKind (kind : κ)
  | nextUntilIn (kinds : List κ)
  | nextUntilNotIn (kinds : List κ)
  | skipUntilIn (kinds : List κ)
  | skipUntilNotIn (kinds : List κ)

namespace Pick

variable [Kinded α κ] [DecidableEq κ]

def run (l : Lookahead m α) : Pick κ → m (Answer α)
  | nextIfKind kind => .item <$> l.nextIfKind kind
  | nextUntilIn kinds => .item <$> l.nextUntilIn kinds
  | nextUntilNotIn kinds => .item <$> l.nextUntilNotIn kinds
  | skipUntilIn kinds => .flag <$> l.skipUntilIn kinds
  | skipUntilNotIn kinds => .flag <$> l.skipUntilNotIn kinds

theorem run_rel [LawfulMonad m] [LawfulMonad n] {S : Simulation m n} {l : Lookahead m α} {r : Lookahead n α}
    (h : S.Matches l r) (pick : Pick κ) : S.Rel (pick.run l) (pick.run r) := by
  cases pick with
  | nextIfKind kind => exact S.rel_map _ (h.nextIf fun _ => S.rel_pure _)
  | nextUntilIn kinds => exact S.rel_map _ (h.nextUntil fun _ => S.rel_pure _)
  | nextUntilNotIn kinds => exact S.rel_map _ (h.nextUntil fun _ => S.rel_pure _)
  | skipUntilIn kinds => exact S.rel_map _ (S.rel_map _ (h.nextUntil fun _ => S.rel_pure _))
  | skipUntilNotIn kinds => exact S.rel_map _ (S.rel_map _ (h.nextUntil fun _ => S.rel_pure _))

end Pick

/-! ## Scripts -/

/-- A program over handles that comes to a `β`, with a state `τ` that all its parts can use. -/
inductive Script (σ α κ τ : Type) : Type → Type 1 where
  | done {β : Type} (result : β) : Script σ α κ τ β
  | bind {β γ : Type} (first : Script σ α κ τ γ) (rest : γ → Script σ α κ τ β) : Script σ α κ τ β
  | remember {β : Type} (f : τ → β × τ) : Script σ α κ τ β
  | next (h : Nat) : Script σ α κ τ (Option α)
  | peekAt (h distance : Nat) : Script σ α κ τ (Option α)
  | scan (h : Nat) (scan : Scan) (p : α → Script σ α κ τ Bool) : Script σ α κ τ (Answer α)
  | pick (h : Nat) (pick : Pick κ) : Script σ α κ τ (Answer α)
  | scanLimit (h : Nat) : Script σ α κ τ Nat
  /-- Anything that can be seen of a buffer: how many items wait, or whether it is at its end. -/
  | look {β : Type} (h : Nat) (see : Buffer σ α → β) : Script σ α κ τ β
  /-- Reads a buffer for as long as the body runs. -/
  | reading {β : Type} (h : Nat) (body : Buffer σ α → Script σ α κ τ β) : Script σ α κ τ β
  | handleCount (h : Nat) : Script σ α κ τ Nat
  | copy (h : Nat) : Script σ α κ τ Nat
  | drop (h : Nat) : Script σ α κ τ Unit
  /-- Brings in a buffer, and answers with the handle to it. -/
  | bring (buffer : Buffer σ α) (access : Access) : Script σ α κ τ Nat

structure Hands (m : Type → Type) (σ α τ : Type) where
  remember : {β : Type} → (τ → β × τ) → m β
  cursor : Nat → Lookahead m α
  buffer : Nat → m (Buffer σ α)
  reading : {β : Type} → Nat → (Buffer σ α → m β) → m β
  handleCount : Nat → m Nat
  copy : Nat → m Nat
  drop : Nat → m Unit
  bring : Buffer σ α → Access → m Nat

variable [Kinded α κ] [DecidableEq κ]

def Script.run {β : Type} (hands : Hands m σ α τ) : Script σ α κ τ β → m β
  | done result => pure result
  | bind first rest => do (rest (← first.run hands)).run hands
  | remember f => hands.remember f
  | next h => (hands.cursor h).next
  | peekAt h distance => (hands.cursor h).peekAt distance
  | scan h form p => form.run (hands.cursor h) fun a => (p a).run hands
  | pick h form => form.run (hands.cursor h)
  | scanLimit h => (hands.cursor h).scanLimit
  | look h see => see <$> hands.buffer h
  | reading h body => hands.reading h fun b => (body b).run hands
  | handleCount h => hands.handleCount h
  | copy h => hands.copy h
  | drop h => hands.drop h
  | bring b access => hands.bring b access

structure Hands.Matches (S : Simulation m n) (l : Hands m σ α τ) (r : Hands n σ α τ) : Prop where
  remember : ∀ {β : Type} (f : τ → β × τ), S.Rel (l.remember f) (r.remember f)
  cursor : ∀ h, S.Matches (l.cursor h) (r.cursor h)
  waiting : ∀ h, S.Rel ((l.cursor h).peekAt 0) ((r.cursor h).peekAt 0)
  buffer : ∀ h, S.Rel (l.buffer h) (r.buffer h)
  reading : ∀ {β : Type} (h : Nat) (x : Buffer σ α → m β) (y : Buffer σ α → n β), (∀ b, S.Rel (x b) (y b)) →
    S.Rel (l.reading h x) (r.reading h y)
  handleCount : ∀ h, S.Rel (l.handleCount h) (r.handleCount h)
  copy : ∀ h, S.Rel (l.copy h) (r.copy h)
  drop : ∀ h, S.Rel (l.drop h) (r.drop h)
  bring : ∀ b access, S.Rel (l.bring b access) (r.bring b access)

/-- Then whole scripts do. -/
theorem Script.run_rel [LawfulMonad m] [LawfulMonad n] {S : Simulation m n} {l : Hands m σ α τ} {r : Hands n σ α τ}
    (hands : l.Matches S r) (script : Script σ α κ τ β) : S.Rel (script.run l) (script.run r) := by
  induction script with
  | done result => exact S.rel_pure result
  | bind first rest first_ih rest_ih => exact S.rel_bind first_ih rest_ih
  | remember f => exact hands.remember f
  | next h => exact (hands.cursor h).next
  | peekAt h distance =>
    by_cases ahead : 0 < distance
    · exact (hands.cursor h).peekAt distance ahead
    · obtain rfl : distance = 0 := by omega
      exact hands.waiting h
  | scan h form p ih => exact form.run_rel (hands.cursor h) ih
  | pick h form => exact form.run_rel (hands.cursor h)
  | scanLimit h => exact (hands.cursor h).scanLimit
  | look h see => exact S.rel_map see (hands.buffer h)
  | reading h body ih => exact hands.reading h _ _ ih
  | handleCount h => exact hands.handleCount h
  | copy h => exact hands.copy h
  | drop h => exact hands.drop h
  | bring b access => exact hands.bring b access

/-! ## With the handles of a pool -/

namespace Pool

/-- A party that uses the handles of a pool and has a state of its own. -/
abbrev User (σ α τ : Type) := StateT τ (ScanT Id (Pool σ α))

def hands [Source Id σ α] : Hands (User σ α τ) σ α τ where
  remember f := modifyGet f
  cursor h := (cursor h : Lookahead (ScanT Id (Pool σ α)) α).lift
  buffer h := liftM (buffer h : ScanT Id (Pool σ α) (Buffer σ α))
  reading h body t := reading h fun b => body b t
  handleCount h := liftM ((·.handleCount h) <$> get : ScanT Id (Pool σ α) Nat)
  copy h := liftM (copy h : ScanT Id (Pool σ α) Nat)
  drop h := liftM (drop h : ScanT Id (Pool σ α) Unit)
  bring b access := liftM (adopt b access : ScanT Id (Pool σ α) Nat)

/-! ## What single uses come to -/

section

variable {p : Pool σ α} {h : Nat} {handle : Handle}

def entered (p : Pool σ α) (cell : Nat) : Pool σ α :=
  { p with cells := p.cells.modify cell fun c => { c with readers := c.readers + 1 } }

def left (p : Pool σ α) (cell : Nat) : Pool σ α :=
  { p with cells := p.cells.modify cell fun c => { c with readers := c.readers - 1 } }

/-- While a body runs, its buffer has a reader more; at its end, also if it breaks off, one less. -/
theorem reading_apply (named : p.handle? h = some handle) {c : Cell σ α} (found : p.cells[handle.cell]? = some c)
    (body : Buffer σ α → ScanT Id (Pool σ α) β) :
    reading h body p =
      ((body c.buffer (p.entered handle.cell)).1, (body c.buffer (p.entered handle.cell)).2.left handle.cell) := by
  have there : p.cell? h = some c := by simp [cell?, named, found]
  simp only [reading, named, there]
  rfl

theorem reading_of_no_cell {m : Type → Type} [Monad m] (gone : p.cell? h = none)
    (body : Buffer σ α → ScanT m (Pool σ α) β) : reading h body p = pure (.error (.deadHandle h), p) := by
  unfold reading
  rw [gone]
  cases p.handle? h with
  | none => rfl
  | some handle => rfl

/-- A buffer that nobody reads changes as it would in the hands of its owner. -/
theorem update_of_held {b : Buffer σ α} (x : ScanT Id (Buffer σ α) β) (named : p.handle? h = some handle)
    (held : p.cells[handle.cell]? = some ⟨b, 0⟩) : update h x p = ((x b).1, p.put handle.cell (x b).2) :=
  update_of_free x named held rfl

theorem update_cases (leads : ∀ handle, p.handle? h = some handle → handle.cell < p.cells.size)
    (x : ScanT Id (Buffer σ α) β) :
    (p.handle? h = none ∧ update h x p = (.error (.deadHandle h), p)) ∨
      ∃ handle, p.handle? h = some handle ∧
        ((∃ c, p.cells[handle.cell]? = some c ∧ c.readers ≠ 0 ∧ update h x p = (.error .beingRead, p)) ∨
          ∃ b, p.cells[handle.cell]? = some ⟨b, 0⟩ ∧ update h x p = ((x b).1, p.put handle.cell (x b).2)) := by
  cases named : p.handle? h with
  | none => exact .inl ⟨rfl, update_of_no_handle x named⟩
  | some handle =>
    refine .inr ⟨handle, rfl, ?_⟩
    have inside := leads handle named
    obtain ⟨⟨b, readers⟩, found⟩ : ∃ c, p.cells[handle.cell]? = some c := ⟨_, Array.getElem?_eq_getElem inside⟩
    by_cases free : readers = 0
    · subst free
      exact .inr ⟨b, found, update_of_held x named found⟩
    · exact .inl ⟨_, found, free, update_of_read x named found free⟩

/-- To look at a buffer leaves the pool as it is, and is never refused. -/
theorem buffer_granted (h : Nat) (p : Pool σ α) :
    ∃ answer, (buffer h : ScanT Id (Pool σ α) (Buffer σ α)) p = (answer, p) ∧ answer ≠ .error .beingRead := by
  refine ⟨_, rfl, ?_⟩
  cases p.buffer? h with
  | none => simp
  | some b => simp

theorem scanLimit_granted (h : Nat) (p : Pool σ α) :
    ∃ answer, (scanLimit h : ScanT Id (Pool σ α) Nat) p = (answer, p) ∧ answer ≠ .error .beingRead := by
  obtain ⟨answer, shown, granted⟩ := buffer_granted h p
  have limits : ∃ answer, ((do return (← buffer h).limits.items : ScanT Id (Pool σ α) Nat)) p = (answer, p) ∧
      answer ≠ .error .beingRead := by
    rw [ScanT.bind_apply, shown]
    cases answer with
    | ok b => exact ⟨_, rfl, by simp⟩
    | error fault => exact ⟨_, rfl, by simpa using granted⟩
  unfold scanLimit
  rw [ScanT.bind_ok (ScanT.get_apply p)]
  cases p.handle? h with
  | none => exact limits
  | some handle =>
    obtain ⟨cell, access⟩ := handle
    cases access with
    | minimal => exact ⟨_, rfl, by simp⟩
    | sole => exact limits
    | shared => exact limits

/-- A copy of a handle is a handle to the same buffer, or to a copy of the buffer. -/
theorem copy_cases (h : Nat) (p : Pool σ α) :
    (∃ answer, (copy h : ScanT Id (Pool σ α) Nat) p = (answer, p) ∧ answer ≠ .error .beingRead) ∨
      (∃ handle, p.handle? h = some handle ∧
        (copy h : ScanT Id (Pool σ α) Nat) p = (.ok p.handles.size, { p with handles := p.handles.push (some handle) })) ∨
      ∃ b access, (copy h : ScanT Id (Pool σ α) Nat) p = adopt b access p := by
  obtain ⟨answer, shown, granted⟩ := buffer_granted h p
  have copied (access : Access) :
      (∃ answer, (do adopt (← buffer h) access : ScanT Id (Pool σ α) Nat) p = (answer, p) ∧ answer ≠ .error .beingRead) ∨
        ∃ b access', (do adopt (← buffer h) access : ScanT Id (Pool σ α) Nat) p = adopt b access' p := by
    rw [ScanT.bind_apply, shown]
    cases answer with
    | ok b => exact .inr ⟨b, access, rfl⟩
    | error fault => exact .inl ⟨.error fault, rfl, by simpa using granted⟩
  unfold copy
  rw [ScanT.bind_ok (ScanT.get_apply p)]
  cases named : p.handle? h with
  | none => exact .inl ⟨_, rfl, by simp⟩
  | some handle =>
    obtain ⟨cell, access⟩ := handle
    cases access with
    | minimal => exact (copied .minimal).imp id .inr
    | sole => exact (copied .sole).imp id .inr
    | shared => exact .inr (.inl ⟨_, rfl, rfl⟩)

end

/-! ## Counting readers -/

section

variable {p : Pool σ α} {b : Buffer σ α} {within : List Nat} {cell h : Nat} {handle : Handle}

/-- Every handle leads to a buffer, and each buffer counts as its readers the bodies around that read it. -/
structure ReadBy (within : List Nat) (p : Pool σ α) : Prop where
  leads : ∀ h handle, p.handle? h = some handle → handle.cell < p.cells.size
  inside : ∀ cell ∈ within, cell < p.cells.size
  readers : ∀ cell c, p.cells[cell]? = some c → c.readers = within.count cell

namespace ReadBy

theorem empty : ReadBy [] (⟨#[], #[]⟩ : Pool σ α) where
  leads h handle named := by cases named
  inside cell mem := by cases mem
  readers cell c there := by simp at there

theorem held (read : ReadBy [] p) (named : p.handle? h = some handle) : ∃ b, p.cells[handle.cell]? = some ⟨b, 0⟩ := by
  obtain ⟨⟨b, readers⟩, found⟩ : ∃ c, p.cells[handle.cell]? = some c :=
    ⟨_, Array.getElem?_eq_getElem (read.leads h handle named)⟩
  obtain rfl : readers = 0 := read.readers _ _ found
  exact ⟨b, found⟩

theorem entered (read : ReadBy within p) (inside : cell < p.cells.size) : ReadBy (cell :: within) (p.entered cell) where
  leads h handle named := by
    rw [Pool.entered, Array.size_modify]
    exact read.leads h handle named
  inside other mem := by
    rw [Pool.entered, Array.size_modify]
    rcases List.mem_cons.mp mem with rfl | mem
    · exact inside
    · exact read.inside other mem
  readers other c there := by
    rw [Pool.entered, Array.getElem?_modify] at there
    rw [List.count_cons]
    split at there
    case isTrue here =>
      obtain ⟨c', found, rfl⟩ := Option.map_eq_some_iff.mp there
      simp [here, read.readers other c' found]
    case isFalse apart => simp [apart, read.readers other c there]

theorem left (read : ReadBy (cell :: within) p) : ReadBy within (p.left cell) where
  leads h handle named := by
    rw [Pool.left, Array.size_modify]
    exact read.leads h handle named
  inside other mem := by
    rw [Pool.left, Array.size_modify]
    exact read.inside other (List.mem_cons_of_mem _ mem)
  readers other c there := by
    rw [Pool.left, Array.getElem?_modify] at there
    split at there
    case isTrue here =>
      obtain ⟨c', found, rfl⟩ := Option.map_eq_some_iff.mp there
      have counted := read.readers other c' found
      rw [List.count_cons, if_pos (by simp [here])] at counted
      simp [counted]
    case isFalse apart =>
      have counted := read.readers other c there
      rwa [List.count_cons, if_neg (by simpa using apart), Nat.add_zero] at counted

theorem put (read : ReadBy within p) (held : p.cells[cell]? = some ⟨b, 0⟩) (b' : Buffer σ α) :
    ReadBy within (p.put cell b') where
  leads h handle named := by
    rw [Pool.put, Array.size_setIfInBounds]
    exact read.leads h handle named
  inside other mem := by
    rw [Pool.put, Array.size_setIfInBounds]
    exact read.inside other mem
  readers other c there := by
    rw [put_cells (Array.getElem?_eq_some_iff.mp held).1] at there
    split at there
    case isTrue here =>
      obtain rfl := Option.some.inj there
      have counted := read.readers cell _ held
      rwa [here] at counted
    case isFalse => exact read.readers other c there

theorem named (read : ReadBy within p) (inside : handle.cell < p.cells.size) :
    ReadBy within { p with handles := p.handles.push (some handle) } where
  leads h other named := by
    rw [handle?_of_push rfl] at named
    split at named
    · obtain rfl := Option.some.inj named
      exact inside
    · exact read.leads h other named
  inside := read.inside
  readers := read.readers

theorem adopted (read : ReadBy within p) (b : Buffer σ α) (access : Access) :
    ReadBy within ⟨p.cells.push ⟨b, 0⟩, p.handles.push (some ⟨p.cells.size, access⟩)⟩ where
  leads h handle named := by
    rw [Array.size_push]
    rw [handle?_of_push rfl] at named
    split at named
    · obtain rfl := Option.some.inj named
      exact Nat.lt_succ_self _
    · exact Nat.lt_succ_of_lt (read.leads h handle named)
  inside cell mem := by
    rw [Array.size_push]
    exact Nat.lt_succ_of_lt (read.inside cell mem)
  readers cell c there := by
    rw [Array.getElem?_push] at there
    split at there
    case isTrue here =>
      obtain rfl := Option.some.inj there
      -- nobody can be reading a buffer that was not there
      have unread : cell ∉ within := by
        intro mem
        have := read.inside cell mem
        omega
      exact (List.count_eq_zero.mpr unread).symm
    case isFalse => exact read.readers cell c there

theorem without (read : ReadBy within p) (h : Nat) : ReadBy within (p.without h) where
  leads g handle named := read.leads g handle (of_without named)
  inside := read.inside
  readers := read.readers

end ReadBy

end

/-! ## What lasts -/

theorem User.bind_apply (x : User σ α τ β) (f : β → User σ α τ γ) (t : τ) (p : Pool σ α) :
    (x >>= f) t p = match x t p with
      | (.ok (a, t'), q) => f a t' q
      | (.error fault, q) => (.error fault, q) := by
  have split := ScanT.bind_apply (x t) (fun r => f r.1 r.2) p
  rcases ran : x t p with ⟨fault | ⟨a, t'⟩, q⟩
  · rw [ran] at split
    exact split
  · rw [ran] at split
    exact split

theorem User.lift_apply (x : ScanT Id (Pool σ α) β) (t : τ) (p : Pool σ α) :
    (liftM x : User σ α τ β) t p = ((x p).1.map fun a => (a, t), (x p).2) := by
  show (x >>= fun a => pure (a, t)) p = _
  rw [ScanT.bind_apply]
  rcases x p with ⟨fault | a, q⟩
  · rfl
  · rfl

/-- It holds on through every single thing that is done with the buffers and handles of a pool. -/
structure Lasts [Source Id σ α] (J : Pool σ α → Prop) : Prop where
  next : ∀ p cell b, p.cells[cell]? = some ⟨b, 0⟩ → J p →
    J (p.put cell ((Buffer.next : ScanT Id (Buffer σ α) (Option α)) b).2)
  peekAt : ∀ p cell b distance, p.cells[cell]? = some ⟨b, 0⟩ → J p →
    J (p.put cell ((Buffer.peekAt distance : ScanT Id (Buffer σ α) (Option α)) b).2)
  named : ∀ p handle, J p → J { p with handles := p.handles.push (some handle) }
  adopted : ∀ p b access, J p → J ((adopt b access : ScanT Id (Pool σ α) Nat) p).2
  without : ∀ p h, J p → J (p.without h)
  entered : ∀ p cell, J p → J (p.entered cell)
  left : ∀ p cell, J p → J (p.left cell)

/-- Readers stay counted, and `J` true, whatever is being read around it. -/
def Keeps (J : Pool σ α → Prop) (x : User σ α τ β) : Prop :=
  ∀ within t p, ReadBy within p → J p → ReadBy within (x t p).2 ∧ J (x t p).2

theorem Keeps.bind {J : Pool σ α → Prop} {x : User σ α τ β} {f : β → User σ α τ γ} (hx : Keeps J x)
    (hf : ∀ a, Keeps J (f a)) : Keeps J (x >>= f) := by
  intro within t p read holds
  obtain ⟨read', holds'⟩ := hx within t p read holds
  rw [User.bind_apply]
  rcases ran : x t p with ⟨fault | ⟨a, t'⟩, q⟩
  · rw [ran] at read' holds'
    exact ⟨read', holds'⟩
  · rw [ran] at read' holds'
    exact hf a within t' q read' holds'

def keeping (J : Pool σ α → Prop) : Simulation (User σ α τ) (User σ α τ) where
  Rel x y := x = y ∧ Keeps J x
  rel_pure a := ⟨rfl, fun _ _ _ read holds => ⟨read, holds⟩⟩
  rel_bind := by
    intro β γ x y f g hx hf
    obtain ⟨rfl, kept⟩ := hx
    obtain rfl : f = g := funext fun a => (hf a).1
    exact ⟨rfl, kept.bind fun a => (hf a).2⟩

namespace Lasts

variable [Source Id σ α] {J : Pool σ α → Prop} {p : Pool σ α}

theorem nothing : Lasts fun _ : Pool σ α => True := by
  constructor <;> intros <;> trivial

omit [Source Id σ α] in
theorem rel_lift {x : ScanT Id (Pool σ α) β}
    (kept : ∀ within p, ReadBy within p → J p → ReadBy within (x p).2 ∧ J (x p).2) :
    (keeping J : Simulation (User σ α τ) (User σ α τ)).Rel (liftM x) (liftM x) := by
  refine ⟨rfl, ?_⟩
  intro within t p read holds
  rw [User.lift_apply]
  exact kept within p read holds

omit [Source Id σ α] in
theorem rel_update (h : Nat) {x : ScanT Id (Buffer σ α) β}
    (kept : ∀ p cell b, p.cells[cell]? = some ⟨b, 0⟩ → J p → J (p.put cell (x b).2)) :
    (keeping J : Simulation (User σ α τ) (User σ α τ)).Rel (liftM (update h x)) (liftM (update h x)) := by
  apply rel_lift
  intro within p read holds
  rcases update_cases (read.leads h) x with ⟨-, ran⟩ | ⟨handle, -, ⟨c, -, -, ran⟩ | ⟨b, held, ran⟩⟩
  · rw [ran]
    exact ⟨read, holds⟩
  · rw [ran]
    exact ⟨read, holds⟩
  · rw [ran]
    exact ⟨read.put held _, kept p handle.cell b held holds⟩

theorem rel_reading (lasts : Lasts J) (h : Nat) (x y : Buffer σ α → User σ α τ β)
    (body : ∀ b, (keeping J).Rel (x b) (y b)) : (keeping J).Rel (hands.reading h x) (hands.reading h y) := by
  obtain rfl : x = y := funext fun b => (body b).1
  refine ⟨rfl, ?_⟩
  intro within t p read holds
  show ReadBy within (reading h (fun b => x b t) p).2 ∧ J (reading h (fun b => x b t) p).2
  cases named : p.handle? h with
  | none =>
    rw [reading_of_no_cell (by simp [cell?, named])]
    exact ⟨read, holds⟩
  | some handle =>
    have inside := read.leads h handle named
    rw [reading_apply named (Array.getElem?_eq_getElem inside)]
    obtain ⟨read', holds'⟩ := (body _).2 _ t _ (read.entered inside) (lasts.entered p handle.cell holds)
    exact ⟨read'.left, lasts.left _ handle.cell holds'⟩

theorem hands_matches (lasts : Lasts J) : (hands : Hands (User σ α τ) σ α τ).Matches (keeping J) hands where
  remember f := ⟨rfl, fun _ _ _ read holds => ⟨read, holds⟩⟩
  cursor h := {
    next := rel_update h lasts.next
    peekAt := fun distance _ => rel_update h fun p cell b => lasts.peekAt p cell b distance
    scanLimit := by
      apply rel_lift
      intro within p read holds
      obtain ⟨answer, ran, -⟩ := scanLimit_granted h p
      rw [show (cursor h : Lookahead (ScanT Id (Pool σ α)) α).scanLimit p = _ from ran]
      exact ⟨read, holds⟩ }
  waiting h := rel_update h fun p cell b => lasts.peekAt p cell b 0
  buffer h := rel_lift fun _ _ read holds => ⟨read, holds⟩
  reading := lasts.rel_reading
  handleCount h := rel_lift fun _ _ read holds => ⟨read, holds⟩
  copy h := by
    apply rel_lift
    intro within p read holds
    rcases copy_cases h p with ⟨answer, ran, -⟩ | ⟨handle, named, ran⟩ | ⟨b, access, ran⟩
    · rw [ran]
      exact ⟨read, holds⟩
    · rw [ran]
      exact ⟨read.named (read.leads h handle named), lasts.named p handle holds⟩
    · rw [ran]
      exact ⟨read.adopted b access, lasts.adopted p b access holds⟩
  drop h := rel_lift fun _ p read holds => ⟨read.without h, lasts.without p h holds⟩
  bring b access := rel_lift fun _ p read holds => ⟨read.adopted b access, lasts.adopted p b access holds⟩

/-- What lasts through every single thing lasts through scripts. -/
theorem run (lasts : Lasts J) (read : ReadBy [] p) (holds : J p) (script : Script σ α κ τ β)
    (t : τ) : ReadBy [] (script.run hands t p).2 ∧ J (script.run hands t p).2 :=
  (Script.run_rel lasts.hands_matches script).2 [] t p read holds

end Lasts

end Pool

end TokenScan
