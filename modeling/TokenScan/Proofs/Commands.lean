/-
  TokenScan.Proofs.Commands — what is done with the handles of a pool, command by command.

  A `Pool.Command` brings a buffer into the pool, puts a request through a handle, or shares, copies, forks
  or drops a handle. Forking copies the buffer of a handle while it is being read.

  In a pool in which every handle leads to a buffer that nobody reads (`Pool.Sound`), a command does one of
  few things, and `Pool.Effect` says everything that it does. A request changes the one buffer that its handle
  names, just as it would change that buffer in the hands of its owner (`Pool.ask_of_named`); every other
  command changes handles only, or adds a buffer. `Pool.effect` is where commands are opened; all that is said
  about them later goes by the cases of `Pool.Effect`.
-/

import TokenScan.Proofs.Sharing

namespace TokenScan

variable {m : Type → Type} [Monad m] {σ α κ τ β : Type}

namespace Pool

/-! ## Changes to a pool -/

section

variable {p : Pool σ α} {b b' : Buffer σ α} {cell h g : Nat} {handle : Handle}

def put (p : Pool σ α) (cell : Nat) (b : Buffer σ α) : Pool σ α := { p with cells := p.cells.setIfInBounds cell ⟨b, 0⟩ }

def adding (p : Pool σ α) (b : Buffer σ α) : Pool σ α :=
  ⟨p.cells.push ⟨b, 0⟩, p.handles.push (some ⟨p.cells.size, .sole⟩)⟩

def aliasing (p : Pool σ α) (cell : Nat) : Pool σ α := { p with handles := p.handles.push (some ⟨cell, .shared⟩) }

def sharing (p : Pool σ α) (h : Nat) : Pool σ α :=
  { p with handles := p.handles.modify h (Option.map fun handle => { handle with access := .shared }) }

def without (p : Pool σ α) (h : Nat) : Pool σ α := { p with handles := p.handles.setIfInBounds h none }

theorem lt_of_handle? (named : p.handle? h = some handle) : h < p.handles.size := by
  by_contra outside
  rw [handle?, Array.getElem?_eq_none (Nat.le_of_not_lt outside)] at named
  cases named

@[simp] theorem put_handle? : (p.put cell b).handle? h = p.handle? h := rfl

@[simp] theorem put_put : (p.put cell b).put cell b' = p.put cell b' := by simp [put]

theorem put_cells (inside : cell < p.cells.size) (other : Nat) :
    (p.put cell b).cells[other]? = if cell = other then some ⟨b, 0⟩ else p.cells[other]? := by
  rw [put, Array.getElem?_setIfInBounds]
  simp [inside]

theorem put_of_held (held : p.cells[cell]? = some ⟨b, 0⟩) : p.put cell b = p := by
  obtain ⟨inside, there⟩ := Array.getElem?_eq_some_iff.mp held
  simp [put, ← there, Array.setIfInBounds, inside]

theorem adding_cells (other : Nat) :
    (p.adding b).cells[other]? = if other = p.cells.size then some ⟨b, 0⟩ else p.cells[other]? := Array.getElem?_push

theorem handle?_of_push {q : Pool σ α} (handles : q.handles = p.handles.push (some handle)) (g : Nat) :
    q.handle? g = if g = p.handles.size then some handle else p.handle? g := by
  rw [handle?, handles, Array.getElem?_push]
  split <;> rfl

theorem adding_handle? (g : Nat) :
    (p.adding b).handle? g = if g = p.handles.size then some ⟨p.cells.size, .sole⟩ else p.handle? g :=
  handle?_of_push rfl g

theorem aliasing_handle? (g : Nat) :
    (p.aliasing cell).handle? g = if g = p.handles.size then some ⟨cell, .shared⟩ else p.handle? g :=
  handle?_of_push rfl g

theorem sharing_handle? (g : Nat) :
    (p.sharing h).handle? g =
      if h = g then (p.handle? g).map fun handle => { handle with access := .shared } else p.handle? g := by
  rw [handle?, sharing, Array.getElem?_modify]
  split
  · rw [handle?]
    cases p.handles[g]? <;> rfl
  · rfl

theorem without_handle? (g : Nat) : (p.without h).handle? g = if h = g then none else p.handle? g := by
  rw [handle?, without, Array.getElem?_setIfInBounds]
  split
  · split <;> rfl
  · rfl

theorem of_sharing (named : (p.sharing h).handle? g = some handle) :
    ∃ before, p.handle? g = some before ∧ before.cell = handle.cell := by
  rw [sharing_handle?] at named
  split at named
  case isTrue =>
    obtain ⟨before, found, rfl⟩ := Option.map_eq_some_iff.mp named
    exact ⟨before, found, rfl⟩
  case isFalse => exact ⟨handle, named, rfl⟩

theorem of_without (named : (p.without h).handle? g = some handle) : p.handle? g = some handle := by
  rw [without_handle?] at named
  split at named
  case isTrue => cases named
  case isFalse => exact named

theorem buffer_apply (named : p.handle? h = some handle) (held : p.cells[handle.cell]? = some ⟨b, 0⟩) :
    (buffer h : ScanT Id (Pool σ α) (Buffer σ α)) p = (.ok b, p) := by
  have found : p.buffer? h = some b := by simp [buffer?, cell?, named, held]
  simp only [buffer, ScanT.ofStep, found]
  rfl

theorem buffer_of_no_handle (gone : p.handle? h = none) :
    (buffer h : ScanT Id (Pool σ α) (Buffer σ α)) p = (.error (.deadHandle h), p) := by
  have lost : p.buffer? h = none := by simp [buffer?, cell?, gone]
  simp only [buffer, ScanT.ofStep, lost]
  rfl

theorem fork_of_named (named : p.handle? h = some handle) (held : p.cells[handle.cell]? = some ⟨b, 0⟩) :
    (reading h fun b => adopt b .sole : ScanT Id (Pool σ α) Nat) p = (.ok p.handles.size, p.adding b) := by
  have found : p.cell? h = some ⟨b, 0⟩ := by simp [cell?, named, held]
  have inside := (Array.getElem?_eq_some_iff.mp held).1
  have released : ((p.cells.modify handle.cell fun c => { c with readers := c.readers + 1 }).push ⟨b, 0⟩).modify handle.cell
      (fun c => { c with readers := c.readers - 1 }) = p.cells.push ⟨b, 0⟩ := by
    apply Array.ext_getElem?
    intro i
    rw [Array.getElem?_modify, Array.getElem?_push, Array.getElem?_push, Array.getElem?_modify, Array.size_modify]
    split
    case isTrue here =>
      subst here
      rw [if_neg (Nat.ne_of_lt inside), if_neg (Nat.ne_of_lt inside), held]
      rfl
    case isFalse => rfl
  simp only [reading, named, found]
  simp only [adopt, ScanT.ofStep, bind, pure, Array.size_modify, released]
  rfl

theorem copy_of_named (named : p.handle? h = some handle) (shows : handle.access ≠ .minimal)
    (held : p.cells[handle.cell]? = some ⟨b, 0⟩) :
    (copy h : ScanT Id (Pool σ α) Nat) p =
      (.ok p.handles.size, if handle.access = .shared then p.aliasing handle.cell else p.adding b) := by
  unfold copy
  rw [ScanT.bind_ok (ScanT.get_apply p)]
  simp only [named]
  obtain ⟨cell, access⟩ := handle
  cases access with
  | shared => rfl
  | minimal => exact absurd rfl shows
  | sole =>
    simp only
    rw [ScanT.bind_ok (buffer_apply named held)]
    rfl

/-- Every handle leads to a buffer that nobody reads, and shows all of it. -/
def Sound (p : Pool σ α) : Prop :=
  ∀ h handle, p.handle? h = some handle → handle.access ≠ .minimal ∧ ∃ b, p.cells[handle.cell]? = some ⟨b, 0⟩

namespace Sound

theorem empty : Sound (⟨#[], #[]⟩ : Pool σ α) := by
  intro h handle named
  cases named

theorem inside (sound : p.Sound) (named : p.handle? h = some handle) :
    handle.cell < p.cells.size :=
  have ⟨_, _, held⟩ := sound h handle named
  (Array.getElem?_eq_some_iff.mp held).1

theorem put (sound : p.Sound) (inside : cell < p.cells.size) (b : Buffer σ α) : (p.put cell b).Sound := by
  intro h handle named
  obtain ⟨shows, b', held⟩ := sound h handle named
  refine ⟨shows, ?_⟩
  rw [put_cells inside]
  split
  · exact ⟨b, rfl⟩
  · exact ⟨b', held⟩

theorem adding (sound : p.Sound) (b : Buffer σ α) : (p.adding b).Sound := by
  intro h handle named
  rw [adding_handle?] at named
  split at named
  case isTrue =>
    obtain rfl := Option.some.inj named
    refine ⟨by simp, b, ?_⟩
    rw [adding_cells, if_pos rfl]
  case isFalse =>
    obtain ⟨shows, b', held⟩ := sound h handle named
    have inside := (Array.getElem?_eq_some_iff.mp held).1
    refine ⟨shows, b', ?_⟩
    rw [adding_cells, if_neg (Nat.ne_of_lt inside)]
    exact held

theorem aliasing (sound : p.Sound) (named : p.handle? h = some handle) : (p.aliasing handle.cell).Sound := by
  intro g other found
  rw [aliasing_handle?] at found
  split at found
  case isTrue =>
    obtain rfl := Option.some.inj found
    exact ⟨by simp, (sound h handle named).2⟩
  case isFalse => exact sound g other found

theorem sharing (sound : p.Sound) (h : Nat) : (p.sharing h).Sound := by
  intro g handle named
  rw [sharing_handle?] at named
  split at named
  case isTrue =>
    obtain ⟨before, found, rfl⟩ := Option.map_eq_some_iff.mp named
    exact ⟨by simp, (sound g before found).2⟩
  case isFalse => exact sound g handle named

theorem without (sound : p.Sound) (h : Nat) : (p.without h).Sound := by
  intro g handle named
  rw [without_handle?] at named
  split at named
  case isTrue => cases named
  case isFalse => exact sound g handle named

end Sound

end

end Pool

/-! ## Commands -/

inductive Response (α τ : Type) where
  /-- The reply to a request, the state that its predicates are left in, and what they were asked about. -/
  | reply (reply : Reply α) (state : τ) (asked : List α)
  /-- A new handle. -/
  | handle (h : Nat)
  | done
  deriving DecidableEq, Repr

variable [Kinded α κ] [DecidableEq κ]

def Request.respond (r : Reach m σ α) (request : Request σ α κ τ) (state : τ) : m (Response α τ) := do
  let (reply, state, asked) ← request.run r (state, [])
  return .reply reply state asked

namespace Pool

inductive Command (σ α κ τ : Type) where
  /-- Brings in a buffer, with a sole handle. -/
  | bring (buffer : Buffer σ α)
  /-- Puts a request through a handle; predicates in it start in this state. -/
  | ask (h : Nat) (request : Request σ α κ τ) (state : τ)
  /-- Lets a handle share its buffer. -/
  | share (h : Nat)
  | copy (h : Nat)
  /-- Copies the buffer that a handle names, as a reader of it. -/
  | fork (h : Nat)
  | drop (h : Nat)

variable [Source Id σ α]

/-- Carries out a command. A request through a handle that is not there is refused. -/
def Command.execute : Command σ α κ τ → ScanT Id (Pool σ α) (Response α τ)
  | bring b => .handle <$> adopt b .sole
  | ask h request state => do
    let _ ← buffer h
    request.respond (reach h) state
  | share h => (fun _ => .done) <$> setAccess h .shared
  | copy h => .handle <$> Pool.copy h
  | fork h => .handle <$> reading h fun b => adopt b .sole
  | drop h => (fun _ => .done) <$> Pool.drop h

section

variable {p : Pool σ α} {b : Buffer σ α} {cell h : Nat} {handle : Handle}

/-- What can be done through a handle comes to what the owner of its buffer can do, with the rest of the
    pool as it is. -/
theorem reach_matches_put (named : p.handle? h = some handle) (shows : handle.access ≠ .minimal)
    (inside : handle.cell < p.cells.size) :
    (reach h : Reach (ScanT Id (Pool σ α)) σ α).Matches (ScanT.simulation fun q b => q = p.put handle.cell b)
      Buffer.reach := by
  have held (b : Buffer σ α) : (p.put handle.cell b).cells[handle.cell]? = some ⟨b, 0⟩ := by
    rw [put_cells inside, if_pos rfl]
  have update {β : Type} (x : ScanT Id (Buffer σ α) β) :
      (ScanT.simulation fun q b => q = p.put handle.cell b).Rel (Pool.update h x) x := by
    rintro _ b rfl
    rw [update_of_free (p := p.put handle.cell b) x named (held b) rfl]
    exact ⟨rfl, put_put⟩
  have shown (b : Buffer σ α) := buffer_apply (p := p.put handle.cell b) named (held b)
  refine ⟨⟨update _, fun _ _ => update _, ?_⟩, update _, ?_, fun _ => update _⟩
  · rintro _ b rfl
    have found : (scanLimit h : ScanT Id (Pool σ α) Nat) (p.put handle.cell b) = (.ok b.limits.items, p.put handle.cell b) := by
      unfold scanLimit
      rw [ScanT.bind_ok (ScanT.get_apply _)]
      obtain ⟨cell, access⟩ := handle
      cases access with
      | minimal => exact absurd rfl shows
      | sole =>
        simp only [put_handle?, named]
        rw [ScanT.bind_ok (shown b)]
        rfl
      | shared =>
        simp only [put_handle?, named]
        rw [ScanT.bind_ok (shown b)]
        rfl
    simp only [reach, cursor, found]
    exact ⟨rfl, rfl⟩
  · rintro _ b rfl
    simp only [reach, shown b]
    exact ⟨rfl, rfl⟩

/-- A request changes the buffer that its handle names, as it would in the hands of its owner, and nothing else. -/
theorem ask_of_named (named : p.handle? h = some handle) (shows : handle.access ≠ .minimal)
    (held : p.cells[handle.cell]? = some ⟨b, 0⟩) (request : Request σ α κ τ) (t : τ) :
    (Command.ask h request t).execute p =
      ((request.respond Buffer.reach t b).1, p.put handle.cell (request.respond Buffer.reach t b).2) := by
  have inside := (Array.getElem?_eq_some_iff.mp held).1
  have hm := reach_matches_put named shows inside
  have same : (ScanT.simulation fun q b => q = p.put handle.cell b).Rel (request.respond (reach h) t)
      (request.respond Buffer.reach t) :=
    Simulation.rel_bind _ (Request.run_matches hm request (t, [])) fun _ => Simulation.rel_pure _ _
  obtain ⟨answered, left⟩ := same p b (put_of_held held).symm
  rw [Command.execute, ScanT.bind_ok (buffer_apply named held)]
  exact Prod.ext answered left

/-! ## What a command does -/

/-- Everything that a command does to a pool, by its answer and the pool that it leaves. -/
inductive Effect (p : Pool σ α) : Command σ α κ τ → Except Fault (Response α τ) → Pool σ α → Prop
  | bring (b : Buffer σ α) : Effect p (.bring b) (.ok (.handle p.handles.size)) (p.adding b)
  | ask {h : Nat} {handle : Handle} {b : Buffer σ α} (request : Request σ α κ τ) (t : τ)
      (named : p.handle? h = some handle) (held : p.cells[handle.cell]? = some ⟨b, 0⟩) :
      Effect p (.ask h request t) (request.respond Buffer.reach t b).1
        (p.put handle.cell (request.respond Buffer.reach t b).2)
  | share (h : Nat) : Effect p (.share h) (.ok .done) (p.sharing h)
  | again {h cell : Nat} {b : Buffer σ α} (named : p.handle? h = some ⟨cell, .shared⟩) (held : p.cells[cell]? = some ⟨b, 0⟩) :
      Effect p (.copy h) (.ok (.handle p.handles.size)) (p.aliasing cell)
  | copy {h cell : Nat} {b : Buffer σ α} (named : p.handle? h = some ⟨cell, .sole⟩) (held : p.cells[cell]? = some ⟨b, 0⟩) :
      Effect p (.copy h) (.ok (.handle p.handles.size)) (p.adding b)
  | fork {h : Nat} {handle : Handle} {b : Buffer σ α} (named : p.handle? h = some handle)
      (held : p.cells[handle.cell]? = some ⟨b, 0⟩) : Effect p (.fork h) (.ok (.handle p.handles.size)) (p.adding b)
  | drop (h : Nat) : Effect p (.drop h) (.ok .done) (p.without h)
  | refused {h : Nat} {c : Command σ α κ τ} (through : c = .copy h ∨ c = .fork h ∨ ∃ request t, c = .ask h request t)
      (gone : p.handle? h = none) : Effect p c (.error (.deadHandle h)) p

theorem execute_of_gone {c : Command σ α κ τ} (through : c = .copy h ∨ c = .fork h ∨ ∃ request t, c = .ask h request t)
    (gone : p.handle? h = none) : c.execute p = (.error (.deadHandle h), p) := by
  rcases through with rfl | rfl | ⟨request, t, rfl⟩
  · rw [Command.execute, Pool.copy, map_eq_pure_bind, ScanT.bind_apply, ScanT.bind_ok (ScanT.get_apply p)]
    simp only [gone]
    rfl
  · rw [Command.execute, map_eq_pure_bind, ScanT.bind_apply]
    simp only [reading, gone]
    rfl
  · rw [Command.execute, ScanT.bind_apply, buffer_of_no_handle gone]

theorem effect (sound : p.Sound) (c : Command σ α κ τ) : ∃ answer q, c.execute p = (answer, q) ∧ Effect p c answer q := by
  obtain ⟨answer, q, ran⟩ : ∃ answer q, c.execute p = (answer, q) := ⟨_, _, rfl⟩
  refine ⟨answer, q, ran, ?_⟩
  have refused {h : Nat} (through : c = .copy h ∨ c = .fork h ∨ ∃ request t, c = .ask h request t)
      (gone : p.handle? h = none) : Effect p c answer q := by
    cases (execute_of_gone through gone).symm.trans ran
    exact .refused through gone
  cases c with
  | bring b =>
    cases ran
    exact .bring b
  | ask h request t =>
    cases named : p.handle? h with
    | none => exact refused (.inr (.inr ⟨request, t, rfl⟩)) named
    | some handle =>
      obtain ⟨shows, b, held⟩ := sound h handle named
      cases (ask_of_named named shows held request t).symm.trans ran
      exact .ask request t named held
  | share h =>
    cases ran
    exact .share h
  | copy h =>
    cases named : p.handle? h with
    | none => exact refused (.inl rfl) named
    | some handle =>
      obtain ⟨shows, b, held⟩ := sound h handle named
      cases (ScanT.map_ok (copy_of_named named shows held)).symm.trans ran
      obtain ⟨cell, access⟩ := handle
      cases access with
      | shared => exact .again named held
      | minimal => exact absurd rfl shows
      | sole => exact .copy named held
  | fork h =>
    cases named : p.handle? h with
    | none => exact refused (.inr (.inl rfl)) named
    | some handle =>
      obtain ⟨-, b, held⟩ := sound h handle named
      cases (ScanT.map_ok (fork_of_named named held)).symm.trans ran
      exact .fork named held
  | drop h =>
    cases ran
    exact .drop h

theorem Sound.execute (sound : p.Sound) (c : Command σ α κ τ) : (c.execute p).2.Sound := by
  obtain ⟨answer, q, ran, does⟩ := effect sound c
  rw [ran]
  cases does with
  | bring b => exact sound.adding b
  | ask request t named held => exact sound.put (Array.getElem?_eq_some_iff.mp held).1 _
  | share h => exact sound.sharing h
  | again named held => exact sound.aliasing named
  | copy named held => exact sound.adding _
  | fork named held => exact sound.adding _
  | drop h => exact sound.without h
  | refused through gone => exact sound

/-! ## Commands carried out in turn -/

structure Step (σ α κ τ : Type) where
  before : Pool σ α
  command : Command σ α κ τ

def steps : Pool σ α → List (Command σ α κ τ) → List (Step σ α κ τ)
  | _, [] => []
  | p, c :: rest => ⟨p, c⟩ :: steps (c.execute p).2 rest

def after (p : Pool σ α) (commands : List (Command σ α κ τ)) : Pool σ α :=
  commands.foldl (fun p c => (c.execute p).2) p

def Step.response (s : Step σ α κ τ) : Except Fault (Response α τ) := (s.command.execute s.before).1

theorem Sound.after (sound : p.Sound) (commands : List (Command σ α κ τ)) : (p.after commands).Sound := by
  induction commands generalizing p with
  | nil => exact sound
  | cons c rest ih => exact ih (sound.execute c)

end

end Pool

end TokenScan
