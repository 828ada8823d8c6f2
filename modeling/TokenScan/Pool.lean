/-
  TokenScan.Pool — buffers reached through handles.

  Each buffer lies in a cell, and a handle names a cell. A `sole` handle is the only one to
  its buffer, and copying it copies the buffer; copies of a `shared` handle all name the same
  buffer, so what one consumes is gone for all. A `minimal` handle is a sole one that shows
  nothing of its buffer but items, so it does not know the buffer's scan limit.

  Every operation uses the buffer for a single step and lets go of it, so a predicate of a
  scan may use handles to the very buffer that is scanned. Only `reading` holds a buffer for
  longer: while its body runs, that buffer does not change, and whoever tries to change it
  meets the fault `beingRead`.
-/

import TokenScan.Buffer

namespace TokenScan

/-- What a handle may do with its buffer. -/
inductive Access where
  | sole
  | shared
  | minimal
  deriving DecidableEq, Repr

structure Handle where
  cell : Nat
  access : Access
  deriving DecidableEq, Repr

/-- A buffer and how many computations are reading it just now. -/
structure Cell (σ α : Type) where
  buffer : Buffer σ α
  readers : Nat

/-- Cells, and the handles to them by number; a handle that has been dropped leaves its place empty. -/
structure Pool (σ α : Type) where
  cells : Array (Cell σ α)
  handles : Array (Option Handle)

namespace Pool

variable {m : Type → Type} [Monad m] {σ α β : Type}

def ofBuffer (buffer : Buffer σ α) : Pool σ α := ⟨#[⟨buffer, 0⟩], #[some ⟨0, .sole⟩]⟩

/-! ## Finding a buffer -/

def handle? (p : Pool σ α) (h : Nat) : Option Handle := p.handles[h]?.join

def cell? (p : Pool σ α) (h : Nat) : Option (Cell σ α) := do p.cells[(← p.handle? h).cell]?

def buffer? (p : Pool σ α) (h : Nat) : Option (Buffer σ α) := (p.cell? h).map Cell.buffer

def handleCount (p : Pool σ α) (h : Nat) : Nat :=
  match p.handle? h with
  | none => 0
  | some handle => p.handles.countP (·.any (·.cell == handle.cell))

def sameBuffer (p : Pool σ α) (h g : Nat) : Bool :=
  match p.handle? h, p.handle? g with
  | some a, some b => a.cell == b.cell
  | _, _ => false

/-! ## Using a buffer -/

def buffer (h : Nat) : ScanT m (Pool σ α) (Buffer σ α) :=
  ScanT.ofStep fun p => (match p.buffer? h with | some b => .ok b | none => .error (.deadHandle h), p)

/-- Changes the buffer that the handle names; nobody may be reading it. The cell is changed in
    its place, so a long queue is not copied. -/
@[inline] def update (h : Nat) (x : ScanT m (Buffer σ α) β) : ScanT m (Pool σ α) β := fun ⟨cells, handles⟩ =>
  match handles[h]?.join with
  | none => pure (.error (.deadHandle h), ⟨cells, handles⟩)
  | some handle => do
    let change : Cell σ α → StateT (Except Fault β) m (Cell σ α) := fun ⟨buffer, readers⟩ _ =>
      if readers = 0 then do
        let (answer, buffer) ← x buffer
        pure (⟨buffer, readers⟩, answer)
      else pure (⟨buffer, readers⟩, .error .beingRead)
    let (cells, answer) ← (cells.modifyM handle.cell change).run (.error (.deadHandle h))
    pure (answer, ⟨cells, handles⟩)

theorem update_of_no_handle {p : Pool σ α} {h : Nat} (x : ScanT Id (Buffer σ α) β) (gone : p.handle? h = none) :
    update h x p = (.error (.deadHandle h), p) := by
  simp only [handle?] at gone
  simp only [update, gone]
  rfl

theorem update_of_read {p : Pool σ α} {h : Nat} {handle : Handle} {cell : Cell σ α} (x : ScanT Id (Buffer σ α) β)
    (named : p.handle? h = some handle) (found : p.cells[handle.cell]? = some cell) (read : cell.readers ≠ 0) :
    update h x p = (.error .beingRead, p) := by
  obtain ⟨inside, rfl⟩ := Array.getElem?_eq_some_iff.mp found
  simp only [handle?] at named
  simp only [update, named, Array.modifyM, inside, dif_pos, read, if_false]
  simp only [bind, pure, StateT.bind, StateT.run]
  exact congrArg (fun cells => (Except.error Fault.beingRead, Pool.mk cells p.handles)) (Array.set_getElem_self inside)

/-- Otherwise the buffer that the handle names changes, and no other does. -/
theorem update_of_free {p : Pool σ α} {h : Nat} {handle : Handle} {cell : Cell σ α} (x : ScanT Id (Buffer σ α) β)
    (named : p.handle? h = some handle) (found : p.cells[handle.cell]? = some cell) (free : cell.readers = 0) :
    update h x p = ((x cell.buffer).1,
      { p with cells := p.cells.setIfInBounds handle.cell { cell with buffer := (x cell.buffer).2 } }) := by
  obtain ⟨inside, rfl⟩ := Array.getElem?_eq_some_iff.mp found
  simp only [handle?] at named
  simp only [update, named, Array.modifyM, inside, dif_pos, free, if_true]
  simp only [bind, pure, StateT.bind, StateT.run, Array.setIfInBounds, inside, dif_pos]
  rfl

/-- Runs the body on the buffer that the handle names and keeps that buffer from changing
    until the body is done, also when it breaks off. -/
def reading (h : Nat) (body : Buffer σ α → ScanT m (Pool σ α) β) : ScanT m (Pool σ α) β := fun p =>
  match p.handle? h, p.cell? h with
  | some handle, some cell => do
    let entered := p.cells.modify handle.cell fun c => { c with readers := c.readers + 1 }
    let (answer, p) ← body cell.buffer { p with cells := entered }
    let left := p.cells.modify handle.cell fun c => { c with readers := c.readers - 1 }
    pure (answer, { p with cells := left })
  | _, _ => pure (.error (.deadHandle h), p)

def scanLimit (h : Nat) : ScanT m (Pool σ α) Nat := do
  match (← get).handle? h with
  | some ⟨_, .minimal⟩ => return ScanLimits.guarded.items
  | _ => return (← buffer h).limits.items

def cursor [Source m σ α] [MonadTrace m] (h : Nat) : Lookahead (ScanT m (Pool σ α)) α :=
  ⟨update h Buffer.next, fun d => update h (Buffer.peekAt d), scanLimit h⟩

def sizeHint [HasSizeHint σ] (h : Nat) : ScanT m (Pool σ α) SizeHint := do
  match (← get).handle? h with
  | some ⟨_, .sole⟩ => return HasSizeHint.sizeHint (← buffer h)
  | _ => return .unknown

/-! ## Handles -/

def setAccess (h : Nat) (access : Access) : ScanT m (Pool σ α) Unit :=
  modify fun p => { p with handles := p.handles.modify h (Option.map fun handle => { handle with access }) }

/-- A new handle, to a new cell that holds the buffer; answers with its number. -/
def adopt (buffer : Buffer σ α) (access : Access) : ScanT m (Pool σ α) Nat :=
  ScanT.ofStep fun p =>
    (.ok p.handles.size, ⟨p.cells.push ⟨buffer, 0⟩, p.handles.push (some ⟨p.cells.size, access⟩)⟩)

/-- A new handle, to a copy of the buffer that the handle names. -/
def fork (h : Nat) : ScanT m (Pool σ α) Nat := do adopt (← buffer h) .sole

/-- A new handle of the same access: to the same buffer if it is shared, and else to a copy. -/
def copy (h : Nat) : ScanT m (Pool σ α) Nat := do
  match (← get).handle? h with
  | none => throw (.deadHandle h)
  | some ⟨cell, .shared⟩ =>
    modifyGet fun p => (p.handles.size, { p with handles := p.handles.push (some ⟨cell, .shared⟩) })
  | some ⟨_, access⟩ => adopt (← buffer h) access

def drop (h : Nat) : ScanT m (Pool σ α) Unit :=
  modify fun p => { p with handles := p.handles.setIfInBounds h none }

def release (h : Nat) : ScanT m (Pool σ α) (Buffer σ α) := do
  let b ← buffer h
  drop h
  return b

end Pool

end TokenScan
