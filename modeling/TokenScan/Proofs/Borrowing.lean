/-
  TokenScan.Proofs.Borrowing — when a buffer refuses to change because it is being read.

  `Pool.notingHands` run a script and note down each use of a handle that is reached (`Reached`), together with the
  cells that are being read by the bodies that the use is nested in. That is known from the script alone, and the
  pool is not asked for it; the pool counts readers, and refuses by that count.

  Where readers are counted right, a single use is refused just if it would change a buffer that a body around it
  reads (`Reached.Right`), and what is refused changes nothing. Counts stay right through whole scripts, so what is
  noted down accounts for all that happened (`Pool.noting_matches`).
-/

import TokenScan.Proofs.Scripts
import TokenScan.Source.Replay

namespace TokenScan

variable {σ α κ τ β γ : Type}

/-! ## Uses of handles -/

inductive Use where
  | next
  | peekAt (distance : Nat)
  | scanLimit
  | look
  | reading
  | handleCount
  | copy
  | drop
  deriving DecidableEq, Repr

/-- Whether the buffer has to let itself be changed; to look ahead may pull items into its queue. -/
def Use.changes : Use → Bool
  | next | peekAt _ => true
  | scanLimit | look | reading | handleCount | copy | drop => false

/-- A use of a handle that was reached, and what came of it. -/
structure Reached (σ α : Type) where
  use : Use
  handle : Nat
  /-- The cells that the bodies around it are reading, innermost first. -/
  within : List Nat
  before : Pool σ α
  after : Pool σ α
  fault : Option Fault

namespace Reached

def Inside (r : Reached σ α) : Prop := ∃ handle, r.before.handle? r.handle = some handle ∧ handle.cell ∈ r.within

def Refused (r : Reached σ α) : Prop := r.fault = some .beingRead

/-- It was refused just if it would have changed a buffer that is being read around it; and if it was, nothing
    changed. -/
structure Right (r : Reached σ α) : Prop where
  refused_iff : r.Refused ↔ r.use.changes = true ∧ r.Inside
  unchanged : r.Refused → r.after = r.before

end Reached

def faultOf : Except Fault β → Option Fault
  | .ok _ => none
  | .error fault => some fault

theorem faultOf_eq_some_iff {answer : Except Fault β} {fault : Fault} :
    faultOf answer = some fault ↔ answer = .error fault := by
  cases answer <;> simp [faultOf]

/-! ## Buffers that never refuse by themselves -/

namespace Buffer

variable [Source Id σ α] {fault : Fault} (never : ∀ s : σ, (Source.call s).1 ≠ .error fault)
include never

theorem next_ne_error (b : Buffer σ α) : ((next : ScanT Id (Buffer σ α) (Option α)) b).1 ≠ .error fault := by
  unfold next
  cases b.pending.pop? with
  | some front =>
    intro broke
    cases broke
  | none =>
    simp only [pull_apply]
    exact never b.source

theorem refill_ne_error (pulled missing : Nat) (b : Buffer σ α) :
    ((refill pulled missing : ScanT Id (Buffer σ α) Nat) b).1 ≠ .error fault := by
  induction missing generalizing pulled b with
  | zero =>
    intro broke
    cases broke
  | succ missing ih =>
    unfold refill
    rw [ScanT.bind_apply, pull_apply]
    have here := never b.source
    rcases called : Source.call b.source with ⟨other | _ | a, s⟩
    · rw [called] at here
      exact fun broke => here (congrArg Except.error (Except.error.inj broke))
    · intro broke
      cases broke
    · simp only
      rw [ScanT.bind_ok (ScanT.modify_apply _ _)]
      exact ih _ _

theorem peekAt_ne_error (distance : Nat) (b : Buffer σ α) :
    ((peekAt distance : ScanT Id (Buffer σ α) (Option α)) b).1 ≠ .error fault := by
  cases distance with
  | zero => simp [peekAt_zero_apply]
  | succ distance =>
    rw [peekAt_apply]
    have here := refill_ne_error never 0 (distance + 1 - b.buffered) b
    rcases ran : (refill 0 (distance + 1 - b.buffered) : ScanT Id (Buffer σ α) Nat) b with ⟨other | pulled, b'⟩
    · rw [ran] at here
      exact fun broke => here (congrArg Except.error (Except.error.inj broke))
    · simp

end Buffer

namespace Pool

variable {p q : Pool σ α} {within : List Nat} {h : Nat} {handle : Handle}

/-! ## Single uses -/

def contents (p : Pool σ α) : Array (Buffer σ α) := p.cells.map Cell.buffer

theorem contents_left (p : Pool σ α) (cell : Nat) : (p.left cell).contents = p.contents := by
  apply Array.ext_getElem?
  intro i
  simp only [contents, left, Array.getElem?_map, Array.getElem?_modify]
  split
  · simp [Function.comp_def]
  · rfl

theorem right_of_read {use : Use} {fault : Option Fault} (harmless : use.changes = false)
    (granted : fault ≠ some .beingRead) : (⟨use, h, within, p, q, fault⟩ : Reached σ α).Right where
  refused_iff := by simp [Reached.Refused, granted, harmless]
  unchanged refused := absurd refused granted

/-- What is to be done to a buffer through a handle is refused just if the buffer is being read. -/
theorem update_right (read : ReadBy within p) {x : ScanT Id (Buffer σ α) β} (granted : ∀ b, (x b).1 ≠ .error .beingRead)
    {use : Use} (changes : use.changes = true) :
    (⟨use, h, within, p, (update h x p).2, faultOf (update h x p).1⟩ : Reached σ α).Right := by
  rcases update_cases (read.leads h) x with ⟨gone, ran⟩ | ⟨handle, named, ⟨c, found, busy, ran⟩ | ⟨b, held, ran⟩⟩
  · rw [ran]
    refine ⟨?_, fun refused => by cases refused⟩
    simp [Reached.Refused, Reached.Inside, faultOf, gone]
  · have mem : handle.cell ∈ within := by
      rw [read.readers _ c found] at busy
      exact List.count_pos_iff.mp (Nat.pos_of_ne_zero busy)
    rw [ran]
    refine ⟨?_, fun _ => rfl⟩
    simp [Reached.Refused, Reached.Inside, faultOf, named, mem, changes]
  · have apart : handle.cell ∉ within := List.count_eq_zero.mp (read.readers _ _ held).symm
    rw [ran]
    refine ⟨?_, fun refused => absurd (faultOf_eq_some_iff.mp refused) (granted b)⟩
    simp [Reached.Refused, Reached.Inside, faultOf_eq_some_iff, granted, named, apart]

/-! ## Noting what is reached -/

/-- Computations on a pool and a state of their own, that note down what they reach. The cells that are read
    around them are given. -/
abbrev Noting (σ α τ : Type) := ReaderT (List Nat) (StateT τ (ScanT (StateM (List (Reached σ α))) (Pool σ α)))

namespace Noting

def quietly (x : ScanT Id (Pool σ α) β) : Noting σ α τ β :=
  fun _ t p noted => (((x p).1.map fun a => (a, t), (x p).2), noted)

def uses (use : Use) (h : Nat) (x : ScanT Id (Pool σ α) β) : Noting σ α τ β :=
  fun within t p noted =>
    (((x p).1.map fun a => (a, t), (x p).2), noted ++ [⟨use, h, within, p, (x p).2, faultOf (x p).1⟩])

end Noting

open Noting in
def notingHands [Source Id σ α] : Hands (Noting σ α τ) σ α τ where
  remember f := modifyGet f
  cursor h := ⟨uses .next h (cursor h).next, fun distance => uses (.peekAt distance) h ((cursor h).peekAt distance),
    uses .scanLimit h (cursor h).scanLimit⟩
  buffer h := uses .look h (buffer h)
  reading h body := do
    let _ ← uses .reading h (buffer h)
    fun within t p => reading h (fun b => body b ((p.handle? h).toList.map Handle.cell ++ within) t) p
  handleCount h := uses .handleCount h ((·.handleCount h) <$> get)
  copy h := uses .copy h (copy h)
  drop h := uses .drop h (drop h)
  bring b access := quietly (adopt b access)

/-- What has been noted down while something was done that ended so. -/
structure Accounts (noted : List (Reached σ α)) (ran : Except Fault β × Pool σ α) : Prop where
  right : ∀ r ∈ noted, r.Right
  broke_iff : ran.1 = .error .beingRead ↔ ∃ r ∈ noted, r.Refused
  unchanged : ∀ r ∈ noted, r.Refused → ran.2.contents = r.before.contents

theorem Accounts.nothing {ran : Except Fault β × Pool σ α} (granted : ran.1 ≠ .error .beingRead) : Accounts [] ran where
  right r mem := by cases mem
  broke_iff := by simp [granted]
  unchanged r mem := by cases mem

/-- What is noted first belongs to a part that did not break off. -/
theorem Accounts.append {first rest : List (Reached σ α)} {a : γ} {ran : Except Fault β × Pool σ α}
    (before : Accounts first (Except.ok a, p)) (after : Accounts rest ran) : Accounts (first ++ rest) ran := by
  have granted : ∀ r ∈ first, ¬r.Refused := by
    intro r mem refused
    have broke := before.broke_iff.mpr ⟨r, mem, refused⟩
    cases broke
  refine ⟨?_, ?_, ?_⟩
  · intro r mem
    rcases List.mem_append.mp mem with mem | mem
    · exact before.right r mem
    · exact after.right r mem
  · rw [after.broke_iff]
    constructor
    · rintro ⟨r, mem, refused⟩
      exact ⟨r, List.mem_append_right _ mem, refused⟩
    · rintro ⟨r, mem, refused⟩
      rcases List.mem_append.mp mem with mem | mem
      · exact absurd refused (granted r mem)
      · exact ⟨r, mem, refused⟩
  · intro r mem refused
    rcases List.mem_append.mp mem with mem | mem
    · exact absurd refused (granted r mem)
    · exact after.unchanged r mem refused

theorem Noting.bind_apply (x : Noting σ α τ β) (f : β → Noting σ α τ γ) (within : List Nat) (t : τ) (p : Pool σ α)
    (noted : List (Reached σ α)) :
    (x >>= f) within t p noted = match x within t p noted with
      | ((.ok (a, t'), q), noted) => f a within t' q noted
      | ((.error fault, q), noted) => ((.error fault, q), noted) := by
  simp only [bind, ReaderT.bind, StateT.bind, ExceptT.bind, ExceptT.mk]
  rcases ran : x within t p noted with ⟨⟨fault | ⟨a, t'⟩, q⟩, noted⟩
  · simp only [ExceptT.bindCont]
    rfl
  · simp only [ExceptT.bindCont]

/-- Noting down changes nothing, and what is noted accounts for what happened. -/
def notingSimulation (σ α τ : Type) : Simulation (User σ α τ) (Noting σ α τ) where
  Rel x y := Keeps (fun _ => True) x ∧ ∀ within t p noted, ReadBy within p →
    ∃ new, y within t p noted = (x t p, noted ++ new) ∧ Accounts new (x t p)
  rel_pure a := by
    refine ⟨fun _ _ _ read holds => ⟨read, holds⟩, ?_⟩
    intro within t p noted read
    exact ⟨[], by rw [List.append_nil]; rfl, .nothing (by intro broke; cases broke)⟩
  rel_bind := by
    intro β γ x y f g hx hf
    refine ⟨hx.1.bind fun a => (hf a).1, ?_⟩
    intro within t p noted read
    obtain ⟨read', -⟩ := hx.1 within t p read trivial
    obtain ⟨new, same, accounts⟩ := hx.2 within t p noted read
    rw [User.bind_apply, Noting.bind_apply, same]
    rcases ran : x t p with ⟨fault | ⟨a, t'⟩, q⟩
    · rw [ran] at accounts
      refine ⟨new, rfl, accounts.right, ?_, accounts.unchanged⟩
      rw [← accounts.broke_iff]
      simp
    · rw [ran] at read' accounts
      obtain ⟨more, same', accounts'⟩ := (hf a).2 within t' q (noted ++ new) read'
      refine ⟨new ++ more, ?_, accounts.append accounts'⟩
      rw [← List.append_assoc]
      exact same'

section

variable {x : ScanT Id (Pool σ α) β} {use : Use}

theorem broke_of_map {answer : Except Fault β} {f : β → γ} {fault : Fault} :
    answer.map f = .error fault ↔ answer = .error fault := by
  cases answer <;> simp [Except.map]

theorem rel_quietly (keeps : Keeps (fun _ => True) (liftM x : User σ α τ β)) (granted : ∀ p, (x p).1 ≠ .error .beingRead) :
    (notingSimulation σ α τ).Rel (liftM x) (Noting.quietly x) := by
  refine ⟨keeps, ?_⟩
  intro within t p noted read
  rw [User.lift_apply]
  refine ⟨[], by rw [List.append_nil]; rfl, .nothing ?_⟩
  rw [ne_eq, broke_of_map]
  exact granted p

theorem rel_uses (keeps : Keeps (fun _ => True) (liftM x : User σ α τ β))
    (right : ∀ within p, ReadBy within p → (⟨use, h, within, p, (x p).2, faultOf (x p).1⟩ : Reached σ α).Right) :
    (notingSimulation σ α τ).Rel (liftM x) (Noting.uses use h x) := by
  refine ⟨keeps, ?_⟩
  intro within t p noted read
  rw [User.lift_apply]
  refine ⟨_, rfl, ?_, ?_, ?_⟩
  · intro r mem
    obtain rfl := List.mem_singleton.mp mem
    exact right within p read
  · simp [broke_of_map, Reached.Refused, faultOf_eq_some_iff]
  · intro r mem refused
    obtain rfl := List.mem_singleton.mp mem
    exact congrArg contents ((right within p read).unchanged refused)

theorem rel_uses_read (keeps : Keeps (fun _ => True) (liftM x : User σ α τ β)) (harmless : use.changes = false)
    (granted : ∀ p, (x p).1 ≠ .error .beingRead) : (notingSimulation σ α τ).Rel (liftM x) (Noting.uses use h x) :=
  rel_uses keeps fun _ p _ => right_of_read harmless (faultOf_eq_some_iff.not.mpr (granted p))

end

theorem reading_apply_noting (named : p.handle? h = some handle) {c : Cell σ α} (found : p.cells[handle.cell]? = some c)
    (body : Buffer σ α → ScanT (StateM (List (Reached σ α))) (Pool σ α) β) (noted : List (Reached σ α)) :
    reading h body p noted =
      let ran := body c.buffer (p.entered handle.cell) noted
      ((ran.1.1, ran.1.2.left handle.cell), ran.2) := by
  have there : p.cell? h = some c := by simp [cell?, named, found]
  simp only [reading, named, there]
  rfl

variable [Source Id σ α]

/-- A body that reads a buffer, with the cell of that buffer given to what it reaches. -/
theorem rel_held (h : Nat) {x : Buffer σ α → User σ α τ β} {y : Buffer σ α → Noting σ α τ β}
    (body : ∀ b, (notingSimulation σ α τ).Rel (x b) (y b)) :
    (notingSimulation σ α τ).Rel (hands.reading h x)
      fun within t p => reading h (fun b => y b ((p.handle? h).toList.map Handle.cell ++ within) t) p := by
  refine ⟨(Lasts.nothing.rel_reading h x x fun b => ⟨rfl, (body b).1⟩).2, ?_⟩
  intro within t p noted read
  show ∃ new, reading h (fun b => y b ((p.handle? h).toList.map Handle.cell ++ within) t) p noted =
    (reading h (fun b => x b t) p, noted ++ new) ∧ Accounts new (reading h (fun b => x b t) p)
  cases named : p.handle? h with
  | none =>
    have gone : p.cell? h = none := by simp [cell?, named]
    rw [reading_of_no_cell gone, reading_of_no_cell gone]
    exact ⟨[], by rw [List.append_nil]; rfl, .nothing (by intro broke; cases broke)⟩
  | some handle =>
    have inside := read.leads h handle named
    have found := Array.getElem?_eq_getElem inside
    obtain ⟨new, same, accounts⟩ :=
      (body p.cells[handle.cell].buffer).2 (handle.cell :: within) t (p.entered handle.cell) noted (read.entered inside)
    rw [reading_apply named found, reading_apply_noting named found]
    refine ⟨new, ?_, accounts.right, accounts.broke_iff, ?_⟩
    · simp only [Option.toList_some, List.map_cons, List.map_nil, List.singleton_append, same]
    · intro r mem refused
      rw [contents_left]
      exact accounts.unchanged r mem refused

/-- To look at a buffer before it is read makes no difference. -/
theorem reading_looks_first (h : Nat) (x : Buffer σ α → User σ α τ β) :
    hands.reading h x = (hands.buffer h : User σ α τ (Buffer σ α)) >>= fun _ => hands.reading h x := by
  funext t p
  rw [User.bind_apply, show (hands.buffer h : User σ α τ (Buffer σ α)) t p = _ from User.lift_apply (buffer h) t p]
  cases there : p.cell? h with
  | some c =>
    have shown : p.buffer? h = some c.buffer := by simp [buffer?, there]
    simp only [buffer, ScanT.ofStep, shown]
    rfl
  | none =>
    have gone : p.buffer? h = none := by simp [buffer?, there]
    simp only [buffer, ScanT.ofStep, gone]
    show reading h (fun b => x b t) p = _
    rw [reading_of_no_cell there]
    rfl

theorem noting_matches (quiet : ∀ s : σ, (Source.call s).1 ≠ .error .beingRead) :
    (hands : Hands (User σ α τ) σ α τ).Matches (notingSimulation σ α τ) notingHands := by
  have keeps : (hands : Hands (User σ α τ) σ α τ).Matches (keeping fun _ => True) hands := Lasts.nothing.hands_matches
  have looks (use : Use) (harmless : use.changes = false) (h : Nat) :
      (notingSimulation σ α τ).Rel (hands.buffer h) (Noting.uses use h (buffer h)) := by
    apply rel_uses_read (keeps.buffer h).2 harmless
    intro p
    obtain ⟨answer, ran, granted⟩ := buffer_granted h p
    rwa [ran]
  refine ⟨?_, ?_, ?_, looks .look rfl, ?_, ?_, ?_, ?_, ?_⟩
  · intro β f
    refine ⟨(keeps.remember f).2, ?_⟩
    intro within t p noted read
    exact ⟨[], by rw [List.append_nil]; rfl, .nothing (by intro broke; cases broke)⟩
  · intro h
    refine ⟨?_, ?_, ?_⟩
    · exact rel_uses (keeps.cursor h).next.2 fun within p read => update_right read (Buffer.next_ne_error quiet) rfl
    · intro distance ahead
      exact rel_uses ((keeps.cursor h).peekAt distance ahead).2
        fun within p read => update_right read (Buffer.peekAt_ne_error quiet distance) rfl
    · apply rel_uses_read (keeps.cursor h).scanLimit.2 rfl
      intro p
      obtain ⟨answer, ran, granted⟩ := scanLimit_granted h p
      rwa [show (cursor h : Lookahead (ScanT Id (Pool σ α)) α).scanLimit p = _ from ran]
  · intro h
    exact rel_uses (keeps.waiting h).2 fun within p read => update_right read (Buffer.peekAt_ne_error quiet 0) rfl
  · intro β h x y body
    rw [reading_looks_first]
    exact Simulation.rel_bind _ (looks .reading rfl h) fun _ => rel_held h body
  · intro h
    exact rel_uses_read (keeps.handleCount h).2 rfl fun p => by intro broke; cases broke
  · intro h
    apply rel_uses_read (keeps.copy h).2 rfl
    intro p
    rcases copy_cases h p with ⟨answer, ran, granted⟩ | ⟨handle, named, ran⟩ | ⟨b, access, ran⟩
    · rwa [ran]
    · rw [ran]
      intro broke
      cases broke
    · rw [ran]
      intro broke
      cases broke
  · intro h
    exact rel_uses_read (keeps.drop h).2 rfl fun p => by intro broke; cases broke
  · intro b access
    exact rel_quietly (keeps.bring b access).2 fun p => by intro broke; cases broke

/-- Start any script where no buffer is being read, over sources that do not themselves fail as if they were. Noting
    down what is reached makes no difference to it. It breaks off because a buffer is being read just if it reaches
    a use that would change a buffer while a body around it is reading that one. Such a use is refused wherever it
    is reached, and no other is; what is refused changes nothing, and the buffers are left as they were then. -/
theorem refused_only_while_read [Kinded α κ] [DecidableEq κ]
    (quiet : ∀ s : σ, (Source.call s).1 ≠ .error .beingRead) (unread : ReadBy [] p) (script : Script σ α κ τ β) (t : τ) :
    let ran := script.run hands t p
    ∃ noted, script.run notingHands [] t p [] = (ran, noted) ∧
      (ran.1 = .error .beingRead ↔ ∃ r ∈ noted, r.use.changes = true ∧ r.Inside) ∧
      ∀ r ∈ noted, (r.Refused ↔ r.use.changes = true ∧ r.Inside) ∧
        (r.Refused → r.after = r.before ∧ ran.2.contents = r.before.contents) := by
  intro ran
  obtain ⟨noted, same, accounts⟩ := (Script.run_rel (noting_matches quiet) script).2 [] t p [] unread
  refine ⟨noted, same, ?_, ?_⟩
  · rw [accounts.broke_iff]
    constructor
    · rintro ⟨r, mem, refused⟩
      exact ⟨r, mem, (accounts.right r mem).refused_iff.mp refused⟩
    · rintro ⟨r, mem, changes⟩
      exact ⟨r, mem, (accounts.right r mem).refused_iff.mpr changes⟩
  · intro r mem
    have right := accounts.right r mem
    exact ⟨right.refused_iff, fun refused => ⟨right.unchanged refused, accounts.unchanged r mem refused⟩⟩

/-- Two handles to one buffer. While it is read through the first, the second shows how many items wait and scans
    none of them, but cannot consume. -/
theorem refused_only_while_read_twice :
    let script : Script (Replay (Token .utf8 CharKind)) _ CharKind Unit (Option (Token .utf8 CharKind)) :=
      .bind (.bring (.ofSource Buffer.letterForEver) .shared) fun h => .bind (.copy h) fun g =>
        .bind (.scan h (.peekUntilWithin 1) fun _ => .bind (.peekAt g 2) fun shown => .done shown.isNone) fun _ =>
          .reading h fun _ => .bind (.look g Buffer.buffered) fun _ =>
            .bind (.scan g (.nextUntilWithin 0) fun _ => .done true) fun _ => .next g
    let empty : Pool (Replay (Token .utf8 CharKind)) (Token .utf8 CharKind) := ⟨#[], #[]⟩
    ((∀ s : Replay (Token .utf8 CharKind), (Source.call s).1 ≠ .error .beingRead) ∧ ReadBy [] empty) ∧
      (script.run hands () empty).1 = .error .beingRead ∧
      ∃ noted, script.run notingHands [] () empty [] = (script.run hands () empty, noted) ∧
        ∃ r ∈ noted, r.Refused ∧ r.after = r.before := by
  intro script empty
  have quiet (s : Replay (Token .utf8 CharKind)) : (Source.call s).1 ≠ .error .beingRead := by
    intro broke
    cases broke
  have broke : (script.run hands () empty).1 = .error .beingRead := by
    rfl
  obtain ⟨noted, same, broke_iff, each⟩ := refused_only_while_read quiet ReadBy.empty script ()
  obtain ⟨r, mem, changes⟩ := broke_iff.mp broke
  have refused := (each r mem).1.mpr changes
  exact ⟨⟨quiet, ReadBy.empty⟩, broke, noted, same, r, mem, refused, ((each r mem).2 refused).1⟩

end Pool

end TokenScan
