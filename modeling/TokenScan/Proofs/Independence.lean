/-
  TokenScan.Proofs.Independence — copies of a buffer do not interfere.

  A pool starts out empty, and any commands are carried out in it, in any order. Which handles were made from
  which by copying is read off the steps (`Made`, and `Stems` for a whole line of them).

  Two invariants carry the result, each over one command (`Effect`) and then over all of them. Two pools that
  differ only in what some handles lead to (`Agree`) keep agreeing on everything that does not stem from those
  handles. And a buffer changes just by what is asked of it, and answers as it would answer its owner
  (`answers_of_held`).
-/

import TokenScan.Proofs.Aliasing

namespace TokenScan

open Relation (ReflTransGen EqvGen)

variable {σ α κ τ : Type}

namespace Pool

/-! ## Pools that differ behind some handles -/

/-- Two pools have the same handles, and all but some of these lead to the same buffers. Handles that share a
    buffer are both among these or neither is. -/
structure Agree (touched : Nat → Prop) (p p' : Pool σ α) : Prop where
  handles : p'.handles = p.handles
  cells : p'.cells.size = p.cells.size
  old : ∀ g, touched g → g < p.handles.size
  closed : ∀ g k a b, p.handle? g = some a → p.handle? k = some b → a.cell = b.cell → touched g → touched k
  alike : ∀ g handle, p.handle? g = some handle → ¬ touched g → p'.cells[handle.cell]? = p.cells[handle.cell]?

theorem adding_buffer? {p : Pool σ α} (sound : p.Sound) (b : Buffer σ α) (k : Nat) :
    (p.adding b).buffer? k = if k = p.handles.size then some b else p.buffer? k := by
  rw [buffer?, cell?, adding_handle?]
  split
  case isTrue => simp [adding_cells]
  case isFalse =>
    rw [buffer?, cell?]
    cases named : p.handle? k with
    | none => rfl
    | some handle => simp [adding_cells, Nat.ne_of_lt (sound.inside named)]

namespace Agree

variable {touched : Nat → Prop} {p p' q q' : Pool σ α} {b b' : Buffer σ α} {h g : Nat} {handle : Handle}

theorem handle? (agree : Agree touched p p') (g : Nat) : p'.handle? g = p.handle? g := by
  rw [Pool.handle?, agree.handles]
  rfl

theorem buffer? (agree : Agree touched p p') (far : ¬ touched g) : p'.buffer? g = p.buffer? g := by
  simp only [Pool.buffer?, cell?, agree.handle?]
  cases named : p.handle? g with
  | none => rfl
  | some handle => simp [agree.alike g handle named far]

theorem leads (agree : Agree touched p p') (sound' : p'.Sound) (named : p.handle? h = some handle)
    (held : p.cells[handle.cell]? = some ⟨b, 0⟩) :
    p'.handle? h = some handle ∧ handle.access ≠ .minimal ∧
      ∃ b', p'.cells[handle.cell]? = some ⟨b', 0⟩ ∧ (¬ touched h → b' = b) := by
  have named' := (agree.handle? h).trans named
  obtain ⟨shows, b', held'⟩ := sound' h handle named'
  refine ⟨named', shows, b', held', fun far => ?_⟩
  rw [agree.alike h handle named far, held] at held'
  cases held'
  rfl

theorem put (agree : Agree touched p p') (named : p.handle? h = some handle) (inside : handle.cell < p.cells.size)
    (same : ¬ touched h → b' = b) : Agree touched (p.put handle.cell b) (p'.put handle.cell b') where
  handles := agree.handles
  cells := by simpa [Pool.put] using agree.cells
  old := agree.old
  closed := agree.closed
  alike g other found far := by
    rw [put_cells inside, put_cells (agree.cells ▸ inside)]
    split
    case isTrue here =>
      rw [same fun near => far (agree.closed h g handle other named found here near)]
    case isFalse => exact agree.alike g other found far

/-- A new handle is among the touched ones just if those are that name its cell. -/
theorem more {near : Prop} {new : Handle} (agree : Agree touched p p') (handles : q.handles = p.handles.push (some new))
    (handles' : q'.handles = p'.handles.push (some new)) (cells : q'.cells.size = q.cells.size)
    (kept : ∀ cell < p.cells.size, q.cells[cell]? = p.cells[cell]?) (kept' : ∀ cell < p.cells.size, q'.cells[cell]? = p'.cells[cell]?)
    (inside : ∀ g handle, p.handle? g = some handle → handle.cell < p.cells.size)
    (beside : ∀ g handle, p.handle? g = some handle → handle.cell = new.cell → (touched g ↔ near))
    (same : ¬ near → q'.cells[new.cell]? = q.cells[new.cell]?) :
    Agree (fun g => touched g ∨ near ∧ g = p.handles.size) q q' := by
  have fresh : ¬ touched p.handles.size := fun near => Nat.lt_irrefl _ (agree.old _ near)
  have touched_iff (g : Nat) : (touched g ∨ near ∧ g = p.handles.size) ↔ if g = p.handles.size then near else touched g := by
    split
    case isTrue here => simp [here, fresh]
    case isFalse other => simp [other]
  refine ⟨by rw [handles, handles', agree.handles], cells, ?_, ?_, ?_⟩
  · rintro g (before | ⟨-, rfl⟩)
    · exact handles ▸ Array.size_push _ ▸ Nat.lt_succ_of_lt (agree.old g before)
    · exact handles ▸ Array.size_push _ ▸ Nat.lt_succ_self _
  · intro g k a b found found' there
    rw [handle?_of_push handles] at found found'
    rw [touched_iff, touched_iff]
    split at found <;> split at found'
    case isTrue.isTrue first second => simp [first, second]
    case isTrue.isFalse first second =>
      obtain rfl := Option.some.inj found
      simp [first, second, beside k b found' there.symm]
    case isFalse.isTrue first second =>
      obtain rfl := Option.some.inj found'
      simp [first, second, beside g a found there]
    case isFalse.isFalse first second =>
      simpa [first, second] using agree.closed g k a b found found' there
  · intro g handle found far
    rw [handle?_of_push handles] at found
    rw [touched_iff] at far
    split at found
    case isTrue new =>
      obtain rfl := Option.some.inj found
      exact same (by simpa [new] using far)
    case isFalse other =>
      have hc := inside g handle found
      rw [kept _ hc, kept' _ hc]
      exact agree.alike g handle found (by simpa [other] using far)

theorem adding (agree : Agree touched p p') (sound : p.Sound) (near : Prop) (same : ¬ near → b' = b) :
    Agree (fun g => touched g ∨ near ∧ g = p.handles.size) (p.adding b) (p'.adding b') := by
  have handles' : (p'.adding b').handles = p'.handles.push (some ⟨p.cells.size, .sole⟩) := by
    rw [Pool.adding, agree.cells]
  refine agree.more rfl handles' ?_ ?_ ?_ (fun _ _ => sound.inside) ?_ ?_
  · simp [Pool.adding, agree.cells]
  · intro cell inside
    rw [adding_cells, if_neg (Nat.ne_of_lt inside)]
  · intro cell inside
    rw [adding_cells, agree.cells, if_neg (Nat.ne_of_lt inside)]
  · intro g handle named there
    exact absurd there (Nat.ne_of_lt (sound.inside named))
  · intro far
    rw [adding_cells, adding_cells, agree.cells, same far]
    simp

theorem aliasing (agree : Agree touched p p') (sound : p.Sound) (named : p.handle? h = some handle) :
    Agree (fun g => touched g ∨ touched h ∧ g = p.handles.size) (p.aliasing handle.cell) (p'.aliasing handle.cell) :=
  agree.more rfl rfl agree.cells (fun _ _ => rfl) (fun _ _ => rfl)
    (fun _ _ => sound.inside)
    (fun g other named' there => ⟨agree.closed g h other handle named' named there, agree.closed h g handle other named named' there.symm⟩)
    fun far => agree.alike h handle named far

/-- What is done to handles may let go of some, and leaves every other to its cell. -/
theorem handles_only (agree : Agree touched p p') (handles : q'.handles = q.handles)
    (size : q.handles.size = p.handles.size) (cells : q.cells = p.cells) (cells' : q'.cells = p'.cells)
    (kept : ∀ g handle, q.handle? g = some handle → ∃ before, p.handle? g = some before ∧ before.cell = handle.cell) :
    Agree touched q q' where
  handles := handles
  cells := by rw [cells, cells', agree.cells]
  old g near := size ▸ agree.old g near
  closed g k a b found found' there near := by
    obtain ⟨a', named, same⟩ := kept g a found
    obtain ⟨b', named', same'⟩ := kept k b found'
    exact agree.closed g k a' b' named named' (by rw [same, same', there]) near
  alike g handle found far := by
    obtain ⟨before, named, same⟩ := kept g handle found
    rw [cells, cells', ← same]
    exact agree.alike g before named far

end Agree

end Pool

/-! ## What is asked of a buffer -/

variable [Kinded α κ] [DecidableEq κ] [Source Id σ α]

/-- What a buffer answers its owner to these requests, one after the other; a fault ends only the request
    that it befalls. -/
def Buffer.answers (b : Buffer σ α) : List (Request σ α κ τ × τ) → List (Except Fault (Response α τ))
  | [] => []
  | (request, t) :: rest =>
    let (answer, left) := request.respond Buffer.reach t b
    answer :: left.answers rest

namespace Pool

def Command.asks? (p : Pool σ α) (cell : Nat) : Command σ α κ τ → Option (Request σ α κ τ × τ)
  | ask h request t => if (p.handle? h).any (·.cell == cell) then some (request, t) else none
  | _ => none

/-- What was asked of the buffer in a cell, and what came of it. -/
def exchanges (cell : Nat) (trace : List (Step σ α κ τ)) :
    List ((Request σ α κ τ × τ) × Except Fault (Response α τ)) :=
  trace.filterMap fun s => (s.command.asks? s.before cell).map fun asked => (asked, s.response)

variable {p p' q : Pool σ α} {b b' : Buffer σ α} {c : Command σ α κ τ}
  {trace : List (Step σ α κ τ)} {cell h g k new : Nat} {handle : Handle} {touched : Nat → Prop}

/-! ## What an operation leaves alone -/

def Command.handle? : Command σ α κ τ → Option Nat
  | bring _ => none
  | ask h _ _ | share h | copy h | fork h | drop h => some h

def Step.Makes (s : Step σ α κ τ) (h new : Nat) : Prop :=
  (s.command = .copy h ∨ s.command = .fork h) ∧ s.response = .ok (.handle new)

def Made (trace : List (Step σ α κ τ)) (h new : Nat) : Prop := ∃ s ∈ trace, s.Makes h new

/-- The handle is the other one, or was made from it over some steps. -/
def Stems (trace : List (Step σ α κ τ)) : Nat → Nat → Prop := ReflTransGen (Made trace)

theorem Stems.cons {s : Step σ α κ τ} (hk : h = k ∨ s.Makes h k) (stems : Stems trace k g) : Stems (s :: trace) h g := by
  have rest : Stems (s :: trace) k g := by
    refine ReflTransGen.mono ?_ _ _ stems
    rintro h k ⟨s', mem, makes⟩
    exact ⟨s', List.mem_cons_of_mem _ mem, makes⟩
  rcases hk with rfl | makes
  · exact rest
  · exact rest.head ⟨s, List.mem_cons_self, makes⟩

theorem Step.Makes.eq_size (makes : Step.Makes ⟨p, c⟩ h new) (sound : p.Sound) : new = p.handles.size := by
  obtain ⟨answer, q, ran, does⟩ := effect sound c
  have answered : answer = .ok (.handle new) := (congrArg Prod.fst ran).symm.trans makes.2
  cases does with
  | ask request t named held => exact absurd makes.1 (by simp)
  | bring | again | copy | fork =>
    cases answered
    rfl
  | share | drop | refused => cases answered

theorem handles_size_le (sound : p.Sound) (c : Command σ α κ τ) : p.handles.size ≤ (c.execute p).2.handles.size := by
  obtain ⟨answer, q, ran, does⟩ := effect sound c
  rw [ran]
  cases does <;> simp [put, adding, aliasing, sharing, without]

theorem Made.size_le {later : List (Command σ α κ τ)} (made : Made (steps p later) h g) (sound : p.Sound) :
    p.handles.size ≤ g := by
  induction later generalizing p with
  | nil =>
    obtain ⟨_, mem, -⟩ := made
    cases mem
  | cons c rest ih =>
    obtain ⟨s, mem, makes⟩ := made
    rcases List.mem_cons.mp mem with rfl | mem
    · exact Nat.le_of_eq (makes.eq_size sound).symm
    · exact Nat.le_trans (handles_size_le sound c) (ih ⟨s, mem, makes⟩ (sound.execute c))

/-- A handle that is there does not come to stem from another one. -/
theorem Stems.eq_of_lt {later : List (Command σ α κ τ)} (stems : Stems (steps p later) h g) (sound : p.Sound)
    (old : g < p.handles.size) : h = g := by
  cases stems with
  | refl => rfl
  | tail _ made => exact absurd old (Nat.not_lt.mpr (made.size_le sound))

/-- Pools that agree still do so after a command, but for what it makes of the handles that are touched. -/
theorem Agree.execute (agree : Agree touched p p') (sound : p.Sound) (sound' : p'.Sound) (c : Command σ α κ τ) :
    ∃ touched', Agree touched' (c.execute p).2 (c.execute p').2 ∧
      ∀ g, touched' g → touched g ∨ ∃ k, touched k ∧ Step.Makes ⟨p, c⟩ k g := by
  obtain ⟨answer, q, ran, does⟩ := effect sound c
  have answered : Step.response ⟨p, c⟩ = answer := congrArg Prod.fst ran
  rw [ran]
  -- a new handle is touched just if the one that it is made from is
  have spread {h g : Nat} (makes : Step.Makes ⟨p, c⟩ h p.handles.size) :
      touched g ∨ touched h ∧ g = p.handles.size → touched g ∨ ∃ k, touched k ∧ Step.Makes ⟨p, c⟩ k g
    | .inl before => .inl before
    | .inr ⟨near, new⟩ => .inr ⟨h, near, new ▸ makes⟩
  cases does with
  | bring b => exact ⟨_, agree.adding sound False fun _ => rfl, fun g near => .inl (by simpa using near)⟩
  | ask request t named held =>
    obtain ⟨named', shows, b', held', same⟩ := agree.leads sound' named held
    rw [ask_of_named named' shows held']
    exact ⟨touched, agree.put named (sound.inside named) fun far => by rw [same far], fun _ => .inl⟩
  | share h =>
    have handles : (p'.sharing h).handles = (p.sharing h).handles := by simp [sharing, agree.handles]
    exact ⟨touched, agree.handles_only handles (by simp [sharing]) rfl rfl fun _ _ => of_sharing, fun _ => .inl⟩
  | again named held =>
    obtain ⟨named', shows, b', held', -⟩ := agree.leads sound' named held
    rw [Command.execute, ScanT.map_ok (copy_of_named named' shows held')]
    exact ⟨_, agree.aliasing sound named, fun _ => spread ⟨.inl rfl, answered⟩⟩
  | copy named held =>
    obtain ⟨named', shows, b', held', same⟩ := agree.leads sound' named held
    rw [Command.execute, ScanT.map_ok (copy_of_named named' shows held')]
    exact ⟨_, agree.adding sound _ same, fun _ => spread ⟨.inl rfl, answered⟩⟩
  | fork named held =>
    obtain ⟨named', -, b', held', same⟩ := agree.leads sound' named held
    rw [Command.execute, ScanT.map_ok (fork_of_named named' held')]
    exact ⟨_, agree.adding sound _ same, fun _ => spread ⟨.inr rfl, answered⟩⟩
  | drop h =>
    have handles : (p'.without h).handles = (p.without h).handles := by simp [without, agree.handles]
    exact ⟨touched, agree.handles_only handles (by simp [without]) rfl rfl fun _ handle named => ⟨handle, of_without named, rfl⟩,
      fun _ => .inl⟩
  | refused through gone =>
    rw [execute_of_gone through ((agree.handle? _).trans gone)]
    exact ⟨touched, agree, fun _ => .inl⟩

theorem Agree.after (agree : Agree touched p p') (sound : p.Sound) (sound' : p'.Sound) (later : List (Command σ α κ τ)) :
    ∃ touched', Agree touched' (p.after later) (p'.after later) ∧
      ∀ g, touched' g → ∃ k, touched k ∧ Stems (steps p later) k g := by
  induction later generalizing p p' touched with
  | nil => exact ⟨touched, agree, fun g near => ⟨g, near, .refl⟩⟩
  | cons c rest ih =>
    obtain ⟨touched₁, agree₁, spread₁⟩ := agree.execute sound sound' c
    obtain ⟨touched₂, agree₂, spread₂⟩ := ih agree₁ (sound.execute c) (sound'.execute c)
    refine ⟨touched₂, agree₂, fun g near => ?_⟩
    obtain ⟨k, near₁, stems⟩ := spread₂ g near
    rcases spread₁ k near₁ with before | ⟨h, before, makes⟩
    · exact ⟨k, before, .cons (.inl rfl) stems⟩
    · exact ⟨h, before, .cons (.inr makes) stems⟩

/-- What comes of a command depends on nothing but the handle that it goes through. -/
theorem Agree.answer (agree : Agree touched p p') (sound : p.Sound) (sound' : p'.Sound) (through : c.handle? = some g)
    (far : ¬ touched g) : (c.execute p').1 = (c.execute p).1 := by
  obtain ⟨answer, q, ran, does⟩ := effect sound c
  rw [ran]
  cases does with
  | bring b => cases through
  | ask request t named held =>
    cases through
    obtain ⟨named', shows, b', held', same⟩ := agree.leads sound' named held
    rw [ask_of_named named' shows held', same far]
  | share h => rfl
  | again named held =>
    obtain ⟨named', shows, b', held', -⟩ := agree.leads sound' named held
    rw [Command.execute, ScanT.map_ok (copy_of_named named' shows held'), agree.handles]
  | copy named held =>
    obtain ⟨named', shows, b', held', -⟩ := agree.leads sound' named held
    rw [Command.execute, ScanT.map_ok (copy_of_named named' shows held'), agree.handles]
  | fork named held =>
    obtain ⟨named', -, b', held', -⟩ := agree.leads sound' named held
    rw [Command.execute, ScanT.map_ok (fork_of_named named' held'), agree.handles]
  | drop h => rfl
  | refused through gone => rw [execute_of_gone through ((agree.handle? _).trans gone)]

/-- A request touches just the handles to its buffer. -/
theorem agree_ask (sound : p.Sound) (h : Nat) (request : Request σ α κ τ) (t : τ) :
    Agree (fun k => p.sameBuffer h k = true) p ((Command.ask h request t).execute p).2 := by
  have start : Agree (fun k => p.sameBuffer h k = true) p p := by
    refine ⟨rfl, rfl, ?_, ?_, fun _ _ _ _ => rfl⟩
    · intro g near
      obtain ⟨_, _, -, named, -⟩ := sameBuffer_iff.mp near
      exact lt_of_handle? named
    · intro g k a b named named' there near
      obtain ⟨first, _, found, named₁, here⟩ := sameBuffer_iff.mp near
      cases named₁.symm.trans named
      exact sameBuffer_iff.mpr ⟨first, b, found, named', here.trans there⟩
  obtain ⟨answer, q, ran, does⟩ := effect sound (Command.ask h request t)
  rw [ran]
  cases does with
  | @ask _ handle b _ _ named held =>
    have touched : p.sameBuffer h h = true := sameBuffer_iff.mpr ⟨handle, handle, named, named, rfl⟩
    have changed : Agree _ (p.put handle.cell b) (p.put handle.cell (request.respond Buffer.reach t b).2) :=
      start.put named (sound.inside named) fun far => absurd touched far
    rwa [put_of_held held] at changed
  | refused through gone => exact start

/-! ## What a buffer answers -/

/-- A buffer changes just by what is asked of it, and answers as it would answer its owner. -/
theorem held_execute (sound : p.Sound) (held : p.cells[cell]? = some ⟨b, 0⟩) (c : Command σ α κ τ) :
    match c.asks? p cell with
    | some (request, t) => (c.execute p).1 = (request.respond Buffer.reach t b).1 ∧
        (c.execute p).2.cells[cell]? = some ⟨(request.respond Buffer.reach t b).2, 0⟩
    | none => (c.execute p).2.cells[cell]? = some ⟨b, 0⟩ := by
  have inside := (Array.getElem?_eq_some_iff.mp held).1
  have more (b' : Buffer σ α) : (p.adding b').cells[cell]? = some ⟨b, 0⟩ := by
    rw [adding_cells, if_neg (Nat.ne_of_lt inside), held]
  obtain ⟨answer, q, ran, does⟩ := effect sound c
  rw [ran]
  cases does with
  | bring b' => exact more b'
  | @ask h handle b' request t named held' =>
    by_cases here : handle.cell = cell
    · subst here
      cases held'.symm.trans held
      simp [Command.asks?, named, put_cells inside]
    · simp [Command.asks?, named, here, put_cells (sound.inside named), held]
  | share h => exact held
  | again named held' => exact held
  | copy named held' => exact more _
  | fork named held' => exact more _
  | drop h => exact held
  | @refused h _ through gone =>
    rcases through with rfl | rfl | ⟨request, t, rfl⟩
    · exact held
    · exact held
    · simpa [Command.asks?, gone] using held

theorem answers_of_held (sound : p.Sound) (held : p.cells[cell]? = some ⟨b, 0⟩) (later : List (Command σ α κ τ)) :
    (exchanges cell (steps p later)).map Prod.snd = b.answers ((exchanges cell (steps p later)).map Prod.fst) := by
  induction later generalizing p b with
  | nil => rfl
  | cons c rest ih =>
    have kept := held_execute sound held c
    rw [steps, exchanges, List.filterMap_cons]
    cases asked : c.asks? p cell with
    | none =>
      rw [asked] at kept
      exact ih (sound.execute c) kept
    | some request =>
      rw [asked] at kept
      obtain ⟨answered, left⟩ := kept
      exact congrArg₂ List.cons answered (ih (sound.execute c) left)

/-! ## Copies -/

/-- The command copies a buffer: it copies a plain handle, or the buffer while it is read. -/
def Command.Copies (p : Pool σ α) (h : Nat) (c : Command σ α κ τ) : Prop :=
  c = .fork h ∨ c = .copy h ∧ ∀ cell, p.handle? h ≠ some ⟨cell, .shared⟩

theorem Command.Copies.execute (copies : c.Copies p h) (sound : p.Sound) (found : p.buffer? h = some b) :
    c.execute p = (.ok (.handle p.handles.size), p.adding b) := by
  cases named : p.handle? h with
  | none => simp [buffer?, cell?, named] at found
  | some handle =>
    obtain ⟨shows, b', held⟩ := sound h handle named
    obtain rfl : b' = b := by simpa [buffer?, cell?, named, held] using found
    rcases copies with rfl | ⟨rfl, plain⟩
    · rw [Command.execute, ScanT.map_ok (fork_of_named named held)]
    · have access : handle.access ≠ .shared := fun shared => plain handle.cell (by rw [named, ← shared])
      rw [Command.execute, ScanT.map_ok (copy_of_named named shows held), if_neg access]

/-! ## Independence -/

/-- What is done through a handle leaves every other handle as it is, and its buffer too if they do not share it. -/
theorem execute_apart (sound : p.Sound) (through : c.handle? = some h) (live : (p.handle? g).isSome)
    (other : p.sameBuffer h g = false) :
    (c.execute p).2.handle? g = p.handle? g ∧ (c.execute p).2.buffer? g = p.buffer? g := by
  obtain ⟨handle', named'⟩ := Option.isSome_iff_exists.mp live
  have ne : h ≠ g := by
    rintro rfl
    simp [sameBuffer, named'] at other
  have old : g ≠ p.handles.size := Nat.ne_of_lt (lt_of_handle? named')
  have inside := sound.inside named'
  have more (b : Buffer σ α) : (p.adding b).handle? g = p.handle? g ∧ (p.adding b).buffer? g = p.buffer? g := by
    rw [adding_handle?, adding_buffer? sound, if_neg old, if_neg old]
    exact ⟨rfl, rfl⟩
  have same_cells {q : Pool σ α} (handles : q.handle? g = p.handle? g) (cells : q.cells = p.cells) :
      q.handle? g = p.handle? g ∧ q.buffer? g = p.buffer? g := by
    rw [buffer?, buffer?, cell?, cell?, handles, cells]
    exact ⟨rfl, rfl⟩
  obtain ⟨answer, q, ran, does⟩ := effect sound c
  rw [ran]
  cases does with
  | bring b => cases through
  | @ask _ handle b request t named held =>
    cases through
    have apart : handle.cell ≠ handle'.cell := by simpa [sameBuffer, named, named'] using other
    refine ⟨rfl, ?_⟩
    simp [buffer?, cell?, named', put_cells (sound.inside named), apart]
  | share _ =>
    cases through
    exact same_cells (by rw [sharing_handle?, if_neg ne]) rfl
  | again named held => exact same_cells (by rw [aliasing_handle?, if_neg old]) rfl
  | copy named held => exact more _
  | fork named held => exact more _
  | drop _ =>
    cases through
    exact same_cells (by rw [without_handle?, if_neg ne]) rfl
  | refused _ gone => exact ⟨rfl, rfl⟩

/-- What copies of buffers have to do with each other in a pool, and have had to do in the steps that led to it. -/
structure Independent (trace : List (Step σ α κ τ)) (p : Pool σ α) : Prop where
  /-- What is done through a handle leaves the buffers of the handles that are not its aliases as they are. -/
  apart : ∀ (c : Command σ α κ τ) h g, c.handle? = some h → (p.handle? g).isSome → p.sameBuffer h g = false →
    (c.execute p).2.handle? g = p.handle? g ∧ (c.execute p).2.buffer? g = p.buffer? g
  /-- Take a request out of a run. Then all handles are made and dropped as before, and whatever is done at any
      later time comes to the same, unless it goes through an alias of the handle of that request, or through a
      handle that was made from one of these since. -/
  untouched : ∀ h (request : Request σ α κ τ) t (later : List (Command σ α κ τ)), let q := ((Command.ask h request t).execute p).2
    (q.after later).handles = (p.after later).handles ∧
      ∀ g, (∀ k, p.sameBuffer h k = true → ¬ Stems (steps p later) k g) →
        (q.after later).buffer? g = (p.after later).buffer? g ∧
          ∀ c : Command σ α κ τ, c.handle? = some g → (c.execute (q.after later)).1 = (c.execute (p.after later)).1
  /-- The handles that are there by then do not come to stem from each other. -/
  old : ∀ k g, (p.handle? g).isSome → ∀ later : List (Command σ α κ τ), Stems (steps p later) k g → k = g
  /-- From any time on, all aliases of a handle together get what the owner of the buffer would get for the
      same requests, whatever is done in between through other handles. -/
  answers : ∀ g handle b, p.handle? g = some handle → p.buffer? g = some b → ∀ later : List (Command σ α κ τ),
    (exchanges handle.cell (steps p later)).map Prod.snd = b.answers ((exchanges handle.cell (steps p later)).map Prod.fst)
  /-- A copy of a plain handle, and a copy made while the buffer is read, is a plain handle that has no alias.
      It takes the buffer as it is then and gives, from then on, the answers that this buffer would give. -/
  copied : ∀ (c : Command σ α κ τ) g b, c.Copies p g → p.buffer? g = some b → ∃ new cell q,
    c.execute p = (.ok (.handle new), q) ∧ q.handle? new = some ⟨cell, .sole⟩ ∧
      (∀ k, q.sameBuffer new k = true ↔ k = new) ∧ q.buffer? new = some b ∧ q.buffer? g = some b ∧
      ∀ later : List (Command σ α κ τ),
        (exchanges cell (steps q later)).map Prod.snd = b.answers ((exchanges cell (steps q later)).map Prod.fst)
  equivalence : Equivalence fun h g : { h // (p.handle? h).isSome } => p.sameBuffer h g = true
  /-- Handles name one buffer just if they are joined by copies of shared handles. -/
  aliases : ∀ h g, (p.handle? h).isSome → (p.handle? g).isSome →
    (p.sameBuffer h g = true ↔ EqvGen (Aliased trace) h g)
  counted : ∀ h, (p.handle? h).isSome →
    p.handleCount h = {g | (p.handle? g).isSome ∧ EqvGen (Aliased trace) h g}.ncard

/-- Carry out any commands, in any order: bring in buffers, put requests through handles, share handles, copy
    them, copy buffers while they are read, and drop handles. Copies of a buffer do not interfere, neither with
    it nor with each other, and the handles to one buffer are those joined by copies of shared handles. -/
theorem copies_independent (commands : List (Command σ α κ τ)) :
    Independent (steps ⟨#[], #[]⟩ commands) (after ⟨#[], #[]⟩ commands) := by
  have start : Sound (⟨#[], #[]⟩ : Pool σ α) := .empty
  obtain ⟨home, homes⟩ := Homes.start.after start commands
  have sound := start.after commands
  rw [List.nil_append] at homes
  generalize after ⟨#[], #[]⟩ commands = p at homes sound
  generalize steps ⟨#[], #[]⟩ commands = trace at homes
  have held {g : Nat} {handle : Handle} {b : Buffer σ α} (named : p.handle? g = some handle) (found : p.buffer? g = some b) :
      p.cells[handle.cell]? = some ⟨b, 0⟩ := by
    obtain ⟨-, b', held⟩ := sound g handle named
    simpa [buffer?, cell?, named, held] using found
  refine ⟨fun c h g through live other => execute_apart sound through live other, ?_, ?_, ?_, ?_, ?_, ?_, ?_⟩
  · intro h request t later q
    have sound' : q.Sound := sound.execute _
    obtain ⟨touched, agree, stems⟩ := (agree_ask sound h request t).after sound sound' later
    refine ⟨agree.handles, fun g none => ?_⟩
    have far : ¬ touched g := by
      intro near
      obtain ⟨k, aliased, line⟩ := stems g near
      exact none k aliased line
    exact ⟨agree.buffer? far, fun c through => agree.answer (sound.after later) (sound'.after later) through far⟩
  · intro k g live later stems
    obtain ⟨_, named⟩ := Option.isSome_iff_exists.mp live
    exact stems.eq_of_lt sound (lt_of_handle? named)
  · intro g handle b named found later
    exact answers_of_held sound (held named found) later
  · intro c g b copies found
    have ran := copies.execute sound found
    have old : g ≠ p.handles.size := by
      rintro rfl
      simp [buffer?, cell?, handle?] at found
    refine ⟨p.handles.size, p.cells.size, p.adding b, ran, ?_, adding_sameBuffer sound b, ?_, ?_, fun later => ?_⟩
    · rw [adding_handle?, if_pos rfl]
    · rw [adding_buffer? sound, if_pos rfl]
    · rw [adding_buffer? sound, if_neg old, found]
    · exact answers_of_held (sound.adding b) (by rw [adding_cells, if_pos rfl]) later
  · exact sameBuffer_equivalence p
  · intro h g live live'
    exact homes.sameBuffer_iff live live'
  · intro h live
    exact homes.handleCount_eq live

/-- A copy that was made before the buffer was shared does not see what is consumed through the shared handles. -/
example :
    let chars : Buffer (CharStream (TextReader .cluster .utf8)) (Token .utf8 CharKind) := .ofSource ⟨.ofText ['a', 'b', '1']⟩
    let next (h : Nat) : Command _ (Token .utf8 CharKind) CharKind Unit := .ask h (.perform .next) ()
    let item (token : Token .utf8 CharKind) : Option (Response _ Unit) := some (.reply (.answer (.item (some token))) () [])
    let trace := steps ⟨#[], #[]⟩ [.bring chars, next 0, .copy 0, .share 0, .copy 0, next 2, next 0, next 1]
    (exchanges 0 trace).map (·.2.toOption) =
        [item ⟨⟨0, 1⟩, .lowercaseLetter⟩, item ⟨⟨1, 2⟩, .lowercaseLetter⟩, item ⟨⟨2, 3⟩, .digit⟩] ∧
      (exchanges 1 trace).map (·.2.toOption) = [item ⟨⟨1, 2⟩, .lowercaseLetter⟩] := by
  decide +kernel

end Pool

end TokenScan
