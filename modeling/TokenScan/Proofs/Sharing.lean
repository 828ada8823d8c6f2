/-
  TokenScan.Proofs.Sharing — all shared handles to a buffer act as one cursor.

  A `Program` uses the handles that it has, in any order, and copies them when it likes; its type
  counts them, so it can only use handles that are there. `Program.requests` is what it asks, one
  request after the other, whichever handle each goes through.

  While a buffer is shared (`Pool.Shares`), each primitive operation through any of its handles
  does to it what its owner would do (`Pool.reach_matches`), and a copy is one handle more
  (`Pool.copy_of_shares`). Two general rules carry that from single operations to programs: what
  agrees in the primitives agrees in every request (`Request.run_matches`), and what agrees in
  every request, for any number of handles, agrees in every program (`Program.run_rel`). So a
  program comes to what its requests come to on the plain buffer, and what it consumes through all
  the handles together are the first of the items, in order (`Pool.handles_act_as_one`).
-/

import TokenScan.Pool
import TokenScan.Proofs.Accounting
import TokenScan.Reader.Text

namespace TokenScan

open Stream'.Seq (ofList)

variable {m n : Type → Type} [Monad m] [Monad n] {σ σ' ρ α β κ τ : Type}

/-! ## Programs -/

/-- What is done by a party that has `count` handles to one buffer. -/
inductive Program (ρ : Type) : (count : Nat) → Type where
  | done {count : Nat} : Program ρ count
  /-- Puts a request through one of the handles. -/
  | ask {count : Nat} (handle : Fin count) (request : ρ) (rest : Program ρ count) : Program ρ count
  /-- Copies one of the handles. -/
  | copy {count : Nat} (handle : Fin count) (rest : Program ρ (count + 1)) : Program ρ count

namespace Program

def requests {count : Nat} : Program ρ count → List ρ
  | done => []
  | ask _ request rest => request :: rest.requests
  | copy _ rest => rest.requests

def run (perform : Nat → ρ → m β) (duplicate : Nat → m Nat) {count : Nat} :
    Program ρ count → Vector Nat count → m (List β)
  | done, _ => pure []
  | ask handle request rest, handles => do
    let reply ← perform handles[handle] request
    let replies ← rest.run perform duplicate handles
    return reply :: replies
  | copy handle rest, handles => do
    let new ← duplicate handles[handle]
    rest.run perform duplicate (handles.push new)

end Program

/-! ## From requests to programs -/

/-- Copying a handle is one handle more, and nothing else: `S` relates what is done with these
    handles to what is done without handles. -/
def Simulation.Copies (S : List Nat → Simulation m n) (duplicate : Nat → m Nat) : Prop :=
  ∀ (handles : List Nat) (h : Nat) {γ : Type} (f : Nat → m γ) (y : n γ), h ∈ handles →
    (∀ new, (S (handles ++ [new])).Rel (f new) y) → (S handles).Rel (duplicate h >>= f) y

namespace Simulation

variable {S : List Nat → Simulation m n} {duplicate : Nat → m Nat}

theorem Copies.stateT [LawfulMonad m] (copies : Copies S duplicate) :
    Copies (fun handles => (S handles).stateT τ) fun h => (liftM (duplicate h) : StateT τ m Nat) := by
  intro handles h γ f y mem hf t
  have same : ((liftM (duplicate h) : StateT τ m Nat) >>= f) t = duplicate h >>= fun new => f new t := by
    show (duplicate h >>= fun new => pure (new, t)) >>= (fun s => f s.1 s.2) = _
    simp only [bind_assoc, pure_bind]
  rw [same]
  exact copies handles h _ _ mem fun new => hf new t

/-- Relations between states make copying a handle more if it comes to a new handle. -/
theorem copies_of_relation {R : List Nat → σ → σ' → Prop} {duplicate : Nat → ScanT Id σ Nat}
    (copied : ∀ handles h s t, h ∈ handles → R handles s t →
      ∃ new s', duplicate h s = (.ok new, s') ∧ R (handles ++ [new]) s' t)
    (fewer : ∀ handles new s t, R (handles ++ [new]) s t → R handles s t) :
    Copies (fun handles => ScanT.simulation (R handles)) duplicate := by
  intro handles h γ f y mem hf s t related
  obtain ⟨new, s', ran, related'⟩ := copied handles h s t mem related
  obtain ⟨same, left⟩ := hf new s' t related'
  rw [ScanT.bind_ok ran]
  exact ⟨same, fewer handles new _ _ left⟩

end Simulation

/-- If every request does the same through any of the handles as without handles, then a program does
    the same as its requests without handles. -/
theorem Program.run_rel [LawfulMonad m] [LawfulMonad n] {S : List Nat → Simulation m n} {perform : Nat → ρ → m β}
    {duplicate : Nat → m Nat} {plain : ρ → n β} (copies : Simulation.Copies S duplicate)
    (performs : ∀ handles, ∀ h ∈ handles, ∀ request, (S handles).Rel (perform h request) (plain request))
    {count : Nat} (program : Program ρ count) (handles : Vector Nat count) :
    (S handles.toList).Rel (program.run perform duplicate handles) (program.requests.mapM plain) := by
  have mem {count : Nat} (handles : Vector Nat count) (handle : Fin count) : handles[handle] ∈ handles.toList :=
    Vector.mem_toList_iff.mpr (Vector.getElem_mem handle.isLt)
  induction program with
  | done => exact (S _).rel_pure []
  | ask handle request rest ih =>
    rw [Program.requests, List.mapM_cons]
    apply (S _).rel_bind (performs _ _ (mem handles handle) request)
    intro reply
    exact (S _).rel_bind (ih handles) fun replies => (S _).rel_pure (reply :: replies)
  | copy handle rest ih =>
    apply copies _ _ _ _ (mem handles handle)
    intro new
    have further := ih (handles.push new)
    rw [Vector.toList_push] at further
    exact further

/-! ## A shared buffer -/

namespace Pool

/-- The handles are shared ones to one cell, which holds the buffer, and nobody is reading it. -/
structure Shares (cell : Nat) (handles : List Nat) (p : Pool σ α) (b : Buffer σ α) : Prop where
  held : p.cells[cell]? = some ⟨b, 0⟩
  named : ∀ h ∈ handles, p.handle? h = some ⟨cell, .shared⟩

variable {p : Pool σ α} {b : Buffer σ α} {cell h : Nat} {handles : List Nat}

namespace Shares

theorem fewer {new : Nat} (s : Shares cell (handles ++ [new]) p b) : Shares cell handles p b :=
  ⟨s.held, fun h mem => s.named h (List.mem_append_left _ mem)⟩

theorem buffer? (s : Shares cell handles p b) (mem : h ∈ handles) : p.buffer? h = some b := by
  simp [Pool.buffer?, cell?, s.named h mem, s.held]

theorem update (s : Shares cell handles p b) (mem : h ∈ handles) (x : ScanT Id (Buffer σ α) β) :
    (Pool.update h x p).1 = (x b).1 ∧ Shares cell handles (Pool.update h x p).2 (x b).2 := by
  rw [update_of_free x (s.named h mem) s.held rfl]
  refine ⟨rfl, ?_, s.named⟩
  have inside := (Array.getElem?_eq_some_iff.mp s.held).1
  simp [inside]

end Shares

theorem adopt_shares (p : Pool σ α) (b : Buffer σ α) :
    Shares p.cells.size [p.handles.size] ((adopt b .shared : ScanT Id (Pool σ α) Nat) p).2 b where
  held := Array.getElem?_push_size
  named h mem := by
    obtain rfl := List.mem_singleton.mp mem
    exact congrArg Option.join Array.getElem?_push_size

theorem copy_of_shares (mem : h ∈ handles) (s : Shares cell handles p b) :
    ∃ new p', (copy h : ScanT Id (Pool σ α) Nat) p = (.ok new, p') ∧ Shares cell (handles ++ [new]) p' b := by
  refine ⟨p.handles.size, { p with handles := p.handles.push (some ⟨cell, .shared⟩) }, ?_, s.held, ?_⟩
  · unfold copy
    rw [ScanT.bind_ok (ScanT.get_apply p)]
    simp only [s.named h mem]
    rfl
  · intro g mem'
    rcases List.mem_append.mp mem' with old | new
    · have named := s.named g old
      unfold handle? at named ⊢
      have inside : g < p.handles.size := by
        by_contra outside
        rw [Array.getElem?_eq_none (Nat.le_of_not_lt outside)] at named
        cases named
      rw [Array.getElem?_push_lt inside, ← Array.getElem?_eq_getElem inside]
      exact named
    · obtain rfl := List.mem_singleton.mp new
      simp [handle?]

theorem copies (cell : Nat) :
    Simulation.Copies (fun handles => ScanT.simulation (Shares cell handles : Pool σ α → Buffer σ α → Prop)) copy :=
  Simulation.copies_of_relation (fun _ _ _ _ mem s => copy_of_shares mem s) fun _ _ _ _ s => s.fewer

/-- A pool that shares the buffer, with the list of what has been consumed through the handles, and the
    buffer with the list of what its owner has consumed. -/
def SharesRecorded (cell : Nat) (handles : List Nat) : Pool σ α × List α → Buffer.Moment σ α → Prop :=
  fun (p, taken) (b, taken') => Shares cell handles p b ∧ taken = taken'

theorem copies_recorded (cell : Nat) :
    Simulation.Copies (fun handles => ScanT.simulation (SharesRecorded cell handles : Pool σ α × List α → _ → Prop))
      fun h => ScanT.beside (copy h) := by
  refine Simulation.copies_of_relation ?_ fun _ _ _ _ h => ⟨h.1.fewer, h.2⟩
  rintro handles h ⟨p, taken⟩ ⟨b, _⟩ mem ⟨s, rfl⟩
  obtain ⟨new, p', ran, s'⟩ := copy_of_shares mem s
  refine ⟨new, (p', taken), ?_, s', rfl⟩
  simp only [ScanT.beside, ran]

/-! ## Through the handles and by the owner -/

variable [Source Id σ α]

def reach (h : Nat) : Reach (ScanT Id (Pool σ α)) σ α :=
  ⟨cursor h, buffer h, fun limits => update h (modify (·.withLimits limits))⟩

/-- Through any of the handles, the same can be done with the buffer as by its owner. -/
theorem reach_matches (mem : h ∈ handles) :
    (reach h : Reach (ScanT Id (Pool σ α)) σ α).Matches (ScanT.simulation (Shares cell handles)) Buffer.reach where
  cursor.next p b s := s.update mem _
  cursor.peekAt distance _ p b s := s.update mem _
  cursor.scanLimit p b s := by
    have shown : (Pool.buffer h : ScanT Id (Pool σ α) (Buffer σ α)) p = (.ok b, p) := by
      simp only [Pool.buffer, ScanT.ofStep, s.buffer? mem]
      rfl
    have found : (scanLimit h : ScanT Id (Pool σ α) Nat) p = (.ok b.limits.items, p) := by
      unfold scanLimit
      rw [ScanT.bind_ok (ScanT.get_apply p)]
      simp only [s.named h mem]
      rw [ScanT.bind_ok shown]
      rfl
    simp only [reach, cursor, found]
    exact ⟨rfl, s⟩
  waiting p b s := s.update mem _
  buffer p b s := by
    simp only [reach, Pool.buffer, ScanT.ofStep, s.buffer? mem]
    exact ⟨rfl, s⟩
  withLimits limits p b s := s.update mem _

variable [Kinded α κ] [DecidableEq κ]

def run {count : Nat} (program : Program (Request σ α κ τ) count) (handles : Vector Nat count) :
    StateT (τ × List α) (ScanT Id (Pool σ α)) (List (Reply α)) :=
  program.run (fun h => Request.run (reach h)) (fun h => liftM (copy h : ScanT Id (Pool σ α) Nat)) handles

def runRecorded {count : Nat} (program : Program (Request σ α κ τ) count) (handles : Vector Nat count) :
    StateT (τ × List α) (ScanT Id (Pool σ α × List α)) (List (Reply α)) :=
  program.run (fun h => Request.run (reach h).recorded)
    (fun h => liftM (ScanT.beside (copy h) : ScanT Id (Pool σ α × List α) Nat)) handles

/-- Take any buffer, share it beside whatever else there is, and run any program with the one
    handle to it and with the copies that the program makes. The replies, the fault that ends the
    program if one does, and the buffer that is left are those of its requests on the plain
    buffer. What all handles together consume, in order of time, followed by what the buffer still
    holds, is what it held before; so over a source without pauses these are its first items. -/
theorem handles_act_as_one (p : Pool σ α) (b : Buffer σ α) (program : Program (Request σ α κ τ) 1) (t : τ × List α) :
    let shared := ((adopt b .shared : ScanT Id (Pool σ α) Nat) p).2
    let through := run program #v[p.handles.size] t shared
    let recorded := runRecorded program #v[p.handles.size] t (shared, [])
    let alone := program.requests.mapM (Request.run Buffer.reach) t b
    (through.1 = alone.1 ∧ through.2.buffer? p.handles.size = some alone.2) ∧
      (recorded.1 = alone.1 ∧ recorded.2.1.buffer? p.handles.size = some alone.2) ∧
      (ofList recorded.2.2).append alone.2.items = b.items ∧
      ∀ items, b.Holds items → recorded.2.2 = items.take recorded.2.2.length := by
  intro shared through recorded alone
  have mem : p.handles.size ∈ #v[p.handles.size].toList := List.mem_singleton_self _
  have shares := adopt_shares p b
  obtain ⟨same, left⟩ := Program.run_rel (copies p.cells.size).stateT
    (fun _ _ mem => Request.run_matches (reach_matches mem)) program #v[p.handles.size] t shared b shares
  obtain ⟨same', left', taken⟩ := Program.run_rel (copies_recorded p.cells.size).stateT
    (fun _ _ mem => Request.run_matches (reach_matches mem).recorded) program #v[p.handles.size] t (shared, []) (b, [])
    ⟨shares, rfl⟩
  -- what the owner of the plain buffer consumes is written down as well
  obtain ⟨plain, kept, follows⟩ := Buffer.run_follows (b, []) program.requests t
  have whole : (ofList recorded.2.2).append alone.2.items = b.items := by
    have accounted := follows.taken_append_items
    rw [kept, ← taken] at accounted
    exact accounted
  refine ⟨⟨same, left.buffer? mem⟩, ⟨same'.trans plain, ?_⟩, whole, ?_⟩
  · rw [← kept]
    exact left'.buffer? mem
  · intro items holds
    rw [← holds.items_eq, ← whole, Items.take_append_length]

/-- What one handle has looked at or consumed is so for the others, copied before or after. -/
example :
    let chars : Buffer (CharStream (TextReader .cluster .utf8)) (Token .utf8 CharKind) := .ofSource ⟨.ofText ['a', 'b', '1']⟩
    let shared := ((adopt chars .shared : ScanT Id (Pool _ _) Nat) ⟨#[], #[]⟩).2
    let program : Program (Request _ (Token .utf8 CharKind) CharKind Unit) 1 :=
      .copy 0 <| .ask 1 (.perform (.peekAt 2 (by decide))) <| .ask 0 .buffered <| .ask 0 (.perform .next) <|
        .copy 1 <| .ask 2 (.perform (.nextUntilIn [.digit])) <| .ask 1 (.perform .next) <| .ask 0 .isAtEnd .done
    ((run program #v[0] ((), []) shared).1.map Prod.fst).toOption =
      some [.answer (.item (some ⟨⟨1, 2⟩, .lowercaseLetter⟩)), .count 2, .answer (.item (some ⟨⟨0, 1⟩, .lowercaseLetter⟩)),
        .answer (.item (some ⟨⟨1, 2⟩, .lowercaseLetter⟩)), .answer (.item (some ⟨⟨2, 3⟩, .digit⟩)), .answer (.flag true)] := by
  decide +kernel

end Pool

end TokenScan
