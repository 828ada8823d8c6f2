/-
  TokenScan.Proofs.Aliasing — which handles of a pool name one buffer.

  A copy of a shared handle names the buffer of the handle that it was made from (`Aliased`); every other handle
  is made with a buffer of its own. So each handle has a cell that it was made to name, whatever becomes of it
  later (`Homes`), and two handles that are there name one buffer just if a line of such copies leads from one
  to the other, also over handles that are gone (`Homes.sameBuffer_iff`).
-/

import Mathlib.Data.Set.Card
import Mathlib.Logic.Relation
import TokenScan.Proofs.Commands

namespace TokenScan

open Relation (EqvGen)

variable {σ α κ τ : Type}

namespace Pool

/-! ## Handles to one buffer -/

section

variable {p : Pool σ α} {h g : Nat} {handle : Handle}

theorem sameBuffer_iff :
    p.sameBuffer h g = true ↔ ∃ a b, p.handle? h = some a ∧ p.handle? g = some b ∧ a.cell = b.cell := by
  cases named : p.handle? h <;> cases named' : p.handle? g <;> simp [sameBuffer, named, named']

theorem sameBuffer_equivalence (p : Pool σ α) :
    Equivalence fun h g : { h // (p.handle? h).isSome } => p.sameBuffer h g = true where
  refl h := have ⟨a, named⟩ := Option.isSome_iff_exists.mp h.2
    sameBuffer_iff.mpr ⟨a, a, named, named, rfl⟩
  symm same := have ⟨a, b, named, named', here⟩ := sameBuffer_iff.mp same
    sameBuffer_iff.mpr ⟨b, a, named', named, here.symm⟩
  trans same same' := by
    obtain ⟨a, b, named, named₁, here⟩ := sameBuffer_iff.mp same
    obtain ⟨_, c, named₂, named', here'⟩ := sameBuffer_iff.mp same'
    cases named₁.symm.trans named₂
    exact sameBuffer_iff.mpr ⟨a, c, named, named', here.trans here'⟩

theorem handleCount_eq_ncard (live : (p.handle? h).isSome) : p.handleCount h = {g | p.sameBuffer h g = true}.ncard := by
  obtain ⟨handle, named⟩ := Option.isSome_iff_exists.mp live
  have listed : (List.range p.handles.size).map p.handle? = p.handles.toList := by
    apply List.ext_getElem
    · simp
    · intro i inside inside'
      simp [Pool.handle?, Array.getElem?_eq_getElem (Array.length_toList ▸ inside')]
  have sameBuffer_eq (g : Nat) : p.sameBuffer h g = (p.handle? g).any (·.cell == handle.cell) := by
    rw [sameBuffer, named]
    cases p.handle? g with
    | none => rfl
    | some other => exact Bool.beq_comm
  have among : {g | p.sameBuffer h g = true} = ↑((List.range p.handles.size).filter (p.sameBuffer h)).toFinset := by
    ext g
    suffices p.sameBuffer h g = true → g < p.handles.size by simpa
    intro same
    obtain ⟨_, _, -, named', -⟩ := sameBuffer_iff.mp same
    exact lt_of_handle? named'
  calc p.handleCount h
      = (List.range p.handles.size).countP (p.sameBuffer h) := by
        rw [funext sameBuffer_eq]
        simp only [handleCount, named]
        rw [← Array.countP_toList, ← listed, List.countP_map]
        rfl
    _ = ((List.range p.handles.size).filter (p.sameBuffer h)).toFinset.card := by
        rw [List.countP_eq_length_filter, List.toFinset_card_of_nodup (List.nodup_range.filter _)]
    _ = {g | p.sameBuffer h g = true}.ncard := by rw [among, Set.ncard_coe_finset]

theorem adding_sameBuffer (sound : p.Sound) (b : Buffer σ α) (k : Nat) :
    (p.adding b).sameBuffer p.handles.size k = true ↔ k = p.handles.size := by
  rw [sameBuffer_iff, adding_handle?, adding_handle?, if_pos rfl]
  split
  case isTrue new => simp [new]
  case isFalse old =>
    refine ⟨fun ⟨a, other, first, named, here⟩ => ?_, fun new => absurd new old⟩
    cases first
    exact absurd here (Nat.ne_of_gt (sound.inside named))

end

/-! ## Aliases -/

variable [Kinded α κ] [DecidableEq κ] [Source Id σ α] {p q : Pool σ α} {trace : List (Step σ α κ τ)} {s : Step σ α κ τ}
  {h g : Nat} {handle : Handle} {home : Nat → Nat}

def Step.Aliases (s : Step σ α κ τ) (h new : Nat) : Prop :=
  s.command = .copy h ∧ (∃ cell, s.before.handle? h = some ⟨cell, .shared⟩) ∧ s.response = .ok (.handle new)

def Aliased (trace : List (Step σ α κ τ)) (h new : Nat) : Prop := ∃ s ∈ trace, s.Aliases h new

theorem aliased_append : Aliased (trace ++ [s]) h g ↔ Aliased trace h g ∨ s.Aliases h g := by
  simp [Aliased, or_and_right, exists_or]

theorem eqvGen_append (joined : EqvGen (Aliased trace) h g) : EqvGen (Aliased (trace ++ [s])) h g :=
  joined.mono fun _ _ aliased => aliased_append.mpr (.inl aliased)

/-- The cell that each handle was made to name, also of handles that are gone. Handles were made to name one
    cell just if a line of aliases leads from one to the other. -/
structure Homes (trace : List (Step σ α κ τ)) (p : Pool σ α) (home : Nat → Nat) : Prop where
  named : ∀ h handle, p.handle? h = some handle → home h = handle.cell
  inside : ∀ h < p.handles.size, home h < p.cells.size
  aliased : ∀ h g, Aliased trace h g → h < p.handles.size ∧ g < p.handles.size ∧ home h = home g
  joined : ∀ h < p.handles.size, ∀ g < p.handles.size, home h = home g → EqvGen (Aliased trace) h g

namespace Homes

theorem start : Homes ([] : List (Step σ α κ τ)) ⟨#[], #[]⟩ fun _ => 0 where
  named _ _ named := by cases named
  inside _ there := by cases there
  aliased _ _ aliased := by
    obtain ⟨s, mem, -⟩ := aliased
    cases mem
  joined _ there := by cases there

theorem keep (homes : Homes trace p home) (handles : q.handles.size = p.handles.size) (cells : q.cells.size = p.cells.size)
    (kept : ∀ g handle, q.handle? g = some handle → ∃ before, p.handle? g = some before ∧ before.cell = handle.cell)
    (none : ∀ h g, ¬ s.Aliases h g) : Homes (trace ++ [s]) q home where
  named h handle named := by
    obtain ⟨before, named, here⟩ := kept h handle named
    rw [homes.named h before named, here]
  inside := handles ▸ cells ▸ homes.inside
  aliased h g aliased := by
    rcases aliased_append.mp aliased with before | new
    · exact handles ▸ homes.aliased h g before
    · exact absurd new (none h g)
  joined h old g old' same := eqvGen_append (homes.joined h (handles ▸ old) g (handles ▸ old') same)

theorem more (homes : Homes trace p home) (handles : q.handles = p.handles.push (some handle))
    (cells : p.cells.size ≤ q.cells.size) (inside : handle.cell < q.cells.size)
    (aliased : ∀ h g, s.Aliases h g → h < p.handles.size ∧ g = p.handles.size ∧ home h = handle.cell)
    (joined : ∀ h < p.handles.size, home h = handle.cell → EqvGen (Aliased (trace ++ [s])) h p.handles.size) :
    Homes (trace ++ [s]) q (fun h => if h = p.handles.size then handle.cell else home h) := by
  have size : q.handles.size = p.handles.size + 1 := by rw [handles, Array.size_push]
  have old {h : Nat} (before : h < p.handles.size) : (if h = p.handles.size then handle.cell else home h) = home h :=
    if_neg (Nat.ne_of_lt before)
  have old_or_new {h : Nat} (there : h < q.handles.size) : h < p.handles.size ∨ h = p.handles.size :=
    Nat.lt_succ_iff_lt_or_eq.mp (Nat.lt_of_lt_of_eq there size)
  constructor
  · intro h other found
    rw [handle?_of_push handles] at found
    split at found
    case isTrue new => rw [if_pos new, Option.some.inj found]
    case isFalse before => rw [if_neg before, homes.named h other found]
  · intro h there
    rcases old_or_new there with before | rfl
    · rw [old before]
      exact Nat.lt_of_lt_of_le (homes.inside h before) cells
    · rwa [if_pos rfl]
  · intro h g either
    rcases aliased_append.mp either with before | new
    · obtain ⟨first, second, same⟩ := homes.aliased h g before
      rw [old first, old second]
      exact ⟨by omega, by omega, same⟩
    · obtain ⟨first, rfl, same⟩ := aliased h g new
      rw [old first, if_pos rfl]
      exact ⟨by omega, by omega, same⟩
  · intro h there g there' same
    rcases old_or_new there with before | rfl <;> rcases old_or_new there' with before' | rfl
    · rw [old before, old before'] at same
      exact eqvGen_append (homes.joined h before g before' same)
    · rw [old before, if_pos rfl] at same
      exact joined h before same
    · rw [old before', if_pos rfl] at same
      exact (joined g before' same.symm).symm
    · exact .refl _

theorem execute (homes : Homes trace p home) (sound : p.Sound) (c : Command σ α κ τ) :
    ∃ home', Homes (trace ++ [⟨p, c⟩]) (c.execute p).2 home' := by
  obtain ⟨answer, q, ran, does⟩ := effect sound c
  have answered : Step.response ⟨p, c⟩ = answer := congrArg Prod.fst ran
  -- a buffer that is new is in a cell that no handle was made to name
  have adding (b : Buffer σ α) (none : ∀ h g, ¬ Step.Aliases ⟨p, c⟩ h g) :
      ∃ home', Homes (trace ++ [⟨p, c⟩]) (p.adding b) home' := by
    refine ⟨_, homes.more rfl ?_ ?_ (fun h g new => absurd new (none h g)) ?_⟩
    · simp [Pool.adding]
    · simp [Pool.adding]
    · intro h before same
      exact absurd same (Nat.ne_of_lt (homes.inside h before))
  rw [ran]
  cases does with
  | bring b => exact adding b fun _ _ new => by cases new.1
  | ask request t named held =>
    exact ⟨home, homes.keep rfl (by simp [put]) (fun g handle named => ⟨handle, named, rfl⟩) fun _ _ new => by cases new.1⟩
  | share h => exact ⟨home, homes.keep (by simp [sharing]) rfl (fun _ _ => of_sharing) fun _ _ new => by cases new.1⟩
  | @again h cell _ named held =>
    have here : home h = cell := homes.named h _ named
    have aliases : Step.Aliases ⟨p, .copy h⟩ h p.handles.size := ⟨rfl, ⟨cell, named⟩, answered⟩
    refine ⟨_, homes.more rfl (Nat.le_refl _) (sound.inside named) ?_ ?_⟩
    · rintro h g ⟨copied, -, made⟩
      cases copied
      cases made.symm.trans answered
      exact ⟨lt_of_handle? named, rfl, here⟩
    · intro k before same
      exact (eqvGen_append (homes.joined k before h (lt_of_handle? named) (same.trans here.symm))).trans _ _ _
        (.rel _ _ (aliased_append.mpr (.inr aliases)))
  | copy named held =>
    refine adding _ fun h g new => ?_
    obtain ⟨copied, ⟨cell, shared⟩, -⟩ := new
    cases copied
    cases named.symm.trans shared
  | fork named held => exact adding _ fun _ _ new => by cases new.1
  | drop h =>
    exact ⟨home, homes.keep (by simp [without]) rfl (fun _ handle named => ⟨handle, of_without named, rfl⟩) fun _ _ new => by cases new.1⟩
  | refused through gone =>
    refine ⟨home, homes.keep rfl rfl (fun g handle named => ⟨handle, named, rfl⟩) fun h g new => ?_⟩
    cases new.2.2.symm.trans answered

theorem after (homes : Homes trace p home) (sound : p.Sound) (commands : List (Command σ α κ τ)) :
    ∃ home', Homes (trace ++ steps p commands) (p.after commands) home' := by
  induction commands generalizing p trace home with
  | nil => exact ⟨home, by simpa [steps, Pool.after] using homes⟩
  | cons c rest ih =>
    obtain ⟨home', homes'⟩ := homes.execute sound c
    obtain ⟨home'', homes''⟩ := ih homes' (sound.execute c)
    exact ⟨home'', by simpa [steps, Pool.after] using homes''⟩

theorem home_eq (homes : Homes trace p home) (joined : EqvGen (Aliased trace) h g) : home h = home g := by
  induction joined with
  | rel k k' aliased => exact (homes.aliased k k' aliased).2.2
  | refl k => rfl
  | symm k k' _ ih => exact ih.symm
  | trans k k' k'' _ _ ih ih' => exact ih.trans ih'

/-- Handles name one buffer just if a line of aliases leads from one to the other. -/
theorem sameBuffer_iff (homes : Homes trace p home) (live : (p.handle? h).isSome) (live' : (p.handle? g).isSome) :
    p.sameBuffer h g = true ↔ EqvGen (Aliased trace) h g := by
  obtain ⟨a, named⟩ := Option.isSome_iff_exists.mp live
  obtain ⟨b, named'⟩ := Option.isSome_iff_exists.mp live'
  have same : home h = home g ↔ p.sameBuffer h g = true := by
    simp [homes.named h a named, homes.named g b named', sameBuffer, named, named']
  rw [← same]
  exact ⟨homes.joined h (lt_of_handle? named) g (lt_of_handle? named'), homes.home_eq⟩

theorem handleCount_eq (homes : Homes trace p home) (live : (p.handle? h).isSome) :
    p.handleCount h = {g | (p.handle? g).isSome ∧ EqvGen (Aliased trace) h g}.ncard := by
  have members : {g | p.sameBuffer h g = true} = {g | (p.handle? g).isSome ∧ EqvGen (Aliased trace) h g} := by
    ext g
    constructor
    · intro same
      obtain ⟨_, b, -, named, -⟩ := Pool.sameBuffer_iff.mp same
      have live' : (p.handle? g).isSome := named ▸ rfl
      exact ⟨live', (homes.sameBuffer_iff live live').mp same⟩
    · rintro ⟨live', joined⟩
      exact (homes.sameBuffer_iff live live').mpr joined
  rw [handleCount_eq_ncard live, members]

end Homes

end Pool

end TokenScan
