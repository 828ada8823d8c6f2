/-
  TokenScan.Proofs.Membership — classification and the three sets say the same about a character.

  A scalar has one general category, and a category belongs to one set at most (`CharSet.admits_unique`). So
  whatever table tells the categories, if it puts the marks into none that a set asks for (`Categories`), a character
  of any number of scalars is in one set at most, and no mark is in a set (`Categories.apart`). Hence the order in
  which classification asks does not matter, nor that it asks for marks first (`Apart.classifySetsFirst_eq`): a
  character is classified by a set exactly if the set contains it, and by a mark exactly if it is one
  (`kinds_agree_with_sets`).

  The tables of this library tell such categories, which is a check that runs on the marks (`Categories.standard`).
-/

import TokenScan.Kind

namespace TokenScan

open Unicode

/-! ## The sets of a category -/

namespace CharSet

theorem admits_unique {set other : CharSet} {category : GeneralCategory} (h : set.admits category = true)
    (h' : other.admits category = true) : set = other := by
  revert h h'
  cases category <;> cases set <;> cases other <;> decide

theorem not_admits_other (set : CharSet) : set.admits .other = false := by cases set <;> rfl

theorem mem_all (set : CharSet) : set ∈ all := by cases set <;> decide

/-- Where one set at most will do, whichever is asked first is found. -/
theorem find?_eq_some_iff {p : CharSet → Bool} (unique : ∀ {a b}, p a = true → p b = true → a = b)
    {order : List CharSet} {set : CharSet} (asked : set ∈ order) : order.find? p = some set ↔ p set = true := by
  constructor
  · exact List.find?_some
  · intro member
    cases found : order.find? p with
    | some first => rw [unique member (List.find?_some found)]
    | none => exact absurd member (List.find?_eq_none.mp found set asked)

end CharSet

/-! ## Marks -/

namespace Mark

variable {c : Char} {m : Mark} {text : List Char}

theorem toNat_lt_of_ofChar? (h : ofChar? c = some m) : c.toNat < 128 := by
  unfold ofChar? at h
  split at h <;> first | decide | cases h

theorem category_of_ofChar? (h : ofChar? c = some m) : GeneralCategory.ofChar c = .other := by
  have checked : ∀ n ∈ List.range 128, (ofChar? (Char.ofNat n)).isSome = true →
      GeneralCategory.ofChar (Char.ofNat n) = .other := by decide +kernel
  have hc := checked c.toNat (List.mem_range.mpr (toNat_lt_of_ofChar? h))
  rw [Char.ofNat_toNat, h] at hc
  exact hc rfl

/-- A mark is the pair of CR and LF or a single scalar of the table. -/
theorem ofCharacter?_eq_some_iff :
    ofCharacter? text = some m ↔ (text = ['\r', '\n'] ∧ m = .newline) ∨ ∃ c, text = [c] ∧ ofChar? c = some m := by
  unfold ofCharacter?
  by_cases pair : text = ['\r', '\n']
  · rw [if_pos pair]
    subst pair
    simp [eq_comm]
  · rw [if_neg pair]
    split
    · simp
    · next alone =>
      simp only [pair, false_and, false_or, reduceCtorEq, false_iff]
      rintro ⟨c, rfl, -⟩
      exact alone c rfl

theorem exists_mem_of_ofCharacter? (h : ofCharacter? text = some m) : ∃ c ∈ text, ∃ m, ofChar? c = some m := by
  rcases ofCharacter?_eq_some_iff.mp h with ⟨rfl, -⟩ | ⟨c, rfl, mark⟩
  · exact ⟨'\r', List.mem_cons_self, .newline, rfl⟩
  · exact ⟨c, List.mem_cons_self, m, mark⟩

end Mark

/-! ## Characters -/

/-- The sets have no character in common, and none with the marks. -/
structure Apart (contains : CharSet → List Char → Bool) : Prop where
  unique : ∀ {text : List Char} {set other : CharSet}, contains set text = true → contains other text = true →
    set = other
  marks : ∀ {text : List Char} {m : Mark} {set : CharSet}, Mark.ofCharacter? text = some m → contains set text = false

/-- The general category of each scalar, by whatever table; no set asks for the category of a mark. -/
structure Categories where
  ofChar : Char → GeneralCategory
  marks : ∀ {c : Char} {m : Mark}, Mark.ofChar? c = some m → ofChar c = .other

namespace Categories

variable {table : Categories} {set other : CharSet} {text s t : List Char}

def contains (table : Categories) (set : CharSet) (text : List Char) : Bool :=
  !text.isEmpty && text.all fun c => set.admits (table.ofChar c)

theorem contains_iff : table.contains set text = true ↔ text ≠ [] ∧ ∀ c ∈ text, set.admits (table.ofChar c) = true := by
  simp [contains]

theorem contains_append_iff (hs : s ≠ []) (ht : t ≠ []) :
    table.contains set (s ++ t) = true ↔ table.contains set s = true ∧ table.contains set t = true := by
  simp only [contains_iff, List.mem_append, or_imp, forall_and]
  simp [hs, ht]

theorem apart (table : Categories) : Apart table.contains where
  unique := by
    intro text set other h h'
    obtain ⟨hne, all⟩ := contains_iff.mp h
    obtain ⟨-, all'⟩ := contains_iff.mp h'
    obtain ⟨c, rest, rfl⟩ := List.exists_cons_of_ne_nil hne
    exact CharSet.admits_unique (all c List.mem_cons_self) (all' c List.mem_cons_self)
  marks := by
    intro text m set mark
    obtain ⟨c, mem, m, hc⟩ := Mark.exists_mem_of_ofCharacter? mark
    rw [Bool.eq_false_iff]
    intro h
    have inside := (contains_iff.mp h).2 c mem
    rw [table.marks hc, CharSet.not_admits_other] at inside
    cases inside

def standard : Categories := ⟨GeneralCategory.ofChar, Mark.category_of_ofChar?⟩

end Categories

theorem CharSet.apart : Apart CharSet.contains := Categories.standard.apart

/-! ## Classification -/

section

variable (contains : CharSet → List Char → Bool)

/-- The kind of a character if this says which of the sets it is in. -/
def classifyBy (character : List Char) : CharKind :=
  match Mark.ofCharacter? character with
  | some m => .mark m
  | none =>
    match CharSet.all.find? (contains · character) with
    | some set => .member set
    | none => .other

/-- The kind if the sets are asked before the marks, and in this order. -/
def classifySetsFirst (order : List CharSet) (character : List Char) : CharKind :=
  match order.find? (contains · character) with
  | some set => .member set
  | none =>
    match Mark.ofCharacter? character with
    | some m => .mark m
    | none => .other

end

section

variable {contains : CharSet → List Char → Bool} {text : List Char} {set : CharSet} {m : Mark}

theorem classifyBy_eq_mark_iff : classifyBy contains text = .mark m ↔ Mark.ofCharacter? text = some m := by
  unfold classifyBy
  cases Mark.ofCharacter? text with
  | some m' => simp
  | none =>
    cases CharSet.all.find? (contains · text) with
    | some set => simp
    | none => simp

namespace Apart

variable (apart : Apart contains)
include apart

theorem classifyBy_eq_member_iff : classifyBy contains text = .member set ↔ contains set text = true := by
  unfold classifyBy
  cases mark : Mark.ofCharacter? text with
  | some m => simp [apart.marks mark]
  | none =>
    rw [← CharSet.find?_eq_some_iff (p := (contains · text)) apart.unique set.mem_all]
    cases CharSet.all.find? (contains · text) with
    | some first => simp
    | none => simp

/-- It does not matter in which order the sets are asked, nor that the marks are asked before them. -/
theorem classifySetsFirst_eq {order : List CharSet} (whole : ∀ set, set ∈ order) :
    classifySetsFirst contains order text = classifyBy contains text := by
  unfold classifySetsFirst
  cases found : order.find? (contains · text) with
  | some set => exact (apart.classifyBy_eq_member_iff.mpr (List.find?_some (p := (contains · text)) found)).symm
  | none =>
    have nowhere : CharSet.all.find? (contains · text) = none :=
      List.find?_eq_none.mpr fun set _ => List.find?_eq_none.mp found set (whole set)
    simp only [classifyBy, nowhere]

end Apart

end

theorem classify_eq_member_iff (character : List Char) (set : CharSet) :
    classify character = .member set ↔ set.contains character = true :=
  CharSet.apart.classifyBy_eq_member_iff

/-- The kinds of texts, of any number of scalars, are told by the sets and the marks, each on its own. -/
structure Agreement (kind : List Char → CharKind) (contains : CharSet → List Char → Bool) : Prop where
  member_iff : ∀ text set, kind text = .member set ↔ contains set text = true
  unique : ∀ text set other, contains set text = true → contains other text = true → set = other
  any_order : ∀ order : List CharSet, (∀ set, set ∈ order) → ∀ text, kind text = classifySetsFirst contains order text
  mark_iff : ∀ text m, kind text = .mark m ↔
    (text = ['\r', '\n'] ∧ m = .newline) ∨ ∃ c, text = [c] ∧ Mark.ofChar? c = some m
  append_iff : ∀ set s t, s ≠ [] → t ≠ [] →
    (contains set (s ++ t) = true ↔ contains set s = true ∧ contains set t = true)

/-- Whatever table of general categories there is, if no mark is in a set, then classification and the sets agree about
    every text. So they do by the tables of this library. -/
theorem kinds_agree_with_sets :
    (∀ table : Categories, Agreement (classifyBy table.contains) table.contains) ∧ Agreement classify CharSet.contains := by
  have agree (table : Categories) : Agreement (classifyBy table.contains) table.contains :=
    { member_iff := fun _ _ => table.apart.classifyBy_eq_member_iff
      unique := fun _ _ _ => table.apart.unique
      any_order := fun _ whole _ => (table.apart.classifySetsFirst_eq whole).symm
      mark_iff := fun _ _ => classifyBy_eq_mark_iff.trans Mark.ofCharacter?_eq_some_iff
      append_iff := fun _ _ _ => Categories.contains_append_iff }
  exact ⟨agree, agree .standard⟩

end TokenScan
