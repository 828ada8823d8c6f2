/-
  TokenScan.Proofs.Decoding — what a host's offset into a text means.

  An offset of code units stands between two scalars of the text, inside the pair of one of them, or past
  the end. `Encoding.Decodes` has a rule for each, and decoding follows these rules and no others
  (`Encoding.ofHostOffset_eq_iff`). The other way, a place in bytes is told to the host as the end of the
  shortest start of the text that reaches it (`Encoding.exists_toHostOffset_eq`), so that also a place inside
  a scalar leads back to a place between two (`Encoding.bytes_decoded`).

  Starts of one text are ordered alike in all units (`Encoding.size_lt_iff_length_lt`), and so are the offsets
  that they end at.
-/

import Mathlib.Order.Bounds.Defs
import TokenScan.Proofs.HostRanges

namespace TokenScan

variable {e u : Encoding} {text before after : List Char} {κ : Type}

/-! ## Starts of a text -/

namespace Encoding

theorem size_lt_of_length_lt {s t s' t' : List Char} (same : s ++ t = s' ++ t') (shorter : s.length < s'.length) :
    e.size s < e.size s' := by
  rcases List.append_eq_append_iff.mp same with ⟨more, rfl, -⟩ | ⟨more, rfl, -⟩
  · have hne : more ≠ [] := by
      rintro rfl
      simp at shorter
    have := e.size_pos hne
    rw [size_append]
    omega
  · rw [List.length_append] at shorter
    omega

/-- Of two starts of one text, the longer one is so in all units. -/
theorem size_lt_iff_length_lt {s t s' t' : List Char} (same : s ++ t = s' ++ t') :
    e.size s < e.size s' ↔ s.length < s'.length := by
  refine ⟨fun smaller => ?_, size_lt_of_length_lt same⟩
  by_contra longer
  rcases Nat.lt_or_eq_of_le (Nat.le_of_not_lt longer) with shorter | equal
  · have := size_lt_of_length_lt (e := e) same.symm shorter
    omega
  · obtain ⟨rfl, -⟩ := List.append_inj same equal.symm
    omega

theorem size_lt_iff {s t s' t' : List Char} (same : s ++ t = s' ++ t') : e.size s < e.size s' ↔ u.size s < u.size s' :=
  (size_lt_iff_length_lt same).trans (size_lt_iff_length_lt same).symm

/-! ## From the host -/

/-- What an offset of code units comes to in the units of `e`. -/
inductive Decodes (e : Encoding) : List Char → Nat → Except HostRangeError Nat → Prop
  /-- It stands between two scalars, or at an end of the text. -/
  | between (before after : List Char) : Decodes e (before ++ after) (utf16.size before) (.ok (e.size before))
  /-- It stands inside the pair of a scalar. -/
  | inside (before after : List Char) {c : Char} (pair : 0x10000 ≤ c.toNat) :
      Decodes e (before ++ c :: after) (utf16.size before + 1) (.error (.splitsSurrogatePair (utf16.size before + 1)))
  /-- It stands past the end. -/
  | beyond {text : List Char} {offset : Nat} (past : utf16.size text < offset) :
      Decodes e text offset (.error (.outOfBounds offset (utf16.size text)))

theorem width_of_pair {c : Char} (pair : 0x10000 ≤ c.toNat) : utf16.width c = 2 := if_neg (Nat.not_lt.mpr pair)

theorem byteOfUnit_inside (before after : List Char) (units bytes : Nat) {c : Char} (pair : 0x10000 ≤ c.toNat) :
    byteOfUnit (units + utf16.size before + 1) units bytes (before ++ c :: after) =
      .error (.splitsSurrogatePair (units + utf16.size before + 1)) := by
  induction before generalizing units bytes with
  | nil =>
    -- the loop sees that it went too far when it comes to what stands behind the scalar
    have two := width_of_pair pair
    rw [List.nil_append, size_nil, byteOfUnit, if_neg (by omega), if_neg (by omega)]
    unfold byteOfUnit
    rw [if_neg (by omega), if_pos (by omega)]
  | cons d before ih =>
    have := utf16.width_pos d
    rw [List.cons_append, byteOfUnit, size_cons, if_neg (by omega), if_neg (by omega), ← Nat.add_assoc]
    exact ih _ _

theorem byteOfUnit_beyond {offset units : Nat} (bytes : Nat) (past : units + utf16.size text < offset) :
    byteOfUnit offset units bytes text = .error (.outOfBounds offset (units + utf16.size text)) := by
  induction text generalizing units bytes with
  | nil =>
    rw [size_nil] at past ⊢
    rw [byteOfUnit, if_neg (by omega), if_neg (by omega), Nat.add_zero]
  | cons c rest ih =>
    rw [size_cons, ← Nat.add_assoc] at past ⊢
    rw [byteOfUnit, if_neg (by omega), if_neg (by omega)]
    exact ih _ past

/-- Decoding in any unit goes wrong where it does in bytes, and in the same way. -/
theorem ofHostOffset_of_error {offset : Nat} {wrong : HostRangeError} (h : byteOfUnit offset 0 0 text = .error wrong) :
    e.ofHostOffset text offset = .error wrong := by
  cases e with
  | utf8 => exact h
  | utf16 =>
    rw [ofHostOffset, h]
    rfl

theorem Decodes.eq {offset : Nat} {answer : Except HostRangeError Nat} (h : e.Decodes text offset answer) :
    e.ofHostOffset text offset = answer := by
  cases h with
  | between before after => exact e.ofHostOffset_size before after
  | inside before after pair =>
    have split := byteOfUnit_inside before after 0 0 pair
    rw [Nat.zero_add] at split
    exact ofHostOffset_of_error split
  | beyond past =>
    rw [← Nat.zero_add (utf16.size text)] at past ⊢
    exact ofHostOffset_of_error (byteOfUnit_beyond 0 past)

theorem exists_decodes (e : Encoding) (text : List Char) (offset : Nat) : ∃ answer, e.Decodes text offset answer := by
  suffices stands : ∀ after before, utf16.size before ≤ offset → ∃ answer, e.Decodes (before ++ after) offset answer from
    stands text [] (Nat.zero_le _)
  intro after
  induction after with
  | nil =>
    intro before reached
    rcases Nat.eq_or_lt_of_le reached with rfl | past
    · exact ⟨_, .between before []⟩
    · rw [List.append_nil]
      exact ⟨_, .beyond past⟩
  | cons c after ih =>
    intro before reached
    by_cases further : utf16.size (before ++ [c]) ≤ offset
    · rw [List.append_cons]
      exact ih (before ++ [c]) further
    · rw [size_append, size_cons, size_nil] at further
      rcases Nat.eq_or_lt_of_le reached with rfl | inside
      · exact ⟨_, .between before (c :: after)⟩
      · -- only a scalar of two units has an offset inside
        have pair : 0x10000 ≤ c.toNat := by
          by_contra single
          rw [width, if_pos (Nat.lt_of_not_le single)] at further
          omega
        have two := width_of_pair pair
        obtain rfl : offset = utf16.size before + 1 := by omega
        exact ⟨_, .inside before after pair⟩

theorem ofHostOffset_eq_iff {offset : Nat} {answer : Except HostRangeError Nat} :
    e.ofHostOffset text offset = answer ↔ e.Decodes text offset answer := by
  refine ⟨?_, Decodes.eq⟩
  rintro rfl
  obtain ⟨answer, h⟩ := e.exists_decodes text offset
  rw [h.eq]
  exact h

theorem not_decodes_reversed {offset start stop : Nat} : ¬e.Decodes text offset (.error (.reversed start stop)) := by
  intro h
  cases h

/-- An offset means a place exactly if it stands between two scalars. -/
theorem ofHostOffset_eq_ok_iff {offset n : Nat} :
    e.ofHostOffset text offset = .ok n ↔
      ∃ before after, text = before ++ after ∧ utf16.size before = offset ∧ e.size before = n := by
  rw [ofHostOffset_eq_iff]
  constructor
  · rintro ⟨before, after⟩
    exact ⟨before, after, rfl, rfl, rfl⟩
  · rintro ⟨before, after, rfl, rfl, rfl⟩
    exact .between before after

/-- Of two offsets that mean places, the later one means the later place. -/
theorem ofHostOffset_lt_iff {offset later n n' : Nat} (h : e.ofHostOffset text offset = .ok n)
    (h' : e.ofHostOffset text later = .ok n') : n < n' ↔ offset < later := by
  obtain ⟨before, after, rfl, rfl, rfl⟩ := ofHostOffset_eq_ok_iff.mp h
  obtain ⟨before', after', same, rfl, rfl⟩ := ofHostOffset_eq_ok_iff.mp h'
  exact size_lt_iff same

/-! ## To the host -/

/-- What the host is told of a place in bytes is where the shortest start of the text ends that reaches it. -/
theorem exists_unitsBefore_eq (place bytes units : Nat) (text : List Char) :
    ∃ before after, text = before ++ after ∧ unitsBefore place bytes units text = units + utf16.size before ∧
      min place (bytes + utf8.size text) ≤ bytes + utf8.size before ∧
      ∀ s t, text = s ++ t → min place (bytes + utf8.size text) ≤ bytes + utf8.size s → utf8.size before ≤ utf8.size s := by
  induction text generalizing bytes units with
  | nil => exact ⟨[], [], rfl, rfl, Nat.min_le_right _ _, fun _ _ _ _ => Nat.zero_le _⟩
  | cons c rest ih =>
    have := utf8.width_pos c
    by_cases short : bytes < place
    · obtain ⟨before, after, rfl, counted, reached, least⟩ := ih (bytes + utf8.width c) (units + utf16.width c)
      rw [Nat.add_assoc, ← size_cons] at counted
      rw [Nat.add_assoc, ← size_cons, Nat.add_assoc, ← size_cons] at reached
      refine ⟨c :: before, after, rfl, (if_pos short).trans counted, reached, ?_⟩
      intro s t whole enough
      cases s with
      | nil =>
        rw [size_nil, size_cons] at enough
        omega
      | cons d s =>
        obtain ⟨rfl, same⟩ := List.cons.inj whole
        rw [size_cons, size_cons, ← Nat.add_assoc, ← Nat.add_assoc] at enough
        have := least s t same enough
        rw [size_cons, size_cons]
        omega
    · exact ⟨[], c :: rest, rfl, if_neg short, by omega, fun _ _ _ _ => Nat.zero_le _⟩

theorem exists_toHostOffset_eq (text : List Char) (place : Nat) :
    ∃ before after, text = before ++ after ∧ utf8.toHostOffset text place = utf16.size before ∧
      min place (utf8.size text) ≤ utf8.size before ∧
      ∀ s t, text = s ++ t → min place (utf8.size text) ≤ utf8.size s → utf8.size before ≤ utf8.size s := by
  have starts := exists_unitsBefore_eq place 0 0 text
  simp only [Nat.zero_add] at starts
  exact starts

def boundaries (e : Encoding) (text : List Char) : Set Nat :=
  {n | ∃ before after, text = before ++ after ∧ e.size before = n}

/-- Any place in bytes, also one inside a scalar or past the end, leads to the host and back to the first
    boundary that is not before it. -/
theorem bytes_decoded (text : List Char) (place : Nat) :
    ∃ n, utf8.ofHostOffset text (utf8.toHostOffset text place) = .ok n ∧
      IsLeast {n ∈ utf8.boundaries text | min place (utf8.size text) ≤ n} n := by
  obtain ⟨before, after, whole, told, reached, least⟩ := exists_toHostOffset_eq text place
  refine ⟨utf8.size before, ofHostOffset_eq_ok_iff.mpr ⟨before, after, whole, told.symm, rfl⟩,
    ⟨⟨before, after, whole, rfl⟩, reached⟩, ?_⟩
  rintro _ ⟨⟨s, t, whole', rfl⟩, enough⟩
  exact least s t whole' enough

theorem toHostOffset_mono (text : List Char) : Monotone (utf8.toHostOffset text) := by
  intro place later order
  obtain ⟨before, after, whole, told, -, least⟩ := exists_toHostOffset_eq text place
  obtain ⟨before', after', whole', told', reached, -⟩ := exists_toHostOffset_eq text later
  have not_longer := least before' after' whole' (by omega)
  rw [told, told']
  by_contra longer
  have := (size_lt_iff (e := utf8) (whole'.symm.trans whole)).mpr (Nat.lt_of_not_le longer)
  omega

theorem toHostOffset_of_ok {offset n : Nat} (h : e.ofHostOffset text offset = .ok n) : e.toHostOffset text n = offset := by
  obtain ⟨before, after, rfl, rfl, rfl⟩ := ofHostOffset_eq_ok_iff.mp h
  exact e.hostOffset_size before after

/-- How a host's offsets into a text and places in bytes stand to each other. -/
structure ExactInBytes (text : List Char) : Prop where
  ok_iff : ∀ offset n, utf8.ofHostOffset text offset = .ok n ↔
    ∃ before after, text = before ++ after ∧ utf16.size before = offset ∧ utf8.size before = n
  split_iff : ∀ offset n, utf8.ofHostOffset text offset = .error (.splitsSurrogatePair n) ↔
    n = offset ∧ ∃ before c after, text = before ++ c :: after ∧ 0x10000 ≤ c.toNat ∧
      utf16.size before < offset ∧ offset < utf16.size (before ++ [c])
  beyond_iff : ∀ offset n length, utf8.ofHostOffset text offset = .error (.outOfBounds n length) ↔
    n = offset ∧ length = utf16.size text ∧ utf16.size text < offset
  not_reversed : ∀ offset start stop, utf8.ofHostOffset text offset ≠ .error (.reversed start stop)
  told_back : ∀ offset n, utf8.ofHostOffset text offset = .ok n → utf8.toHostOffset text n = offset
  led_back : ∀ place, ∃ n, utf8.ofHostOffset text (utf8.toHostOffset text place) = .ok n ∧
    IsLeast {n ∈ utf8.boundaries text | min place (utf8.size text) ≤ n} n
  increasing : ∀ offset later n n', utf8.ofHostOffset text offset = .ok n → utf8.ofHostOffset text later = .ok n' →
    offset < later → n < n'
  monotone : Monotone (utf8.toHostOffset text)

/-- A host's offset means the boundary of the text that it stands at, or says that it splits a pair or is past the
    end, and the place that it means is told to the host as the same offset. Every place in bytes is told as an
    offset that means the first boundary from there on. Both ways keep the order. -/
theorem byte_offsets_exact (text : List Char) : ExactInBytes text where
  ok_iff _ _ := ofHostOffset_eq_ok_iff
  split_iff offset n := by
    rw [ofHostOffset_eq_iff]
    constructor
    · intro h
      cases h with
      | @inside before after c pair =>
        refine ⟨rfl, before, c, after, rfl, pair, Nat.lt_succ_self _, ?_⟩
        rw [size_append, size_cons, width_of_pair pair, size_nil]
        omega
    · rintro ⟨rfl, before, c, after, rfl, pair, above, below⟩
      rw [size_append, size_cons, width_of_pair pair, size_nil] at below
      obtain rfl : n = utf16.size before + 1 := by omega
      exact .inside before after pair
  beyond_iff offset n length := by
    rw [ofHostOffset_eq_iff]
    constructor
    · intro h
      cases h with
      | beyond past => exact ⟨rfl, rfl, past⟩
    · rintro ⟨rfl, rfl, past⟩
      exact .beyond past
  not_reversed _ _ _ h := not_decodes_reversed (ofHostOffset_eq_iff.mp h)
  told_back _ _ h := toHostOffset_of_ok h
  led_back := bytes_decoded text
  increasing _ _ _ _ h h' order := (ofHostOffset_lt_iff h h').mpr order
  monotone := toHostOffset_mono text

end Encoding

end TokenScan
