/-
  TokenScan.Proofs.Joining — by the tables of this library, `joins` decides where the rules break a text.

  It tries the rules in order, from the end of the text before (`breaks_iff`). The order makes no difference, since
  the scalars that the longer rules are about are in different classes (`breakClass_of_consonant`).
-/

import Mathlib.Data.List.TakeWhile
import Mathlib.Tactic.SplitIfs
import TokenScan.Proofs.BreakRules
import TokenScan.Proofs.Tables

namespace TokenScan.Unicode

open GraphemeBreak

/-! ## Consonants of conjuncts -/

namespace GraphemeBreak

theorem consonants_disjoint :
    ∀ table ∈ [extenders, controls, pictographs], CodeRange.disjoint conjunctConsonants.toList table.toList = true := by
  decide +kernel

theorem consonants_between :
    ∀ r ∈ conjunctConsonants, 0x0D < r.first ∧ (r.last < 0x200D ∨ 0x200D < r.first) ∧ r.last < 0x1F1E6 := by decide +kernel

/-- Consonants of conjuncts are in none of the classes that the rules with a longer view look for. -/
theorem breakClass_of_consonant {c : Char} (h : isConjunctConsonant c = true) :
    (breakClass c).isControl = false ∧
      breakClass c ∉ [BreakClass.extend, .zwj, .pictographic, .regionalIndicator] := by
  have outside (table : Array CodeRange) (mem : table ∈ [extenders, controls, pictographs]) :
      CodeRange.lookup table c.toNat = false := by
    refine CodeRange.not_lookup_of_disjoint ?_ ?_ (consonants_disjoint table mem) h
    · exact tables_sorted _ (by simp)
    · simp only [List.mem_cons, List.not_mem_nil, or_false] at mem
      rcases mem with rfl | rfl | rfl <;> exact tables_sorted _ (by simp)
  obtain ⟨r, mem, covers⟩ := (CodeRange.lookup_iff (tables_sorted conjunctConsonants (by simp)) c.toNat).mp h
  obtain ⟨low, joiner, high⟩ := consonants_between r mem
  have := CodeRange.first_le_of_covers covers
  have extend := outside extenders (by simp)
  have control := outside controls (by simp)
  have pictograph := outside pictographs (by simp)
  unfold breakClass breakClassOf
  rw [if_neg (by omega), if_neg (by omega), if_neg (by omega), if_neg (by omega)]
  simp only [extend, control, pictograph, Bool.false_eq_true, if_false]
  split_ifs <;> decide

theorem not_mark_of_consonant {c : Char} (h : isConjunctConsonant c = true) :
    isConjunctLinker c = false ∧ isConjunctExtend c = false := by
  obtain ⟨-, apart⟩ := breakClass_of_consonant h
  simp only [List.mem_cons, not_or] at apart
  obtain ⟨extend, joiner, -⟩ := apart
  constructor
  · rw [Bool.eq_false_iff]
    intro linker
    exact extend (breakClass_of_linker linker)
  · rw [Bool.eq_false_iff]
    intro mark
    rcases breakClass_of_conjunctExtend mark with hc | hc
    · exact extend hc
    · exact joiner hc

theorem not_consonant {c : Char} (h : breakClass c ∈ [BreakClass.extend, .zwj, .pictographic, .regionalIndicator]) :
    isConjunctConsonant c = false := by
  rw [Bool.eq_false_iff]
  intro consonant
  exact (breakClass_of_consonant consonant).2 h

end GraphemeBreak

abbrev BreakTable.standard : BreakTable where
  breakClass := GraphemeBreak.breakClass
  isConsonant := isConjunctConsonant
  isLinker := isConjunctLinker
  isExtend := isConjunctExtend
  class_of_mark := by
    rintro c (linker | mark)
    · exact .inl (breakClass_of_linker linker)
    · exact breakClass_of_conjunctExtend mark
  class_of_consonant consonant := (breakClass_of_consonant consonant).1

/-! ## What is decided from the end of a text -/

theorem endsInLinkedConsonant_iff {linked : Bool} {l : List Char} :
    endsInLinkedConsonant linked l = true ↔ ∃ marks consonant earlier, l = marks ++ consonant :: earlier ∧
      (∀ m ∈ marks, isConjunctLinker m = true ∨ isConjunctExtend m = true) ∧
      (linked = true ∨ ∃ m ∈ marks, isConjunctLinker m = true) ∧ isConjunctConsonant consonant = true := by
  constructor
  · intro h
    induction l generalizing linked with
    | nil => cases h
    | cons c earlier ih =>
      unfold endsInLinkedConsonant at h
      split at h
      · next linker =>
        obtain ⟨marks, consonant, before, rfl, all, -, last⟩ := ih h
        exact ⟨c :: marks, consonant, before, rfl, List.forall_mem_cons.mpr ⟨.inl linker, all⟩,
          .inr ⟨c, List.mem_cons_self, linker⟩, last⟩
      · split at h
        · next mark =>
          obtain ⟨marks, consonant, before, rfl, all, link, last⟩ := ih h
          refine ⟨c :: marks, consonant, before, rfl, List.forall_mem_cons.mpr ⟨.inr mark, all⟩, ?_, last⟩
          exact link.imp_right fun ⟨m, mem, linker⟩ => ⟨m, List.mem_cons_of_mem c mem, linker⟩
        · rw [Bool.and_eq_true] at h
          exact ⟨[], c, earlier, rfl, by simp, .inl h.1, h.2⟩
  · rintro ⟨marks, consonant, earlier, rfl, all, link, last⟩
    induction marks generalizing linked with
    | nil =>
      obtain ⟨linker, mark⟩ := not_mark_of_consonant last
      rcases link with rfl | ⟨m, mem, -⟩
      · simp [endsInLinkedConsonant, linker, mark, last]
      · cases mem
    | cons m marks ih =>
      obtain ⟨here, all⟩ := List.forall_mem_cons.mp all
      rw [List.cons_append, endsInLinkedConsonant]
      by_cases linker : isConjunctLinker m = true
      · rw [if_pos linker]
        exact ih all (.inl rfl)
      · rw [if_neg linker, if_pos (here.resolve_left linker)]
        refine ih all (link.imp_right ?_)
        rintro ⟨x, mem, linker'⟩
        rcases List.mem_cons.mp mem with rfl | mem
        · exact absurd linker' linker
        · exact ⟨x, mem, linker'⟩

theorem endsInPictograph_iff {l : List Char} :
    endsInPictograph l = true ↔ ∃ marks pictograph earlier, l = marks ++ pictograph :: earlier ∧
      (∀ m ∈ marks, breakClass m = .extend) ∧ breakClass pictograph = .pictographic := by
  constructor
  · intro h
    induction l with
    | nil => cases h
    | cons c earlier ih =>
      unfold endsInPictograph at h
      split at h
      · next extend =>
        obtain ⟨marks, pictograph, before, rfl, all, first⟩ := ih h
        exact ⟨c :: marks, pictograph, before, rfl, List.forall_mem_cons.mpr ⟨extend, all⟩, first⟩
      · next pictograph => exact ⟨[], c, earlier, rfl, by simp, pictograph⟩
      · cases h
  · rintro ⟨marks, pictograph, earlier, rfl, ha, first⟩
    induction marks with
    | nil => simp [endsInPictograph, first]
    | cons m marks ih =>
      obtain ⟨here, ha⟩ := List.forall_mem_cons.mp ha
      rw [List.cons_append, endsInPictograph, here]
      exact ih ha

theorem trailingIndicators_append {indicators earlier : List Char}
    (ha : ∀ c ∈ indicators, breakClass c = .regionalIndicator) :
    trailingIndicators (indicators ++ earlier) = indicators.length + trailingIndicators earlier := by
  rw [trailingIndicators, List.takeWhile_append_of_pos (by simpa using ha), List.length_append]
  rfl

theorem trailingIndicators_eq_zero {l : List Char} (h : ∀ c ∈ l.head?, breakClass c ≠ .regionalIndicator) :
    trailingIndicators l = 0 := by
  cases l with
  | nil => rfl
  | cons c l =>
    have : breakClass c ≠ .regionalIndicator := h c rfl
    simp [trailingIndicators, this]

/-! ## The rules are what is decided -/

/-- What is decided next to no control. -/
theorem joins_of_no_control {last next : Char} {earlier : List Char} (left : (breakClass last).isControl = false)
    (right : (breakClass next).isControl = false) :
    joins (last :: earlier) next =
      ((breakClass last).joinsSyllable (breakClass next) || ((breakClass next).attaches || breakClass last == .prepend) ||
        if isConjunctConsonant next then endsInLinkedConsonant false (last :: earlier)
        else if breakClass last == .zwj && breakClass next == .pictographic then endsInPictograph earlier
        else if breakClass last == .regionalIndicator && breakClass next == .regionalIndicator then
          trailingIndicators (last :: earlier) % 2 == 1
        else false) := by
  have not_cr : (breakClass last == .cr) = false := by
    rw [beq_eq_false_iff_ne]
    intro cr
    rw [cr] at left
    cases left
  simp only [joins, not_cr, left, right, Bool.false_and, Bool.or_self, Bool.false_eq_true, if_false]
  cases (breakClass last).joinsSyllable (breakClass next) <;>
    cases (breakClass next).attaches || breakClass last == .prepend <;> rfl

theorem binds_of_linkedConsonant {l : List Char} {next : Char} (h : endsInLinkedConsonant false l = true)
    (hn : isConjunctConsonant next = true) : BreakTable.standard.Binds l.reverse next := by
  obtain ⟨marks, first, earlier, rfl, ha, link, hf⟩ := endsInLinkedConsonant_iff.mp h
  rw [List.reverse_append, List.reverse_cons, List.append_assoc, List.singleton_append]
  refine .conjunct hf (by simpa using ha) ?_ hn
  simpa using link

theorem binds_of_pictograph {earlier : List Char} {last next : Char} (h : endsInPictograph earlier = true)
    (hl : breakClass last = .zwj) (hn : breakClass next = .pictographic) :
    BreakTable.standard.Binds (last :: earlier).reverse next := by
  obtain ⟨marks, pictograph, before, rfl, ha, hp⟩ := endsInPictograph_iff.mp h
  rw [List.reverse_cons, List.reverse_append, List.reverse_cons, List.append_assoc, List.append_assoc,
    List.singleton_append]
  exact .pictographs hp (by simpa using ha) hl hn

theorem binds_of_indicators {l : List Char} {next : Char} (h : trailingIndicators l % 2 = 1)
    (hn : breakClass next = .regionalIndicator) : BreakTable.standard.Binds l.reverse next := by
  rw [← List.takeWhile_append_dropWhile (p := (breakClass · == .regionalIndicator)) (l := l), List.reverse_append]
  refine .flag ?_ ?_ ?_ hn
  · intro c mem
    rw [List.getLast?_reverse] at mem
    have := List.head?_dropWhile_not (breakClass · == .regionalIndicator) l
    rw [Option.mem_def.mp mem] at this
    simpa using this
  · intro c mem
    simpa using List.mem_takeWhile_imp (List.mem_reverse.mp mem)
  · rw [List.length_reverse]
    exact h

theorem binds_of_joins {last next : Char} {earlier : List Char} (left : (breakClass last).isControl = false)
    (right : (breakClass next).isControl = false) (h : joins (last :: earlier) next = true) :
    BreakTable.standard.Binds (last :: earlier).reverse next := by
  rw [joins_of_no_control left right, Bool.or_eq_true, Bool.or_eq_true, Bool.or_eq_true, beq_iff_eq] at h
  rcases h with (syllable | mark | prepend) | longer
  · rw [List.reverse_cons]
    exact .syllable syllable
  · exact .mark mark
  · rw [List.reverse_cons]
    exact .prepended prepend
  · split at longer
    case isTrue consonant => exact binds_of_linkedConsonant longer consonant
    case isFalse =>
      split at longer
      case isTrue joined =>
        rw [Bool.and_eq_true, beq_iff_eq, beq_iff_eq] at joined
        exact binds_of_pictograph longer joined.1 joined.2
      case isFalse =>
        split at longer
        case isTrue indicators =>
          rw [Bool.and_eq_true, beq_iff_eq, beq_iff_eq] at indicators
          exact binds_of_indicators (eq_of_beq longer) indicators.2
        case isFalse => cases longer

theorem joins_of_binds {before : List Char} {last next : Char} (ends : before.getLast? = some last)
    (left : (breakClass last).isControl = false) (right : (breakClass next).isControl = false)
    (h : BreakTable.standard.Binds before next) : joins before.reverse next = true := by
  obtain ⟨earlier, whole⟩ : ∃ earlier, before.reverse = last :: earlier := by
    rw [List.getLast?_eq_head?_reverse] at ends
    exact List.head?_eq_some_iff.mp ends
  rw [whole, joins_of_no_control left right]
  cases h with
  | syllable h =>
    rw [List.reverse_concat, List.cons.injEq] at whole
    rw [← whole.1, h]
    rfl
  | mark h =>
    rw [h]
    simp
  | prepended h =>
    have h : breakClass _ = .prepend := h
    rw [List.reverse_concat, List.cons.injEq] at whole
    rw [← whole.1, h]
    simp
  | @conjunct before consonant marks _ first all link second =>
    have linked : endsInLinkedConsonant false (last :: earlier) = true := by
      rw [← whole, endsInLinkedConsonant_iff]
      exact ⟨marks.reverse, consonant, before.reverse, by simp, by simpa using all, by simpa using link, first⟩
    rw [if_pos second, linked, Bool.or_true]
  | @pictographs before pictograph marks joiner _ first all join second =>
    have shown : joiner :: (marks.reverse ++ pictograph :: before.reverse) = last :: earlier := by
      rw [← whole]
      simp
    obtain ⟨rfl, rfl⟩ := List.cons.inj shown
    have join : breakClass joiner = .zwj := join
    have second : breakClass next = .pictographic := second
    have ends : endsInPictograph (marks.reverse ++ pictograph :: before.reverse) = true :=
      endsInPictograph_iff.mpr ⟨marks.reverse, pictograph, before.reverse, rfl, by simpa using all, first⟩
    rw [not_consonant (by simp [second]), if_neg Bool.false_ne_true, join, second, ends]
    simp
  | @flag before indicators _ parted all odd second =>
    have second : breakClass next = .regionalIndicator := second
    have counted : trailingIndicators (last :: earlier) = indicators.length := by
      rw [← whole, List.reverse_append, trailingIndicators_append (by simpa using all), List.length_reverse,
        trailingIndicators_eq_zero, Nat.add_zero]
      rwa [List.head?_reverse]
    have first : breakClass last = .regionalIndicator := by
      by_contra other
      rw [trailingIndicators_eq_zero (by simpa using other)] at counted
      omega
    rw [not_consonant (by simp [second]), if_neg Bool.false_ne_true, first, second, counted, odd]
    simp

/-- The text breaks just where it is decided that the next scalar does not belong to what comes before. -/
theorem breaks_iff {before : List Char} (hne : before ≠ []) (next : Char) :
    BreakTable.standard.Breaks before next ↔ joins before.reverse next = false := by
  obtain ⟨init, last, rfl⟩ := (List.eq_nil_or_concat before).resolve_left hne
  simp only [BreakTable.Breaks, List.concat_eq_append, List.getLast?_concat, Option.mem_some_iff, exists_eq_left',
    List.reverse_concat]
  by_cases pair : breakClass last = .cr ∧ breakClass next = .lf
  · simp [joins, pair]
  · by_cases control : (breakClass last).isControl = true ∨ (breakClass next).isControl = true
    · have alone : joins (last :: init.reverse) next = false := by
        rw [← Bool.or_eq_true] at control
        rw [joins, if_neg (by simpa using pair), if_pos control]
      rw [alone]
      exact ⟨fun _ => rfl, fun _ => ⟨pair, control.imp_right .inl⟩⟩
    · obtain ⟨left, right⟩ : (breakClass last).isControl = false ∧ (breakClass next).isControl = false := by
        simpa using control
      have decided : joins (last :: init.reverse) next = true ↔ BreakTable.standard.Binds (init ++ [last]) next := by
        constructor
        · intro h
          simpa using binds_of_joins left right h
        · intro h
          simpa using joins_of_binds List.getLast?_concat left right h
      rw [← Bool.not_eq_true, decided]
      simp [pair, left, right]

end TokenScan.Unicode
