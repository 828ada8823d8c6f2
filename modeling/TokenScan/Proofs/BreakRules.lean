/-
  TokenScan.Proofs.BreakRules — the rules for breaking a text into extended grapheme clusters, each stated
  by itself on the text before a place and the scalar behind it.

  `Binds` has one case per rule that keeps a scalar with the text before it, and `Breaks` puts them together:
  CR and LF stay together, controls stand alone, and all else breaks where nothing binds. Three of the rules
  look back as far as they need to: to the consonant that a conjunct starts with, to the pictograph in front of
  its marks, and over all the regional indicators in a row. What the classes of the scalars are, the rules
  leave to a table (`BreakTable`).

  They look back further than the last break, but never over it: marks that come behind a break have a control in
  front of them or nothing, so no conjunct and no pictograph reaches them (`reaches_of_attaches`), and in front of a
  break between regional indicators there is an even number of them (`even_of_breaks`). So whether a text breaks at
  some place behind a break is the same with and without what comes before (`breaks_append`).
-/

import Mathlib.Data.List.DropRight
import TokenScan.Unicode.Cluster

namespace TokenScan.Unicode

open GraphemeBreak

/-! ## The rules -/

/-- The break class of each scalar, and its part in a conjunct. What may stand between the consonants of a conjunct
    attaches to what comes before it, and no consonant is a control. -/
structure BreakTable where
  breakClass : Char → BreakClass
  isConsonant : Char → Bool
  isLinker : Char → Bool
  isExtend : Char → Bool
  class_of_mark : ∀ {c}, isLinker c = true ∨ isExtend c = true → breakClass c = .extend ∨ breakClass c = .zwj
  class_of_consonant : ∀ {c}, isConsonant c = true → (breakClass c).isControl = false

namespace BreakTable

variable (T : BreakTable)

/-- What keeps a scalar together with the text before it, if neither is a control. -/
inductive Binds : (before : List Char) → (next : Char) → Prop
  /-- A Hangul syllable goes on. -/
  | syllable {before : List Char} {last next : Char} :
      (T.breakClass last).joinsSyllable (T.breakClass next) = true → Binds (before ++ [last]) next
  /-- Marks go with what they come behind. -/
  | mark {before : List Char} {next : Char} : (T.breakClass next).attaches = true → Binds before next
  | prepended {before : List Char} {last next : Char} : T.breakClass last = .prepend → Binds (before ++ [last]) next
  /-- Two consonants with marks between them, one of which links them. -/
  | conjunct {before : List Char} {consonant : Char} {marks : List Char} {next : Char} :
      T.isConsonant consonant = true → (∀ m ∈ marks, T.isLinker m = true ∨ T.isExtend m = true) →
      (∃ m ∈ marks, T.isLinker m = true) → T.isConsonant next = true → Binds (before ++ consonant :: marks) next
  /-- Two pictographs with a joiner between them, the first one with its marks. -/
  | pictographs {before : List Char} {pictograph : Char} {marks : List Char} {joiner next : Char} :
      T.breakClass pictograph = .pictographic → (∀ m ∈ marks, T.breakClass m = .extend) → T.breakClass joiner = .zwj →
      T.breakClass next = .pictographic → Binds (before ++ pictograph :: (marks ++ [joiner])) next
  /-- Of regional indicators in a row, each second one belongs to the one before it. -/
  | flag {before indicators : List Char} {next : Char} :
      (∀ c ∈ before.getLast?, T.breakClass c ≠ .regionalIndicator) →
      (∀ c ∈ indicators, T.breakClass c = .regionalIndicator) → indicators.length % 2 = 1 →
      T.breakClass next = .regionalIndicator → Binds (before ++ indicators) next

/-- The text breaks between all that comes before and the scalar that comes next: CR and LF stay
    together, any other control stands alone, and everything else breaks where nothing binds. -/
def Breaks (before : List Char) (next : Char) : Prop :=
  ∃ last ∈ before.getLast?, ¬(T.breakClass last = .cr ∧ T.breakClass next = .lf) ∧
    ((T.breakClass last).isControl = true ∨ (T.breakClass next).isControl = true ∨ ¬T.Binds before next)

/-! ## Starting over at a break -/

variable {T} {earlier s l r : List Char} {c first next : Char}

theorem attaches_of_mark (h : T.isLinker c = true ∨ T.isExtend c = true) : (T.breakClass c).attaches = true := by
  rcases T.class_of_mark h with hc | hc <;> rw [hc] <;> rfl

theorem not_control_of_attaches {k : BreakClass} (h : k.attaches = true) : k.isControl = false := by
  cases k <;> first | rfl | cases h

/-- What attaches does not come behind a break, unless that is behind a control. -/
theorem not_breaks_of_attaches (plain : ∀ c ∈ earlier.getLast?, (T.breakClass c).isControl = false)
    (h : (T.breakClass first).attaches = true) : ¬T.Breaks earlier first := by
  rintro ⟨last, mem, -, control | control | free⟩
  · rw [plain last mem] at control
    cases control
  · rw [not_control_of_attaches h] at control
    cases control
  · exact free (.mark h)

/-- A rule that reaches over a break from behind it has a scalar that attaches right behind the break. -/
theorem reaches_of_attaches (cut : ∀ x ∈ s.head?, earlier = [] ∨ T.Breaks earlier x) (hs : s ≠ [])
    (h : earlier ++ s = l ++ c :: r) (plain : (T.breakClass c).isControl = false)
    (marks : ∀ m ∈ r, (T.breakClass m).attaches = true) : ∃ l', s = l' ++ c :: r := by
  rcases List.append_eq_append_iff.mp h with ⟨a, -, rfl⟩ | ⟨a, rfl, ha⟩
  · exact ⟨a, rfl⟩
  · cases a with
    | nil => exact ⟨[], ha.symm⟩
    | cons x a =>
      obtain ⟨rfl, rfl⟩ := List.cons.inj ha
      obtain ⟨first, s, rfl⟩ := List.exists_cons_of_ne_nil hs
      have attaches := marks first (by simp)
      refine absurd ((cut first rfl).resolve_left (by simp)) (not_breaks_of_attaches ?_ attaches)
      intro y mem
      -- in front of the break there is the scalar that the rule starts with, or another one that attaches
      have hy : y ∈ c :: a := by
        rw [List.getLast?_append_of_ne_nil _ (List.cons_ne_nil c a)] at mem
        exact List.mem_of_getLast? mem
      rcases List.mem_cons.mp hy with rfl | hy
      · exact plain
      · exact not_control_of_attaches (marks y (List.mem_append_left _ hy))

/-- In front of a break between two regional indicators there is an even number of them. -/
theorem even_of_breaks {indicators : List Char} (cut : T.Breaks (l ++ indicators) first)
    (hl : ∀ c ∈ l.getLast?, T.breakClass c ≠ .regionalIndicator)
    (ha : ∀ c ∈ indicators, T.breakClass c = .regionalIndicator) (hf : T.breakClass first = .regionalIndicator) :
    indicators.length % 2 = 0 := by
  by_contra odd
  have binds : T.Binds (l ++ indicators) first := .flag hl ha (by omega) hf
  obtain ⟨last, mem, -, control | control | free⟩ := cut
  · have hi : indicators ≠ [] := by
      rintro rfl
      exact odd rfl
    rw [List.getLast?_append_of_ne_nil _ hi] at mem
    rw [ha last (List.mem_of_getLast? mem)] at control
    cases control
  · rw [hf] at control
    cases control
  · exact free binds

theorem exists_indicators (T : BreakTable) (l : List Char) : ∃ before indicators, l = before ++ indicators ∧
    (∀ c ∈ before.getLast?, T.breakClass c ≠ .regionalIndicator) ∧
    ∀ c ∈ indicators, T.breakClass c = .regionalIndicator := by
  refine ⟨l.rdropWhile (T.breakClass · == .regionalIndicator), l.rtakeWhile (T.breakClass · == .regionalIndicator),
    List.rdropWhile_append_rtakeWhile.symm, ?_, ?_⟩
  · intro c mem
    obtain ⟨hne, rfl⟩ := List.mem_getLast?_eq_getLast mem
    simpa using List.rdropWhile_last_not _ _ hne
  · intro c mem
    simpa using List.mem_rtakeWhile_imp mem

theorem ends_of_append_eq (hs : s ≠ []) (h : earlier ++ s = l ++ [c]) : ∃ l', s = l' ++ [c] := by
  have last := congrArg List.getLast? h
  rw [List.getLast?_append_of_ne_nil _ hs, List.getLast?_concat] at last
  exact List.getLast?_eq_some_iff.mp last

/-- So there is where a text starts over, behind a break or with nothing before it. -/
theorem even_of_cut (cut : ∀ x ∈ s.head?, earlier = [] ∨ T.Breaks earlier x)
    (hl : ∀ c ∈ l.getLast?, T.breakClass c ≠ .regionalIndicator)
    (ha : ∀ c ∈ r ++ s, T.breakClass c = .regionalIndicator) (hs : s ≠ []) (h : earlier = l ++ r) : r.length % 2 = 0 := by
  obtain ⟨first, s, rfl⟩ := List.exists_cons_of_ne_nil hs
  rcases cut first rfl with rfl | cut
  · obtain ⟨-, rfl⟩ := List.append_eq_nil_iff.mp h.symm
    rfl
  · subst h
    exact even_of_breaks cut hl (fun c mem => ha c (List.mem_append_left _ mem)) (ha first (by simp))

/-- What binds behind a break binds with and without what comes before the break. -/
theorem binds_append_iff (cut : ∀ x ∈ s.head?, earlier = [] ∨ T.Breaks earlier x) (hs : s ≠ []) :
    T.Binds (earlier ++ s) next ↔ T.Binds s next := by
  constructor
  · intro h
    generalize whole : earlier ++ s = before at h
    cases h with
    | syllable h =>
      obtain ⟨l, rfl⟩ := ends_of_append_eq hs whole
      exact .syllable h
    | mark h => exact .mark h
    | prepended h =>
      obtain ⟨l, rfl⟩ := ends_of_append_eq hs whole
      exact .prepended h
    | conjunct hc ha link hn =>
      obtain ⟨l, rfl⟩ := reaches_of_attaches cut hs whole (T.class_of_consonant hc) fun m mem => attaches_of_mark (ha m mem)
      exact .conjunct hc ha link hn
    | pictographs hp ha hj hn =>
      obtain ⟨l, rfl⟩ := reaches_of_attaches cut hs whole (by rw [hp]; rfl) (by
        intro m mem
        rcases List.mem_append.mp mem with mem | mem
        · rw [ha m mem]
          rfl
        · rw [List.mem_singleton.mp mem, hj]
          rfl)
      exact .pictographs hp ha hj hn
    | flag hl ha odd hn =>
      rcases List.append_eq_append_iff.mp whole with ⟨a, rfl, rfl⟩ | ⟨a, he, rfl⟩
      · exact .flag (fun c mem => hl c (List.mem_getLast?_append_of_mem_getLast? mem)) ha odd hn
      · have even := even_of_cut cut hl ha hs he
        rw [List.length_append] at odd
        have binds : T.Binds ([] ++ s) next :=
          .flag (by simp) (fun c mem => ha c (List.mem_append_right a mem)) (by omega) hn
        exact binds
  · intro h
    cases h with
    | syllable h =>
      rw [← List.append_assoc]
      exact .syllable h
    | mark h => exact .mark h
    | prepended h =>
      rw [← List.append_assoc]
      exact .prepended h
    | conjunct hc ha link hn =>
      rw [← List.append_assoc]
      exact .conjunct hc ha link hn
    | pictographs hp ha hj hn =>
      rw [← List.append_assoc]
      exact .pictographs hp ha hj hn
    | @flag before indicators _ hl ha odd hn =>
      by_cases hb : before = []
      · subst hb
        obtain ⟨l, r, rfl, hl, hr⟩ := exists_indicators T earlier
        have whole : ∀ c ∈ r ++ indicators, T.breakClass c = .regionalIndicator :=
          fun c mem => (List.mem_append.mp mem).elim (hr c) (ha c)
        have even := even_of_cut cut hl whole hs rfl
        rw [List.nil_append, List.append_assoc]
        refine .flag hl whole ?_ hn
        rw [List.length_append]
        omega
      · rw [← List.append_assoc]
        refine .flag ?_ ha odd hn
        rwa [List.getLast?_append_of_ne_nil _ hb]

/-- Whether the text breaks at a place behind a break is the same with and without what comes before that. -/
theorem breaks_append (cut : ∀ x ∈ s.head?, earlier = [] ∨ T.Breaks earlier x) (hs : s ≠ []) (next : Char) :
    T.Breaks (earlier ++ s) next ↔ T.Breaks s next := by
  simp only [Breaks, List.getLast?_append_of_ne_nil _ hs, binds_append_iff cut hs]

end BreakTable

end TokenScan.Unicode
