/-
  TokenScan.Proofs.Segmentation — reading cluster after cluster breaks a text where the rules break the whole.

  A reader takes the first cluster of what is left of a text, up to where the rules break that, and never looks at
  what is in front of it. The rules look back further, but never over a break (`BreakTable.breaks_append`). Hence the
  clusters end where the rules, given the whole text before, break the text
  (`ClusterRules.flatten_take_characters_iff`), and a reader stops there, at the start, at the end, and nowhere else
  (`TextReader.stops_where_text_breaks`).

  That asks of the function that finds a first cluster only to go by the rules (`ClusterRules`), as the one of this
  library does (`breaks_iff_eq_clusterLength`).
-/

import TokenScan.Proofs.Joining
import TokenScan.Proofs.Walk

namespace TokenScan

namespace Unicode

/-! ## First clusters -/

section

variable {joins : List Char → Char → Bool} {s t l : List Char} {c : Char} {length : Nat}

/-- Up to the end of a cluster every scalar is joined to those before it, and the one behind the cluster is not. -/
theorem joins_iff_lt_clusterLengthFrom (inside : length + s.length ≤ clusterLengthFrom joins l length (s ++ c :: t)) :
    joins (s.reverse ++ l) c = true ↔ length + s.length < clusterLengthFrom joins l length (s ++ c :: t) := by
  induction s generalizing l length with
  | nil =>
    rw [List.reverse_nil, List.nil_append, List.nil_append, clusterLengthFrom, List.length_nil, Nat.add_zero]
    split
    · next goes => exact ⟨fun _ => le_clusterLengthFrom _ _ _, fun _ => goes⟩
    · next stops => simp [stops]
  | cons x s ih =>
    rw [List.cons_append, clusterLengthFrom, List.length_cons] at *
    split at inside
    · next goes =>
      rw [if_pos goes, List.reverse_cons, List.append_assoc, List.singleton_append]
      rw [show length + (s.length + 1) = length + 1 + s.length by omega] at *
      exact ih inside
    · omega

theorem joins_iff_lt_clusterLength (hs : s ≠ []) (inside : s.length ≤ clusterLength joins (s ++ c :: t)) :
    joins s.reverse c = true ↔ s.length < clusterLength joins (s ++ c :: t) := by
  obtain ⟨first, s, rfl⟩ := List.exists_cons_of_ne_nil hs
  rw [List.length_cons, Nat.add_comm] at *
  rw [List.reverse_cons]
  exact joins_iff_lt_clusterLengthFrom inside

/-- The first cluster of a text ends where the rules first break the text, or else with it. -/
theorem breaks_iff_eq_clusterLength (hs : s ≠ []) (inside : s.length ≤ clusterLength Unicode.joins (s ++ c :: t)) :
    BreakTable.standard.Breaks s c ↔ s.length = clusterLength Unicode.joins (s ++ c :: t) := by
  have goes := joins_iff_lt_clusterLength hs inside
  rw [breaks_iff hs, ← Bool.not_eq_true, goes]
  omega

end

/-- Classes of scalars, and a function that finds first clusters by them: where the rules first break a text, or
    else at its end. -/
structure ClusterRules extends BreakTable where
  first : FirstCluster
  ends : ∀ {s t : List Char} {c : Char}, s ≠ [] → s.length ≤ first.length (s ++ c :: t) →
    (toBreakTable.Breaks s c ↔ s.length = first.length (s ++ c :: t))

namespace ClusterRules

def standard : ClusterRules where
  toBreakTable := .standard
  first := .standard
  ends := breaks_iff_eq_clusterLength

/-! ## Cluster after cluster -/

variable {s t : List Char} {c : Char}

/-- The blocks from the first one on make up what starts with it if those behind it make up the rest. -/
theorem flatten_take_cons_iff {block : List Char} {blocks : List (List Char)} (hne : block ++ s ≠ []) :
    (∃ n, ((block :: blocks).take n).flatten = block ++ s) ↔ ∃ n, (blocks.take n).flatten = s := by
  constructor
  · rintro ⟨n, whole⟩
    cases n with
    | zero => exact absurd whole.symm hne
    | succ n => exact ⟨n, List.append_cancel_left whole⟩
  · rintro ⟨n, whole⟩
    exact ⟨n + 1, congrArg (block ++ ·) whole⟩

/-- The first characters of a text make up the text before some place exactly if the text breaks there. -/
theorem flatten_take_characters_iff (rules : ClusterRules) (hs : s ≠ []) :
    (∃ n, (((Grain.clusters rules.first).characters (s ++ c :: t)).take n).flatten = s) ↔ rules.Breaks s c := by
  induction shorter : s.length using Nat.strong_induction_on generalizing s with
  | _ size ih =>
    have hne : s ++ c :: t ≠ [] := by simp
    have pos : 0 < rules.first.length (s ++ c :: t) := (Grain.clusters rules.first).firstLength_pos hne
    rw [Grain.characters_of_ne_nil hne, Grain.firstLength]
    rcases Nat.lt_trichotomy s.length (rules.first.length (s ++ c :: t)) with within | ends | beyond
    · -- inside the first cluster: the first characters are nothing, or reach further
      have joined := (rules.ends hs (Nat.le_of_lt within)).not.mpr (Nat.ne_of_lt within)
      simp only [joined, iff_false]
      rintro ⟨n, whole⟩
      cases n with
      | zero => exact hs whole.symm
      | succ n =>
        have := congrArg List.length whole
        rw [List.take_succ_cons, List.flatten_cons, List.length_append, List.length_take, List.length_append,
          List.length_cons] at this
        omega
    · -- at its end
      have broken := (rules.ends hs (Nat.le_of_eq ends)).mpr ends
      simp only [broken, iff_true]
      refine ⟨1, ?_⟩
      simp [← ends]
    · -- behind it: without it, the same holds of what is left
      obtain ⟨cluster, x, s, rfl, length⟩ : ∃ cluster x rest, s = cluster ++ x :: rest ∧
          cluster.length = rules.first.length (s ++ c :: t) := by
        refine ⟨s.take (rules.first.length (s ++ c :: t)), s[rules.first.length (s ++ c :: t)],
          s.drop (rules.first.length (s ++ c :: t) + 1), ?_, ?_⟩
        · rw [← List.drop_eq_getElem_cons beyond, List.take_append_drop]
        · rw [List.length_take]
          omega
      rw [← length, List.append_assoc, List.take_left, List.drop_left]
      rw [List.append_assoc, List.cons_append] at length pos
      have hc : cluster ≠ [] := List.ne_nil_of_length_pos (by omega)
      have broken : rules.Breaks cluster x := (rules.ends hc (Nat.le_of_eq length)).mpr length
      have fewer : (x :: s).length < size := by
        rw [← shorter, List.length_append]
        omega
      have restart : ∀ y ∈ (x :: s).head?, cluster = [] ∨ rules.Breaks cluster y := by simpa using .inr broken
      rw [BreakTable.breaks_append restart (List.cons_ne_nil x s), ← ih _ fewer (List.cons_ne_nil x s) rfl]
      exact flatten_take_cons_iff (by simp)

end ClusterRules

end Unicode

/-! ## Readers -/

namespace TextReader

variable {grain : Grain} {e : Encoding}

def afterMoves (r : TextReader grain e) : Nat → TextReader grain e
  | 0 => r
  | n + 1 => r.advance.2.afterMoves n

theorem byteOffset_afterMoves {r : TextReader grain e} (ready : r.Ready) (n : Nat) :
    (r.afterMoves n).byteOffset = r.byteOffset + Encoding.utf8.size ((grain.characters r.rest).take n).flatten := by
  induction n generalizing r with
  | zero => rfl
  | succ n ih =>
    rw [afterMoves]
    by_cases ended : r.rest = []
    · rw [advance_of_ended ready ended, ih ready, ended, Grain.characters_nil]
      simp
    · rw [advance_of_ready ready ended, ih r.moved_ready, Grain.characters_of_ne_nil ended, List.take_succ_cons,
        List.flatten_cons, Encoding.size_append, ← ready, ← Nat.add_assoc]
      rfl

/-- A reader of clusters by any rules, whichever units it counts, stops at the start of a text, at its end, and
    wherever the rules break the text, given all of the text before that place; and it stops nowhere else. The clusters
    of this library are found by such rules. -/
theorem stops_where_text_breaks :
    (∀ (rules : Unicode.ClusterRules) (e : Encoding) (text : List Char) (b : Nat),
      (∃ n, ((ofText text : TextReader (.clusters rules.first) e).afterMoves n).byteOffset = b) ↔
        b = 0 ∨ b = Encoding.utf8.size text ∨ ∃ before next behind, text = before ++ next :: behind ∧
          rules.Breaks before next ∧ b = Encoding.utf8.size before) ∧
    Grain.cluster = .clusters Unicode.ClusterRules.standard.first := by
  refine ⟨fun rules e text b => ?_, rfl⟩
  let grain : Grain := .clusters rules.first
  have offset (n : Nat) : ((ofText text : TextReader grain e).afterMoves n).byteOffset =
      Encoding.utf8.size ((grain.characters text).take n).flatten := by
    have ready : (ofText text : TextReader grain e).Ready := rfl
    rw [byteOffset_afterMoves ready]
    exact Nat.zero_add _
  have whole := grain.flatten_characters text
  simp only [grain, offset]
  constructor
  · rintro ⟨n, rfl⟩
    rw [← List.take_append_drop n (grain.characters text), List.flatten_append] at whole
    generalize before : ((grain.characters text).take n).flatten = s at whole ⊢
    by_cases start : s = []
    · exact .inl (by rw [start]; rfl)
    · right
      cases behind : ((grain.characters text).drop n).flatten with
      | nil =>
        rw [behind, List.append_nil] at whole
        exact .inl (by rw [whole])
      | cons next behind' =>
        rw [behind] at whole
        subst whole
        exact .inr ⟨s, next, behind', rfl, (rules.flatten_take_characters_iff start).mp ⟨n, before⟩, rfl⟩
  · rintro (rfl | rfl | ⟨before, next, behind, rfl, breaks, rfl⟩)
    · exact ⟨0, rfl⟩
    · refine ⟨(grain.characters text).length, ?_⟩
      rw [List.take_length, whole]
    · have hb : before ≠ [] := by
        rintro rfl
        obtain ⟨last, ends, -⟩ := breaks
        cases ends
      obtain ⟨n, before_eq⟩ := (rules.flatten_take_characters_iff hb).mpr breaks
      exact ⟨n, by rw [before_eq]⟩

end TextReader

end TokenScan
