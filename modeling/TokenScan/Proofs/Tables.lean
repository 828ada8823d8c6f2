/-
  TokenScan.Proofs.Tables — tables of ranges that have no code point in common.

  Whether two tables are apart is a check that runs on their ranges (`CodeRange.disjoint`); a code point that is
  looked up in the one is then not found in the other (`CodeRange.not_lookup_of_disjoint`). The tables of general
  categories are apart, so it does not matter in which order they are asked (`GeneralCategory.ofCodePoint_of_lookup`).
-/

import TokenScan.Unicode.GeneralCategory

namespace TokenScan.Unicode

/-! ## Tables without a common code point -/

namespace CodeRange

def members (r : CodeRange) : List Nat := (List.range ((r.last - r.first) / r.step + 1)).map (r.first + r.step * ·)

def apart (r s : CodeRange) : Bool := r.members.all (!s.covers ·)

/-- Whether the first ranges are apart from the second. Both stand in order, so of the first
    ranges only those that overlap the one at hand are looked into. -/
def disjoint (t : List CodeRange) : List CodeRange → Bool
  | [] => true
  | s :: later =>
    let left := t.dropWhile (·.last < s.first)
    (left.takeWhile (·.first ≤ s.last)).all (·.apart s) && disjoint left later

variable {r s : CodeRange} {t u : List CodeRange} {n : Nat}

theorem mem_members_of_covers (h : r.covers n = true) : n ∈ r.members := by
  simp only [covers, Bool.and_eq_true, decide_eq_true_eq, beq_iff_eq] at h
  obtain ⟨⟨starts, ends⟩, steps⟩ := h
  have whole : r.step * ((n - r.first) / r.step) = n - r.first := Nat.mul_div_cancel' (Nat.dvd_of_mod_eq_zero steps)
  refine List.mem_map.mpr ⟨(n - r.first) / r.step, ?_, ?_⟩
  · rw [List.mem_range]
    exact Nat.lt_succ_of_le (Nat.div_le_div_right (by omega))
  · rw [whole]
    omega

theorem not_covers_of_apart (h : r.apart s = true) (hr : r.covers n = true) : s.covers n = false := by
  simp only [apart, List.all_eq_true] at h
  simpa using h n (mem_members_of_covers hr)

theorem first_lt_of_ascending (h : ascending t = true) : t.Pairwise fun r s => r.first < s.first :=
  (pairwise_of_ascending h).imp_of_mem fun hr _ behind => Nat.lt_of_le_of_lt (first_le_last_of_ascending h _ hr) behind

/-- Of ranges in order, those that start by `k` stand at the front. -/
theorem mem_takeWhile_of_first_le (ordered : t.Pairwise fun r s => r.first < s.first) {k : Nat} (hr : r ∈ t)
    (starts : r.first ≤ k) : r ∈ t.takeWhile (·.first ≤ k) := by
  induction t with
  | nil => cases hr
  | cons a t ih =>
    obtain ⟨front, ordered⟩ := List.pairwise_cons.mp ordered
    rcases List.mem_cons.mp hr with rfl | mem
    · rw [List.takeWhile_cons_of_pos (by simpa using starts)]
      exact List.mem_cons_self
    · have := front r mem
      rw [List.takeWhile_cons_of_pos (by simp only [decide_eq_true_eq]; omega)]
      exact List.mem_cons_of_mem a (ih ordered mem)

theorem not_covers_of_disjoint (ht : t.Pairwise fun r s => r.first < s.first)
    (hu : u.Pairwise fun r s => r.first < s.first) (h : disjoint t u = true) (hr : r ∈ t) (hs : s ∈ u)
    (covers : r.covers n = true) : s.covers n = false := by
  induction u generalizing t with
  | nil => cases hs
  | cons a later ih =>
    simp only [disjoint, Bool.and_eq_true, List.all_eq_true] at h
    obtain ⟨here, behind⟩ := h
    obtain ⟨front, ordered⟩ := List.pairwise_cons.mp hu
    rw [Bool.eq_false_iff]
    intro also
    have inside := first_le_of_covers covers
    have inside' := first_le_of_covers also
    have starts : a.first ≤ s.first := by
      rcases List.mem_cons.mp hs with rfl | mem
      · exact Nat.le_refl _
      · exact Nat.le_of_lt (front s mem)
    -- a range that is passed over ends before `a` starts, and `n` is in `r`
    have left : r ∈ t.dropWhile (·.last < a.first) := by
      rw [← List.takeWhile_append_dropWhile (p := (·.last < a.first)) (l := t)] at hr
      rcases List.mem_append.mp hr with passed | left
      · have := List.all_eq_true.mp List.all_takeWhile r passed
        simp only [decide_eq_true_eq] at this
        omega
      · exact left
    have ht' := ht.sublist (List.dropWhile_sublist (·.last < a.first))
    rcases List.mem_cons.mp hs with rfl | mem
    · have overlaps := mem_takeWhile_of_first_le ht' left (Nat.le_trans inside.1 inside'.2)
      rw [not_covers_of_apart (here r overlaps) covers] at also
      cases also
    · rw [ih ht' ordered behind left mem] at also
      cases also

theorem not_lookup_of_disjoint {t u : Array CodeRange} (ht : sorted t = true) (hu : sorted u = true)
    (h : disjoint t.toList u.toList = true) (found : lookup t n = true) : lookup u n = false := by
  obtain ⟨r, hr, covers⟩ := (lookup_iff ht n).mp found
  rw [Bool.eq_false_iff]
  intro also
  obtain ⟨s, hs, covers'⟩ := (lookup_iff hu n).mp also
  have := not_covers_of_disjoint (first_lt_of_ascending ht) (first_lt_of_ascending hu) h
    (Array.mem_toList_iff.mpr hr) (Array.mem_toList_iff.mpr hs) covers
  rw [this] at covers'
  cases covers'

end CodeRange

/-! ## General categories -/

namespace GeneralCategory

theorem tables_disjoint :
    ∀ t ∈ tables, ∀ u ∈ tables, t.1 ≠ u.1 → CodeRange.disjoint t.2.toList u.2.toList = true := by decide +kernel

/-- The table that a code point is in tells its category, whichever of them are asked before. -/
theorem ofCodePoint_of_lookup {t : GeneralCategory × Array CodeRange} {n : Nat} (h : t ∈ tables)
    (found : CodeRange.lookup t.2 n = true) : ofCodePoint n = t.1 := by
  unfold ofCodePoint
  cases first : tables.find? fun t => CodeRange.lookup t.2 n with
  | none => exact absurd found (List.find?_eq_none.mp first t h)
  | some u =>
    have hu := List.mem_of_find?_eq_some first
    by_cases same : u.1 = t.1
    · exact same
    · have apart := tables_disjoint u hu t h same
      have also : CodeRange.lookup u.2 n = true := by simpa using List.find?_some first
      rw [CodeRange.not_lookup_of_disjoint (tables_sorted u hu) (tables_sorted t h) apart also] at found
      cases found

end GeneralCategory

end TokenScan.Unicode
