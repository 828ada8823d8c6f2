/-
  TokenScan.Unicode.RangeTable — sets of code points written as sorted tables of ranges,
  the form in which the Unicode standard publishes its properties.

  `lookup` finds the one range that can hold a code point by halving the table. Over a table
  that is `sorted`, which is a check that runs on the table, it answers for the whole table
  (`lookup_iff`).
-/

namespace TokenScan.Unicode

/-- The code points `first`, `first + step`, … up to `last`. -/
structure CodeRange where
  first : Nat
  last : Nat
  step : Nat
  deriving DecidableEq, Repr

namespace CodeRange

def covers (r : CodeRange) (n : Nat) : Bool :=
  r.first ≤ n && n ≤ r.last && (n - r.first) % r.step == 0

/-- How many ranges start at or before `n`, given that the count lies between `lo` and `hi`;
    `depth` halvings must be enough to close that gap. -/
def rank (table : Array CodeRange) (n : Nat) : (depth lo hi : Nat) → Nat
  | 0, lo, _ => lo
  | depth + 1, lo, hi =>
    if lo < hi then
      match table[(lo + hi) / 2]? with
      | none => lo
      | some r =>
        if r.first ≤ n then rank table n depth ((lo + hi) / 2 + 1) hi
        else rank table n depth lo ((lo + hi) / 2)
    else lo

/-- Whether some range of the sorted table holds the code point `n`. -/
def lookup (table : Array CodeRange) (n : Nat) : Bool :=
  match rank table n (table.size.log2 + 1) 0 table.size with
  | 0 => false
  | k + 1 => (table[k]?).any (·.covers n)

/-! ## Order -/

/-- Every range is non-empty and ends before the next one starts. -/
def ascending : List CodeRange → Bool
  | [] => true
  | [r] => r.first ≤ r.last
  | r :: s :: rest => r.first ≤ r.last && r.last < s.first && ascending (s :: rest)

def sorted (table : Array CodeRange) : Bool := ascending table.toList

theorem first_le_last_of_ascending {ranges : List CodeRange} (h : ascending ranges = true) :
    ∀ r ∈ ranges, r.first ≤ r.last := by
  fun_induction ascending ranges with
  | case1 => simp
  | case2 r => simpa using h
  | case3 r s rest ih =>
    simp only [Bool.and_eq_true, decide_eq_true_eq] at h
    intro t ht
    rcases List.mem_cons.mp ht with rfl | ht
    · exact h.1.1
    · exact ih h.2 t ht

theorem pairwise_of_ascending {ranges : List CodeRange} (h : ascending ranges = true) :
    ranges.Pairwise fun r s => r.last < s.first := by
  fun_induction ascending ranges with
  | case1 => exact .nil
  | case2 r => exact List.pairwise_singleton _ _
  | case3 r s rest ih =>
    simp only [Bool.and_eq_true, decide_eq_true_eq] at h
    have tail := ih h.2
    refine .cons (fun t ht => ?_) tail
    rcases List.mem_cons.mp ht with rfl | ht
    · exact h.1.2
    · have := List.rel_of_pairwise_cons tail ht
      have := first_le_last_of_ascending h.2 s List.mem_cons_self
      omega

theorem first_le_last {table : Array CodeRange} (h : sorted table = true) {i : Nat} {r : CodeRange}
    (hr : table[i]? = some r) : r.first ≤ r.last :=
  first_le_last_of_ascending h r (by rw [← Array.getElem?_toList] at hr; exact List.mem_of_getElem? hr)

theorem last_lt_first {table : Array CodeRange} (h : sorted table = true) {i j : Nat} {r s : CodeRange}
    (hi : table[i]? = some r) (hj : table[j]? = some s) (hij : i < j) : r.last < s.first := by
  rw [← Array.getElem?_toList] at hi hj
  obtain ⟨hi', rfl⟩ := List.getElem?_eq_some_iff.mp hi
  obtain ⟨hj', rfl⟩ := List.getElem?_eq_some_iff.mp hj
  exact List.pairwise_iff_getElem.mp (pairwise_of_ascending h) i j hi' hj' hij

/-! ## Look-up -/

theorem rank_le (table : Array CodeRange) (n depth lo hi : Nat) (h : lo ≤ hi) : rank table n depth lo hi ≤ hi := by
  induction depth generalizing lo hi with
  | zero => exact h
  | succ depth ih =>
    simp only [rank]
    split
    · split
      · exact h
      · split
        · exact ih _ _ (by omega)
        · exact Nat.le_trans (ih _ _ (by omega)) (by omega)
    · exact h

/-- What `rank` narrows down: the ranges before the rank are those that start at or before `n`. -/
theorem first_le_iff_lt_rank {table : Array CodeRange} {n : Nat}
    (mono : ∀ {i j : Nat} {r s : CodeRange}, table[i]? = some r → table[j]? = some s → i < j → r.first < s.first)
    (depth lo hi : Nat) (short : hi - lo < 1 <<< depth) (inside : hi ≤ table.size)
    (below : ∀ i r, i < lo → table[i]? = some r → r.first ≤ n)
    (above : ∀ i r, hi ≤ i → table[i]? = some r → n < r.first) (i : Nat) (r : CodeRange) (hr : table[i]? = some r) :
    r.first ≤ n ↔ i < rank table n depth lo hi := by
  induction depth generalizing lo hi with
  | zero =>
    simp only [Nat.shiftLeft_zero] at short
    simp only [rank]
    refine ⟨fun hn => Decidable.byContradiction fun hlo => ?_, fun hlo => below i r hlo hr⟩
    have := above i r (by omega) hr
    omega
  | succ depth ih =>
    simp only [rank]
    split
    case isFalse h =>
      refine ⟨fun hn => Decidable.byContradiction fun hlo => ?_, fun hlo => below i r hlo hr⟩
      have := above i r (by omega) hr
      omega
    case isTrue h =>
      have hmid : (lo + hi) / 2 < table.size := by omega
      have hpow : 2 ^ (depth + 1) = 2 * 2 ^ depth := by rw [Nat.pow_succ, Nat.mul_comm]
      have middle := Array.getElem?_eq_getElem hmid
      rw [middle]
      simp only
      split
      case isTrue hn =>
        refine ih _ _ (by omega) inside (fun i r hi' hr' => ?_) above
        rcases Nat.lt_or_eq_of_le (Nat.le_of_lt_succ hi') with hlt | rfl
        · have := mono hr' middle hlt
          omega
        · rw [middle, Option.some.injEq] at hr'
          exact hr' ▸ hn
      case isFalse hn =>
        refine ih _ _ (by omega) (by omega) below fun i r hi' hr' => ?_
        rcases Nat.lt_or_eq_of_le hi' with hlt | rfl
        · have := mono middle hr' hlt
          omega
        · rw [middle, Option.some.injEq] at hr'
          rw [hr'] at hn
          omega

theorem first_le_of_covers {r : CodeRange} {n : Nat} (h : r.covers n = true) : r.first ≤ n ∧ n ≤ r.last := by
  simp only [covers, Bool.and_eq_true, decide_eq_true_eq] at h
  exact h.1

/-- Over a sorted table, `lookup` finds a code point exactly if some range holds it. -/
theorem lookup_iff {table : Array CodeRange} (h : sorted table = true) (n : Nat) :
    lookup table n = true ↔ ∃ r ∈ table, r.covers n = true := by
  have before := first_le_iff_lt_rank (n := n)
    (fun hi hj hij => Nat.lt_of_le_of_lt (first_le_last h hi) (last_lt_first h hi hj hij))
    (table.size.log2 + 1) 0 table.size (by have := Nat.lt_log2_self (n := table.size); rw [Nat.one_shiftLeft]; omega) (Nat.le_refl _)
    (fun i r hi => absurd hi (Nat.not_lt_zero i))
    (fun i r hi hr => by rw [Array.getElem?_eq_none hi] at hr; cases hr)
  have inside := rank_le table n (table.size.log2 + 1) 0 table.size (Nat.zero_le _)
  simp only [lookup]
  generalize rank table n (table.size.log2 + 1) 0 table.size = k at before inside
  constructor
  · intro found
    cases k with
    | zero => simp at found
    | succ k =>
      have hk : table[k]? = some table[k] := Array.getElem?_eq_getElem inside
      exact ⟨table[k], Array.mem_of_getElem? hk, by simpa [hk] using found⟩
  · rintro ⟨r, hr, hc⟩
    obtain ⟨i, hi⟩ := Array.mem_iff_getElem?.mp hr
    have hik := (before i r hi).mp (first_le_of_covers hc).1
    cases k with
    | zero => omega
    | succ k =>
      have hk : table[k]? = some table[k] := Array.getElem?_eq_getElem inside
      rcases Nat.lt_or_eq_of_le (Nat.le_of_lt_succ hik) with hlt | rfl
      · have := (before k _ hk).mpr (Nat.lt_succ_self k)
        have := last_lt_first h hi hk hlt
        have := (first_le_of_covers hc).2
        omega
      · simp [hi, hc]

end CodeRange

end TokenScan.Unicode
