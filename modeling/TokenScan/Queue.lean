/-
  TokenScan.Queue — first-in-first-out queues that can also be read at any place.

  The items stand in an array behind those that have been taken; the array is cut down when
  these make up half of it. `toList` is what the queue holds, front first, and each operation
  is described by what it does to that list.
-/

namespace TokenScan

structure Queue (α : Type) where
  items : Array α
  /-- How many of `items` have been taken. -/
  taken : Nat
  taken_le : taken ≤ items.size

namespace Queue

variable {α : Type}

def empty : Queue α := ⟨#[], 0, Nat.le_refl 0⟩

instance : EmptyCollection (Queue α) := ⟨empty⟩

instance : Inhabited (Queue α) := ⟨empty⟩

def toList (q : Queue α) : List α := q.items.toList.drop q.taken

def size (q : Queue α) : Nat := q.items.size - q.taken

def isEmpty (q : Queue α) : Bool := q.size == 0

def get? (q : Queue α) (i : Nat) : Option α := q.items[q.taken + i]?

def push (q : Queue α) (a : α) : Queue α :=
  ⟨q.items.push a, q.taken, Nat.le_trans q.taken_le (by simp)⟩

/-- The front item and the queue behind it. -/
def pop? (q : Queue α) : Option (α × Queue α) :=
  if h : q.taken < q.items.size then
    let rest :=
      if q.items.size ≤ 2 * (q.taken + 1) then ⟨q.items.extract (q.taken + 1) q.items.size, 0, Nat.zero_le _⟩
      else ⟨q.items, q.taken + 1, h⟩
    some (q.items[q.taken], rest)
  else none

/-! ## What the operations do to the list -/

@[simp] theorem toList_empty : (∅ : Queue α).toList = [] := rfl

@[simp] theorem length_toList (q : Queue α) : q.toList.length = q.size := by
  simp [toList, size]

theorem isEmpty_iff (q : Queue α) : q.isEmpty = true ↔ q.toList = [] := by
  rw [← List.length_eq_zero_iff, length_toList]
  simp [isEmpty]

@[simp] theorem toList_push (q : Queue α) (a : α) : (q.push a).toList = q.toList ++ [a] := by
  simp only [toList, push, Array.toList_push]
  exact List.drop_append_of_le_length q.taken_le

@[simp] theorem get?_eq (q : Queue α) (i : Nat) : q.get? i = q.toList[i]? := by
  simp [get?, toList]

theorem pop?_eq_none_iff (q : Queue α) : q.pop? = none ↔ q.toList = [] := by
  simp only [pop?, toList, List.drop_eq_nil_iff, Array.length_toList]
  split <;> simp <;> omega

/-- What is taken from a queue is the head of its list, and what is left is the tail. -/
theorem toList_of_pop? {q r : Queue α} {a : α} (h : q.pop? = some (a, r)) : q.toList = a :: r.toList := by
  simp only [pop?] at h
  split at h
  case isTrue inside =>
    obtain ⟨rfl, rfl⟩ : q.items[q.taken] = a ∧ _ = r := by simpa using h
    have front : q.items.toList.drop q.taken = q.items[q.taken] :: q.items.toList.drop (q.taken + 1) := by
      rw [List.drop_eq_getElem_cons (by simpa using inside)]
      simp
    simp only [toList, front]
    congr 1
    split
    · simp [Array.toList_extract, List.take_of_length_le]
    · rfl
  case isFalse => simp at h

end Queue

end TokenScan
