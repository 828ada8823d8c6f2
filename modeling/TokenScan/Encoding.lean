/-
  TokenScan.Encoding — the two units in which places in a text are counted: bytes of UTF-8
  and code units of UTF-16.

  A text is a list of scalars. An offset is a plain number; the encoding says what it counts
  (`width`, `size`) and how the offset is written (`describeOffset`). `splitAt?` cuts a text
  at an offset, if the offset is not inside a scalar and not past the end.
-/

namespace TokenScan

/-- What an offset into a text counts. -/
inductive Encoding where
  | utf8
  | utf16
  deriving DecidableEq, Repr

namespace Encoding

def width : Encoding → Char → Nat
  | utf8, c => c.utf8Size
  | utf16, c => if c.toNat < 0x10000 then 1 else 2

theorem width_pos (e : Encoding) (c : Char) : 0 < e.width c := by
  cases e with
  | utf8 => exact Char.utf8Size_pos c
  | utf16 => simp only [width]; split <;> omega

def size (e : Encoding) (text : List Char) : Nat := text.foldr (fun c n => e.width c + n) 0

@[simp] theorem size_nil (e : Encoding) : e.size [] = 0 := rfl

@[simp] theorem size_cons (e : Encoding) (c : Char) (text : List Char) :
    e.size (c :: text) = e.width c + e.size text := rfl

@[simp] theorem size_append (e : Encoding) (s t : List Char) : e.size (s ++ t) = e.size s + e.size t := by
  induction s with
  | nil => simp
  | cons c s ih => rw [List.cons_append, size_cons, size_cons, ih, Nat.add_assoc]

theorem size_take_add_size_drop (e : Encoding) (n : Nat) (text : List Char) :
    e.size (text.take n) + e.size (text.drop n) = e.size text := by
  rw [← size_append, List.take_append_drop]

/-- Cuts a text `n` units after its start, if a scalar ends or starts there. -/
def splitAt? (e : Encoding) : Nat → List Char → Option (List Char × List Char)
  | 0, text => some ([], text)
  | _ + 1, [] => none
  | n + 1, c :: text =>
    if e.width c ≤ n + 1 then (e.splitAt? (n + 1 - e.width c) text).map fun (s, t) => (c :: s, t) else none

/-- The part of a text between two offsets, if both are between scalars and in order. -/
def slice? (e : Encoding) (start stop : Nat) (text : List Char) : Option (List Char) := do
  guard (start ≤ stop)
  let (_, rest) ← e.splitAt? start text
  let (part, _) ← e.splitAt? (stop - start) rest
  return part

def unitName : Encoding → String
  | utf8 => "byte"
  | utf16 => "code unit"

def describeOffset : Encoding → Nat → String
  | utf8, n => s!"{n}"
  | utf16, n => s!"Utf16Offset({n})"

/-- The offset `n` as text for a reader: code units carry their unit. -/
def displayOffset : Encoding → Nat → String
  | utf8, n => s!"{n}"
  | utf16, n => s!"{n}u16"

def describeRange (e : Encoding) (start stop : Nat) : String :=
  s!"{e.describeOffset start}..{e.describeOffset stop}"

end Encoding

end TokenScan
