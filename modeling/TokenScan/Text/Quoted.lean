/-
  TokenScan.Text.Quoted — texts between double quotes, as diagnostics show them.
-/

namespace TokenScan.Text

/-- A scalar inside double quotes: the quote, the backslash and control characters are written
    as escapes, all else stands for itself. -/
def escape (c : Char) : List Char :=
  match c with
  | '\x00' => ['\x5c', '0']
  | '\t' => ['\x5c', 't']
  | '\n' => ['\x5c', 'n']
  | '\r' => ['\x5c', 'r']
  | '\x22' => ['\x5c', '\x22']
  | '\x5c' => ['\x5c', '\x5c']
  | c => if c.toNat < 0x20 ∨ c.toNat = 0x7F then "\\u\x7b".toList ++ Nat.toDigits 16 c.toNat ++ ['\x7d'] else [c]

def quoted (text : List Char) : String := String.ofList ('\x22' :: text.flatMap escape ++ ['\x22'])

end TokenScan.Text
