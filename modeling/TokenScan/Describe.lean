/-
  TokenScan.Describe — how diagnostics show what is being scanned: readers, streams, buffers
  and host range errors, as named records with their fields in order.
-/

import TokenScan.Host
import TokenScan.Pool
import TokenScan.Source.Replay
import TokenScan.Text.Quoted
import TokenScan.Word

namespace TokenScan

class Describe (α : Type) where
  describe : α → String

export Describe (describe)

namespace Describe

def record (name : String) (fields : List (String × String)) : String :=
  name ++ " \x7b " ++ ", ".intercalate (fields.map fun (field, value) => field ++ ": " ++ value) ++ " \x7d"

def wrapped (name value : String) : String := name ++ "(" ++ value ++ ")"

instance : Describe Nat := ⟨fun n => s!"{n}"⟩

instance : Describe Int := ⟨fun n => s!"{n}"⟩

instance {α : Type} [Describe α] : Describe (List α) :=
  ⟨fun items => "[" ++ ", ".intercalate (items.map describe) ++ "]"⟩

instance {e : Encoding} {κ : Type} [KindName κ] : Describe (Token e κ) := ⟨Token.describe⟩

instance : Describe ScanLimits := ⟨fun limits => record "ScanLimits" [("until", describe limits.items)]⟩

/-- A reader shows its text and where it is, in bytes and in its own units; a reader of
    clusters also shows the bytes of the current one. -/
instance {grain : Grain} {e : Encoding} : Describe (TextReader grain e) where
  describe r :=
    let place :=
      match e with
      | .utf8 => [("pos", describe r.byteOffset)]
      | .utf16 => [("byte_pos", describe r.byteOffset), ("unit_pos", describe r.offset)]
    let length :=
      match grain with
      | .clusters _ => [("current_len", describe (Encoding.utf8.size r.current))]
      | .scalar => []
    record (grain.unit.readerName e) (("text", Text.quoted r.text) :: place ++ length)

instance {ρ : Type} [Describe ρ] : Describe (CharStream ρ) :=
  ⟨fun s => record "CharacterStream" [("reader", describe s.reader)]⟩

instance {ρ : Type} [Describe ρ] : Describe (RunStream ρ) :=
  ⟨fun s => record "RunStream" [("reader", describe s.reader)]⟩

instance {α : Type} : Describe (Replay α) := ⟨fun r => s!"Nums@{r.position}"⟩

instance {σ α : Type} [Describe σ] [Describe α] : Describe (Buffer σ α) where
  describe b :=
    record "LookAheadBuffer"
      [("source", describe b.source), ("buffer", describe b.pending.toList), ("limits", describe b.limits)]

instance {σ : Type} {e : Encoding} [Describe σ] : Describe (WordStream σ e) :=
  ⟨fun s => record "WordStream" [("chars", describe s.chars)]⟩

instance : Describe HostRangeError where
  describe
    | .reversed start stop => record "Reversed" [("start", describe start), ("end", describe stop)]
    | .outOfBounds offset length => record "OutOfBounds" [("offset", describe offset), ("len", describe length)]
    | .splitsSurrogatePair offset => record "SplitsSurrogatePair" [("offset", describe offset)]

end Describe

/-- The buffer that the handle names, with the sharing if it is shared. -/
def Pool.describeHandle {m : Type → Type} [Monad m] {σ α : Type} [Describe σ] [Describe α] (h : Nat) :
    ScanT m (Pool σ α) String := do
  let shown := describe (← buffer h)
  match (← get).handle? h with
  | some ⟨_, .shared⟩ =>
    return Describe.wrapped "SharedLookAhead" (Describe.record "RefCell" [("value", shown)])
  | _ => return shown

end TokenScan
