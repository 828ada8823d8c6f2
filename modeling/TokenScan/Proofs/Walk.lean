/-
  TokenScan.Proofs.Walk — readers as the plain list of the characters that they show.

  A reader `Walks` a list of pieces if it shows them one after the other, each where the one
  before it stops, and is then at its end. Reading one character goes to the next piece
  (`advanceRange_of_walks`), and a scan takes the first piece, whatever it is, and those behind
  it up to the first that it is to stop at (`advanceWhile_of_walks`).

  A reader over a text walks the characters of that text (`TextReader.walks`), which make up
  the text and are not empty, and a reader with listed characters walks these. Over pieces that cover something each (`Piece.Growing`), a
  stream of characters yields the token of each piece (`CharStream.yields_of_walks`), and
  these tile the text (`tiles_of_walks`).
-/

import TokenScan.Proofs.Items
import TokenScan.Proofs.Judge
import TokenScan.Proofs.Tiling
import TokenScan.Reader.Listed
import TokenScan.Reader.Text

namespace TokenScan

open Stream'.Seq (ofList)

variable {ρ : Type} {e : Encoding} [Reader ρ e] {τ : Type}

/-! ## Pieces -/

structure Piece where
  text : List Char
  span : Span
  deriving DecidableEq, Repr

namespace Piece

def token (e : Encoding) (p : Piece) : Token e CharKind := { p.span with kind := classify p.text }

def Growing (pieces : List Piece) : Prop := ∀ p ∈ pieces, p.span.start < p.span.stop

instance (pieces : List Piece) : Decidable (Growing pieces) :=
  inferInstanceAs (Decidable (∀ p ∈ pieces, p.span.start < p.span.stop))

variable {p : Piece} {l r : List Piece}

theorem Growing.head (h : Growing (p :: l)) : p.span.start < p.span.stop := h p List.mem_cons_self

theorem Growing.sublist (h : Growing l) (sub : r.Sublist l) : Growing r := by
  intro q mem
  exact h q (sub.subset mem)

theorem Growing.tail (h : Growing (p :: l)) : Growing l := h.sublist (List.sublist_cons_self p l)

end Piece

/-! ## Walks -/

namespace Reader

/-- The reader shows these pieces, and then it is at its end. -/
inductive Walks : ρ → List Piece → Prop
  | done {r : ρ} : atEnd r = true → Walks r []
  | step {r r' : ρ} {rest : List Piece} :
      atEnd r = false → advance r = (.ok !rest.isEmpty, r') → Walks r' rest →
      Walks r (⟨current r, ⟨index r, index r'⟩⟩ :: rest)

variable {r : ρ} {first : Piece} {pieces rest : List Piece}

theorem atEnd_of_walks (w : Walks r pieces) : atEnd r = pieces.isEmpty := by
  cases w with
  | done ended => exact ended
  | step inside _ _ => exact inside

/-- What a reader shows first, and where moving on takes it. -/
theorem Walks.uncons (w : Walks r (first :: rest)) :
    current r = first.text ∧ index r = first.span.start ∧
      ∃ r', advance r = (.ok !rest.isEmpty, r') ∧ index r' = first.span.stop ∧ Walks r' rest := by
  cases w with
  | step inside moved walks => exact ⟨rfl, rfl, _, moved, rfl, walks⟩

/-- Where the reader moves on and its index grows, one character is consumed. -/
theorem advanceRange_of_forward {inside : Bool} {r' : ρ} (going : atEnd r = false) (moved : advance r = (.ok inside, r'))
    (forward : index r < index r') : advanceRange r = (.ok (some ⟨index r, index r'⟩), r') := by
  unfold advanceRange
  rw [going, moved]
  simp only [Bool.false_eq_true, if_false, if_pos forward]

theorem advanceRange_of_walks (w : Walks r (first :: rest)) (grows : first.span.start < first.span.stop) :
    ∃ r', advanceRange r = (.ok (some first.span), r') ∧ index r' = first.span.stop ∧ Walks r' rest := by
  obtain ⟨-, start, r', moved, stop, walks⟩ := w.uncons
  have forward : index r < index r' := by rwa [start, stop]
  refine ⟨r', ?_, stop, walks⟩
  rw [advanceRange_of_forward (atEnd_of_walks w) moved forward, start, stop]

/-- The reader behind the next `n` characters, consumed one by one. -/
def behind (r : ρ) : Nat → ρ
  | 0 => r
  | n + 1 => behind (advanceRange r).2 n

theorem behind_succ_eq (r : ρ) (n : Nat) :
    behind r (n + 1) = (advanceRange (behind r n)).2 := by
  induction n generalizing r with
  | zero => rfl
  | succ n ih => exact ih (advanceRange r).2

theorem behind_succ {r' : ρ} (w : Walks r (first :: rest)) (moved : advance r = (.ok !rest.isEmpty, r'))
    (forward : index r < index r') (n : Nat) : behind r (n + 1) = behind r' n := by
  rw [behind, advanceRange_of_forward (atEnd_of_walks w) moved forward]

/-- What a scan stops at, told as a predicate that it is the first to accept. -/
def stopsAt (extends? : List Char → StateM τ Bool) : Piece → StateM τ Bool := fun p t =>
  (!(extends? p.text t).1, (extends? p.text t).2)

/-- The piece with which the run that starts with `first` ends, if it goes on with these. -/
def lastOf (first : Piece) (more : List Piece) : Piece := more.getLast?.getD first

theorem lastOf_cons (first next : Piece) (more : List Piece) : lastOf first (next :: more) = lastOf next more := by
  simp [lastOf, List.getLast?_cons]

/-- A run of pieces that cover something each covers something. -/
theorem Walks.lt_lastOf {more : List Piece} (w : Walks r (first :: rest)) (run : more <+: rest)
    (grows : Piece.Growing (first :: more)) : first.span.start < (lastOf first more).span.stop := by
  induction more generalizing r first rest with
  | nil => exact grows.head
  | cons next more ih =>
    obtain ⟨behind, rfl⟩ := run
    obtain ⟨-, -, r', -, stop, walks⟩ := w.uncons
    have start : index r' = next.span.start := walks.uncons.2.1
    have here := grows.head
    have further := ih walks (List.prefix_append more behind) grows.tail
    rw [lastOf_cons]
    omega

/-- Where a scan that has more before it goes from its first piece. -/
theorem scan_onto {next : Piece} (w : Walks r (first :: next :: rest)) (grows : first.span.start < first.span.stop) :
    ∃ r', (∀ n, behind r (n + 1) = behind r' n) ∧ index r' = first.span.stop ∧ Walks r' (next :: rest) ∧
      ∀ (extends? : List Char → StateM τ Bool) (t : τ), scan extends? r t =
        if (extends? next.text t).1 then scan extends? r' (extends? next.text t).2
        else (.ok (), r', (extends? next.text t).2) := by
  obtain ⟨-, start, r', moved, stop, walks⟩ := w.uncons
  have forward : index r < index r' := by rwa [start, stop]
  refine ⟨r', behind_succ w moved forward, stop, walks, fun extends? t => ?_⟩
  have shown : current r' = next.text := walks.uncons.1
  rw [scan, moved]
  simp only [if_pos forward, shown, List.isEmpty_cons, Bool.not_false, if_true]
  rcases extends? next.text t with ⟨_ | _, t'⟩ <;> rfl

/-- A scan takes the first piece and those behind it up to the first that it is to stop at, if what it takes covers
    something piece by piece. -/
theorem scan_of_walks (extends? : List Char → StateM τ Bool) (t : τ) (w : Walks r (first :: rest))
    (grows : Piece.Growing (first :: (judge (stopsAt extends?) rest t).rejected)) :
    let v := judge (stopsAt extends?) rest t
    let r' := behind r (v.rejected.length + 1)
    scan extends? r t = (.ok (), r', v.state) ∧ index r' = (lastOf first v.rejected).span.stop ∧
      Walks r' (rest.drop v.rejected.length) := by
  induction rest generalizing r first t with
  | nil =>
    obtain ⟨-, start, r', moved, stop, walks⟩ := w.uncons
    have forward : index r < index r' := by rw [start, stop]; exact grows.head
    unfold scan
    rw [moved]
    simp only [if_pos forward, behind_succ w moved forward]
    exact ⟨rfl, stop, walks⟩
  | cons next rest ih =>
    obtain ⟨r', came, stop, walks, goes_on⟩ := scan_onto w grows.head
    simp only [came]
    rcases said : extends? next.text t with ⟨_ | _, t'⟩
    · have stops : stopsAt extends? next t = (true, t') := by simp only [stopsAt, said]; rfl
      rw [judge_accept rest stops, goes_on, said]
      exact ⟨rfl, stop, walks⟩
    · have goes : stopsAt extends? next t = (false, t') := by simp only [stopsAt, said]; rfl
      rw [judge_reject rest goes] at grows ⊢
      obtain ⟨scanned, last, left⟩ := ih t' walks grows.tail
      rw [lastOf_cons, goes_on, said]
      exact ⟨scanned, last, left⟩

theorem advanceWhile_of_walks (extends? : List Char → StateM τ Bool) (t : τ) (w : Walks r (first :: rest))
    (grows : Piece.Growing (first :: (judge (stopsAt extends?) rest t).rejected)) :
    let v := judge (stopsAt extends?) rest t
    let r' := behind r (v.rejected.length + 1)
    advanceWhile extends? r t = (.ok (some ⟨index r, index r'⟩), r', v.state) ∧
      index r' = (lastOf first v.rejected).span.stop ∧ Walks r' (rest.drop v.rejected.length) := by
  intro v r'
  obtain ⟨scanned, last, left⟩ := scan_of_walks extends? t w grows
  refine ⟨?_, last, left⟩
  unfold advanceWhile
  rw [atEnd_of_walks w, scanned]
  rfl

/-- A scan for the characters of a set takes the first piece and the longest prefix of the
    pieces behind it that are in the set. -/
theorem advanceWhileIn_of_walks (set : CharSet) (w : Walks r (first :: rest))
    (grows : Piece.Growing (first :: rest.takeWhile fun p => set.contains p.text)) :
    ∃ r', advanceWhileIn set r =
        (.ok (some ⟨first.span.start, (lastOf first (rest.takeWhile fun p => set.contains p.text)).span.stop⟩), r') ∧
      Walks r' (rest.dropWhile fun p => set.contains p.text) := by
  have stops : judge (stopsAt fun c => (pure (set.contains c) : StateM Unit Bool)) rest () =
      ⟨rest.takeWhile fun p => set.contains p.text, rest.find? fun p => !set.contains p.text, ()⟩ := by
    have same : (stopsAt fun c => (pure (set.contains c) : StateM Unit Bool)) = fun p => pure !set.contains p.text := rfl
    rw [same, judge_pure]
    simp only [Bool.not_not]
  obtain ⟨consumed, last, left⟩ := advanceWhile_of_walks (fun c => (pure (set.contains c) : StateM Unit Bool)) () w
    (by rwa [stops])
  rw [stops] at consumed last left
  refine ⟨_, ?_, by rwa [drop_length_takeWhile] at left⟩
  have start : index r = first.span.start := w.uncons.2.1
  unfold advanceWhileIn
  rw [consumed, last, start]

end Reader

/-! ## Streams of characters -/

theorem CharStream.call_of_walks {r : ρ} {first : Piece} {rest : List Piece} (w : Reader.Walks r (first :: rest))
    (grows : first.span.start < first.span.stop) :
    ∃ r', Source.call (⟨r⟩ : CharStream ρ) = (.ok (some (first.token e)), ⟨r'⟩) ∧ Reader.Walks r' rest := by
  obtain ⟨r', moved, -, walks⟩ := Reader.advanceRange_of_walks w grows
  refine ⟨r', ?_, walks⟩
  show CharStream.next _ = _
  unfold CharStream.next
  rw [Reader.atEnd_of_walks w, moved, w.uncons.1]
  simp [Token.ofSpan?, Token.ofSpan, grows, Piece.token]

/-- Over pieces that cover something each, a stream of characters yields the token of each piece. -/
theorem CharStream.yields_of_walks {r : ρ} {pieces : List Piece} (w : Reader.Walks r pieces)
    (grows : Piece.Growing pieces) :
    Source.Yields (⟨r⟩ : CharStream ρ) (ofList (pieces.map (Piece.token e))) := by
  refine Source.yields_of_invariant (P := fun s items => ∃ pieces, Reader.Walks s.reader pieces ∧
    Piece.Growing pieces ∧ items = ofList (pieces.map (Piece.token e))) ?_ ⟨pieces, w, grows, rfl⟩
  rintro s items ⟨pieces, w, grows, rfl⟩
  cases pieces with
  | nil =>
    refine ⟨s, ?_, [], w, grows, rfl⟩
    show CharStream.next s = _
    unfold CharStream.next
    rw [Reader.atEnd_of_walks w]
    rfl
  | cons first rest =>
    obtain ⟨r', called, walks⟩ := CharStream.call_of_walks w grows.head
    exact ⟨⟨r'⟩, by simpa using called, rest, walks, grows.tail, by simp⟩

/-- The tokens of pieces tile what the reader walks, from where it is to the last of the stops. -/
theorem tiles_of_walks {r : ρ} {pieces : List Piece} (w : Reader.Walks r pieces) (grows : Piece.Growing pieces) :
    Tiles (Reader.index r) ((pieces.map (·.span.stop)).getLast?.getD (Reader.index r))
      (pieces.map (Piece.token e)) := by
  induction w with
  | done _ => exact .done _
  | step _ _ _ ih =>
    rw [List.map_cons, List.getLast?_cons]
    exact .token rfl grows.head (ih grows.tail)

/-! ## Listed characters -/

namespace ListedReader

def pieces (offset : Nat) : List (List Char × Nat) → List Piece
  | [] => []
  | (c, stop) :: rest => ⟨c, ⟨offset, stop⟩⟩ :: pieces stop rest

theorem walks (offset : Nat) (rest : List (List Char × Nat)) :
    Reader.Walks (⟨offset, rest⟩ : ListedReader e) (pieces offset rest) := by
  induction rest generalizing offset with
  | nil => exact .done rfl
  | cons entry rest ih =>
    obtain ⟨c, stop⟩ := entry
    have ended : rest.isEmpty = (pieces stop rest).isEmpty := Reader.atEnd_of_walks (ih stop)
    refine .step rfl ?_ (ih stop)
    rw [← ended]
    rfl

end ListedReader

/-! ## Texts -/

namespace Grain

variable {grain : Grain} {text : List Char}

theorem firstLength_pos (h : text ≠ []) : 0 < grain.firstLength text := by
  cases text with
  | nil => exact absurd rfl h
  | cons c rest =>
    cases grain with
    | clusters first => exact first.length_pos c rest
    | scalar => exact Nat.one_pos

theorem firstLength_le (text : List Char) : grain.firstLength text ≤ text.length := by
  cases grain with
  | clusters first => exact first.length_le text
  | scalar => cases text <;> simp [firstLength]

def characters (grain : Grain) (text : List Char) : List (List Char) :=
  if _h : text = [] then []
  else text.take (grain.firstLength text) :: grain.characters (text.drop (grain.firstLength text))
termination_by text.length
decreasing_by
  have := grain.firstLength_pos _h
  have := List.length_pos_iff.mpr _h
  rw [List.length_drop]
  omega

@[simp] theorem characters_nil (grain : Grain) : grain.characters [] = [] := by
  rw [characters, dif_pos rfl]

theorem characters_of_ne_nil (h : text ≠ []) :
    grain.characters text =
      text.take (grain.firstLength text) :: grain.characters (text.drop (grain.firstLength text)) := by
  rw [characters, dif_neg h]

/-- The characters of a text make it up. -/
theorem flatten_characters (grain : Grain) (text : List Char) : (grain.characters text).flatten = text := by
  fun_induction characters grain text with
  | case1 => rfl
  | case2 text hne ih => rw [List.flatten_cons, ih, List.take_append_drop]

theorem ne_nil_of_mem_characters {c : List Char} (h : c ∈ grain.characters text) : c ≠ [] := by
  fun_induction characters grain text with
  | case1 => simp at h
  | case2 text hne ih =>
    rcases List.mem_cons.mp h with rfl | behind
    · have : 0 < grain.firstLength text := firstLength_pos hne
      simp [List.take_eq_nil_iff, hne]
      omega
    · exact ih behind

end Grain

namespace Encoding

/-- Characters side by side, the first of them at `start`. -/
def placed (e : Encoding) (start : Nat) : List (List Char) → List Piece
  | [] => []
  | c :: rest => ⟨c, ⟨start, start + e.size c⟩⟩ :: e.placed (start + e.size c) rest

theorem size_pos {e : Encoding} {c : List Char} (h : c ≠ []) : 0 < e.size c := by
  cases c with
  | nil => exact absurd rfl h
  | cons x rest =>
    have := e.width_pos x
    rw [size_cons]
    omega

theorem placed_growing (start : Nat) {characters : List (List Char)} (h : ∀ c ∈ characters, c ≠ []) :
    Piece.Growing (e.placed start characters) := by
  induction characters generalizing start with
  | nil =>
    intro p mem
    simp [placed] at mem
  | cons c rest ih =>
    intro p mem
    rcases List.mem_cons.mp mem with rfl | behind
    · have := e.size_pos (h c List.mem_cons_self)
      show start < start + e.size c
      omega
    · exact ih _ (fun d d_mem => h d (List.mem_cons_of_mem c d_mem)) p behind

theorem map_text_placed (e : Encoding) (start : Nat) (characters : List (List Char)) :
    (e.placed start characters).map (·.text) = characters := by
  induction characters generalizing start with
  | nil => rfl
  | cons c characters ih => rw [placed, List.map_cons, ih]

theorem placed_stop (start : Nat) (characters : List (List Char)) :
    ((e.placed start characters).map (·.span.stop)).getLast?.getD start = start + e.size characters.flatten := by
  induction characters generalizing start with
  | nil => rfl
  | cons c rest ih =>
    rw [placed, List.map_cons, List.getLast?_cons, Option.getD_some, ih, List.flatten_cons, size_append]
    omega

end Encoding

namespace TextReader

variable {grain : Grain}

def pieces (grain : Grain) (e : Encoding) (text : List Char) : List Piece := e.placed 0 (grain.characters text)

theorem pieces_growing (grain : Grain) (e : Encoding) (text : List Char) : Piece.Growing (pieces grain e text) :=
  Encoding.placed_growing 0 fun _ => Grain.ne_nil_of_mem_characters

/-- What a reader keeps: how long its current character is. -/
def Ready (r : TextReader grain e) : Prop := r.length = grain.firstLength r.rest

theorem moved_ready (r : TextReader grain e) : r.moved.Ready := rfl

theorem advance_of_ready {r : TextReader grain e} (h : r.Ready) (inside : r.rest ≠ []) :
    r.advance = (.ok !r.moved.atEnd, r.moved) := by
  have := grain.firstLength_pos inside
  have : r.length ≠ 0 := by rw [h]; omega
  unfold advance
  rw [if_neg this]

theorem advance_of_ended {r : TextReader grain e} (h : r.Ready) (ended : r.rest = []) :
    r.advance = (.error (.exhausted grain.unit e r.offset), r) := by
  have length : r.length = 0 := by
    rw [h, ended]
    exact Nat.le_zero.mp (grain.firstLength_le [])
  unfold advance
  rw [if_pos length]

theorem atEnd_iff {r : TextReader grain e} : r.atEnd = true ↔ r.rest = [] := List.isEmpty_iff

theorem walks_of_ready {r : TextReader grain e} (h : r.Ready) :
    Reader.Walks r (e.placed r.offset (grain.characters r.rest)) := by
  generalize left : grain.characters r.rest = characters
  induction characters generalizing r with
  | nil =>
    have whole := grain.flatten_characters r.rest
    rw [left] at whole
    exact .done (by show r.rest.isEmpty = true; rw [← whole]; rfl)
  | cons c behind ih =>
    have inside : r.rest ≠ [] := by
      intro empty
      rw [empty, Grain.characters_nil] at left
      cases left
    rw [Grain.characters_of_ne_nil inside, List.cons.injEq, ← h] at left
    obtain ⟨rfl, left⟩ := left
    have walks := ih r.moved_ready left
    have ended : r.moved.atEnd = _ := Reader.atEnd_of_walks walks
    have moved := advance_of_ready h inside
    rw [ended] at moved
    exact .step (by simpa [Reader.atEnd, atEnd] using inside) moved walks

/-- A reader over a text walks the characters of the text. -/
theorem walks (grain : Grain) (e : Encoding) (text : List Char) :
    Reader.Walks (ofText text : TextReader grain e) (pieces grain e text) :=
  walks_of_ready rfl

theorem tiles (grain : Grain) (e : Encoding) (text : List Char) :
    Tiles 0 (e.size text) ((pieces grain e text).map (Piece.token e)) := by
  have tiled := tiles_of_walks (walks grain e text) (pieces_growing grain e text)
  have stop := e.placed_stop 0 (grain.characters text)
  rw [Grain.flatten_characters, Nat.zero_add] at stop
  rw [← stop]
  exact tiled

theorem yields_characters (grain : Grain) (e : Encoding) (text : List Char) :
    Source.Yields (⟨ofText text⟩ : CharStream (TextReader grain e)) (ofList ((pieces grain e text).map (Piece.token e))) :=
  CharStream.yields_of_walks (walks grain e text) (pieces_growing grain e text)

end TextReader

end TokenScan
