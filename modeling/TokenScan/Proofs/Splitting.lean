/-
  TokenScan.Proofs.Splitting — what a scan limit does to words.

  A group that a limit cuts short is taken up again by its next character, which decides anew what the rest
  is. That character was taken by the group, and all that it goes on with the group would have gone on with
  too (`WordKind.takes_of_takes`). So the rest never runs over the end of the group: to group with a limit is
  to group without one and then each group by itself (`groups_flatMap`). All else follows from that: what is
  cut keeps its kind but for digits inside a word, nothing is cut that is short enough, and no boundary is
  lost (`WordStream.limit_only_splits`).
-/

import TokenScan.Proofs.Composition

namespace TokenScan

open Stream'.Seq (ofList)

variable {e : Encoding} {limit whole : Nat} {first : Token e CharKind} {rest more tokens block behind : List (Token e CharKind)}

/-! ## Characters that a group takes -/

namespace WordKind

/-- A character that a group takes would start a group of the same kind, except for a digit in a word. -/
theorem groupKind_of_takes {w : WordKind} {kind : CharKind} (taken : w.takes kind) :
    kind.groupKind = if w = .word ∧ kind = .digit then .number else w := by
  cases w with
  | word =>
    rcases List.mem_cons.mp taken with rfl | letter
    · rfl
    · have not_digit : kind ≠ .digit := by
        rintro rfl
        exact absurd letter (by decide)
      rw [CharKind.groupKind, if_pos letter, if_neg (by simp [not_digit])]
  | number =>
    obtain rfl : kind = .digit := taken
    rfl
  | whitespace =>
    have white : kind ∈ CharKind.whitespaceKinds := taken
    have others : ∀ k ∈ CharKind.whitespaceKinds, k ∉ CharKind.letters ∧ k ≠ .digit := by decide
    rw [CharKind.groupKind, if_neg (others kind white).1, if_neg (others kind white).2, if_pos white, if_neg (by simp)]
  | symbol =>
    obtain ⟨not_word, not_white⟩ := taken
    have not_digit : kind ≠ .digit := fun digit => not_word (digit ▸ List.mem_cons_self)
    have not_letter : kind ∉ CharKind.letters := fun letter => not_word (List.mem_cons_of_mem _ letter)
    rw [CharKind.groupKind, if_neg not_letter, if_neg not_digit, if_neg not_white, if_neg (by simp)]

/-- What a taken character would go on with, the group goes on with. -/
theorem takes_of_takes {w : WordKind} {kind next : CharKind} (taken : w.takes kind) (goes : kind.groupKind.takes next) :
    w.takes next := by
  rw [groupKind_of_takes taken] at goes
  split at goes
  case isTrue digit =>
    obtain ⟨rfl, -⟩ := digit
    obtain rfl : next = .digit := goes
    decide
  case isFalse => exact goes

end WordKind

/-! ## Groups of a group -/

/-- Cutting never runs over the end of what a group of some kind takes. -/
theorem groups_append {w : WordKind} (taken : ∀ t ∈ block, w.takes t.kind) (ends : ∀ t ∈ behind.head?, ¬w.takes t.kind) :
    groups limit (block ++ behind) = groups limit block ++ groups limit behind := by
  revert taken
  fun_induction groups limit block with
  | case1 => intro _; rfl
  | case2 first rest more ih =>
    intro taken
    have stops (n : Nat) : (behind.take n).takeWhile (fun t => first.kind.groupKind.takes t.kind) = [] := by
      cases behind with
      | nil => simp
      | cons next behind =>
        have not_taken : ¬first.kind.groupKind.takes next.kind := fun goes =>
          ends next rfl (WordKind.takes_of_takes (taken first List.mem_cons_self) goes)
        cases n with
        | zero => rfl
        | succ n => rw [List.take_succ_cons, List.takeWhile_cons_of_neg (by simpa using not_taken)]
    have inside : (groupedWith limit first (rest ++ behind)).length ≤ rest.length := by
      rw [groupedWith, List.take_append, List.takeWhile_append, stops, List.append_nil]
      split
      · exact List.length_take_le' _ _
      · exact Nat.le_trans (List.takeWhile_prefix _).length_le (List.length_take_le' _ _)
    have same : groupedWith limit first (rest ++ behind) = more := (groupedWith_of_append inside).symm
    have left : more.length ≤ rest.length := by rwa [← same]
    rw [List.cons_append, groups_cons, same, List.drop_append_of_le_length left, ih, List.cons_append]
    intro t mem
    exact taken t (List.mem_cons_of_mem _ (List.mem_of_mem_drop mem))

/-- With no limit that could be reached, a group goes on as far as its kind lets it. -/
theorem groupedWith_of_lt (enough : rest.length < whole) (first : Token e CharKind) :
    groupedWith whole first rest = rest.takeWhile fun t => first.kind.groupKind.takes t.kind := by
  rw [groupedWith, List.take_of_length_le (by omega)]

/-- To group with a limit is to group without one, and then each group by itself. -/
theorem groups_flatMap (enough : tokens.length ≤ whole) (limit : Nat) :
    groups limit tokens = (groups whole tokens).flatMap (groups limit) := by
  revert enough
  fun_induction groups whole tokens with
  | case1 => intro _; simp [groups]
  | case2 first rest more ih =>
    intro enough
    rw [List.length_cons] at enough
    have longest : more = rest.takeWhile fun t => first.kind.groupKind.takes t.kind := groupedWith_of_lt enough first
    have taken : ∀ t ∈ first :: more, first.kind.groupKind.takes t.kind := by
      intro t mem
      rcases List.mem_cons.mp mem with rfl | mem
      · exact WordKind.takes_groupKind _
      · rw [longest] at mem
        simpa using List.mem_takeWhile_imp mem
    have ends : ∀ t ∈ (rest.drop more.length).head?, ¬first.kind.groupKind.takes t.kind := by
      rw [longest, drop_length_takeWhile]
      intro t mem
      have stopped := List.head?_dropWhile_not (fun t => decide (first.kind.groupKind.takes t.kind)) rest
      rw [Option.mem_def.mp mem] at stopped
      simpa using stopped
    have together : first :: rest = (first :: more) ++ rest.drop more.length := by
      rw [List.cons_append, groupedWith_append]
    rw [List.flatMap_cons, ← ih (by simp; omega), ← groups_append taken ends, ← together]

/-- Each group starts with the character that decides its kind, takes all its others, and fits the limit. -/
theorem of_mem_groups (mem : block ∈ groups limit tokens) :
    ∃ first more, block = first :: more ∧ (∀ t ∈ block, first.kind.groupKind.takes t.kind) ∧ block.length ≤ max 1 limit := by
  fun_induction groups limit tokens with
  | case1 => cases mem
  | case2 first rest more ih =>
    rcases List.mem_cons.mp mem with rfl | mem
    · refine ⟨first, more, rfl, ?_, ?_⟩
      · intro t mem
        rcases List.mem_cons.mp mem with rfl | mem
        · exact WordKind.takes_groupKind _
        · simpa using List.mem_takeWhile_imp mem
      · have : more.length ≤ max 1 limit - 1 :=
          Nat.le_trans (List.takeWhile_prefix _).length_le (List.length_take_le _ _)
        rw [List.length_cons]
        omega
    · exact ih mem

/-- A group that fits the limit stays whole. -/
theorem groups_of_taken (taken : ∀ t ∈ more, first.kind.groupKind.takes t.kind) (fits : (first :: more).length ≤ max 1 limit) :
    groups limit (first :: more) = [first :: more] := by
  have all : groupedWith limit first more = more := by
    rw [List.length_cons] at fits
    rw [groupedWith, List.take_of_length_le (by omega)]
    exact List.takeWhile_eq_self_iff.mpr (by simpa using taken)
  rw [groups_cons, all, List.drop_length, groups]

/-! ## Tokens and their parts -/

def Token.Within {κ μ : Type} (part : Token e κ) (t : Token e μ) : Prop := t.start ≤ part.start ∧ part.stop ≤ t.stop

instance {κ μ : Type} (part : Token e κ) (t : Token e μ) : Decidable (part.Within t) :=
  inferInstanceAs (Decidable (_ ∧ _))

namespace Tiles

variable {κ μ : Type} {a b n : Nat} {t u : Token e κ} {l r : List (Token e κ)}

theorem of_mem (h : Tiles a b l) (mem : t ∈ l) : a ≤ t.start ∧ t.start < t.stop ∧ t.stop ≤ b := by
  obtain ⟨before, behind, rfl⟩ := List.append_of_mem mem
  obtain ⟨n, front, back⟩ := h.split
  cases back with
  | token start covers behind =>
    rw [start]
    exact ⟨front.le, start ▸ covers, behind.le⟩

theorem eq_of_covers (h : Tiles a b l) (mem : t ∈ l) (mem' : u ∈ l) (covers : t.start ≤ n ∧ n < t.stop)
    (covers' : u.start ≤ n ∧ n < u.stop) : t = u := by
  induction h with
  | done => cases mem
  | token start _ rest ih =>
    rcases List.mem_cons.mp mem with rfl | behind
    · rcases List.mem_cons.mp mem' with rfl | behind'
      · rfl
      · have := rest.of_mem behind'
        omega
    · rcases List.mem_cons.mp mem' with rfl | behind'
      · have := rest.of_mem behind
        omega
      · exact ih behind behind'

/-- Of tokens side by side, those within the range of a block are the block. -/
theorem filter_within {block : List (Token e κ)} {w : Token e μ} (h : Tiles a b (l ++ (block ++ r)))
    (range : Tiles w.start w.stop block) (hne : block ≠ []) : (l ++ (block ++ r)).filter (·.Within w) = block := by
  obtain ⟨start, front, back⟩ := h.split
  obtain ⟨stop, here, behind⟩ := back.split
  obtain ⟨rfl, rfl⟩ : start = w.start ∧ stop = w.stop := by
    obtain ⟨t, more, rfl⟩ := List.exists_cons_of_ne_nil hne
    obtain ⟨first, last, -⟩ := here.ends
    obtain ⟨first', last', -⟩ := range.ends
    exact ⟨first.symm.trans first', last.symm.trans last'⟩
  have none_front : l.filter (·.Within w) = [] := by
    refine List.filter_eq_nil_iff.mpr fun t mem within => ?_
    have := front.of_mem mem
    have inside : t.Within w := of_decide_eq_true within
    exact absurd inside.1 (by omega)
  have none_behind : r.filter (·.Within w) = [] := by
    refine List.filter_eq_nil_iff.mpr fun t mem within => ?_
    have := behind.of_mem mem
    have inside : t.Within w := of_decide_eq_true within
    exact absurd inside.2 (by omega)
  have all : block.filter (·.Within w) = block := by
    refine List.filter_eq_self.mpr fun t mem => decide_eq_true ?_
    have := here.of_mem mem
    exact ⟨this.1, this.2.2⟩
  rw [List.filter_append, List.filter_append, none_front, none_behind, all, List.nil_append, List.append_nil]

end Tiles

section

variable {characters : List (Token e CharKind)} {w p : Token e WordKind} {start stop : Nat}

/-- A group of characters in a row is what the token over it covers, and it is all that it covers. -/
theorem range_of_group (tiled : Tiles start stop characters) (mem : first :: more ∈ groups limit characters) :
    ∃ w ∈ grouped limit characters, Tiles w.start w.stop (first :: more) ∧ w.kind = first.kind.groupKind ∧
      characters.filter (·.Within w) = first :: more := by
  obtain ⟨front, behind, cut⟩ := List.append_of_mem mem
  have together := flatten_groups limit characters
  rw [cut, List.flatten_append, List.flatten_cons] at together
  rw [← together] at tiled
  obtain ⟨_, -, back⟩ := tiled.split
  obtain ⟨_, here, -⟩ := back.split
  obtain ⟨rfl, rfl, -⟩ := here.ends
  refine ⟨⟨⟨_, _⟩, _⟩, List.mem_filterMap.mpr ⟨first :: more, mem, rfl⟩, here, rfl, ?_⟩
  rw [← together]
  exact tiled.filter_within here (List.cons_ne_nil _ _)

theorem exists_group (tiled : Tiles start stop characters) (mem : w ∈ grouped limit characters) :
    ∃ first more, first :: more ∈ groups limit characters ∧ Tiles w.start w.stop (first :: more) ∧
      w.kind = first.kind.groupKind ∧ characters.filter (·.Within w) = first :: more := by
  obtain ⟨block, group, spanned⟩ := List.mem_filterMap.mp mem
  obtain ⟨first, more, rfl, -, -⟩ := of_mem_groups group
  obtain ⟨w', -, range, kind, filtered⟩ := range_of_group tiled group
  obtain ⟨start, stop, -⟩ := range.ends
  obtain rfl : w' = w := by
    rw [Token.covering, Option.some.injEq, start, stop, ← kind] at spanned
    exact spanned
  exact ⟨first, more, group, range, kind, filtered⟩

theorem grouped_flatMap (enough : characters.length ≤ whole) (limit : Nat) :
    grouped limit characters = (groups whole characters).flatMap (grouped limit) := by
  rw [grouped, groups_flatMap enough, Token.cover, List.filterMap_flatMap]
  rfl

/-- Each token under a limit is a part of one without, and its first character tells its kind. -/
theorem part_of_whole (tiled : Tiles start stop characters) (enough : characters.length ≤ whole)
    (mem : p ∈ grouped limit characters) :
    ∃ w ∈ grouped whole characters, p.Within w ∧ ∃ c ∈ characters, c.start = p.start ∧ w.kind.takes c.kind ∧
      p.kind = c.kind.groupKind ∧ (p.start = w.start → p.kind = w.kind) := by
  rw [grouped_flatMap enough] at mem
  obtain ⟨block, group, part⟩ := List.mem_flatMap.mp mem
  obtain ⟨first, more, rfl, taken, -⟩ := of_mem_groups group
  obtain ⟨w, mem_w, range, kind, -⟩ := range_of_group tiled group
  obtain ⟨c, others, inside, range_p, kind_p, -⟩ := exists_group range part
  have c_mem : c ∈ first :: more := by
    rw [← flatten_groups limit (first :: more)]
    exact List.mem_flatten.mpr ⟨_, inside, List.mem_cons_self⟩
  obtain ⟨start_w, -, -⟩ := range.ends
  obtain ⟨start_p, -, -⟩ := range_p.ends
  have parts := grouped_tiles limit range
  refine ⟨w, mem_w, ⟨(parts.of_mem part).1, (parts.of_mem part).2.2⟩, c, ?_, start_p, kind ▸ taken c c_mem, kind_p, ?_⟩
  · rw [← flatten_groups whole characters]
    exact List.mem_flatten.mpr ⟨_, group, c_mem⟩
  · intro same
    -- the part starts where the group does, and so with its first character
    have here := range.of_mem c_mem
    have here' := range.of_mem List.mem_cons_self
    obtain rfl : c = first := range.eq_of_covers c_mem List.mem_cons_self (n := c.start) ⟨Nat.le_refl _, here.2.1⟩
      ⟨by omega, by omega⟩
    rw [kind_p, kind]

/-- Every group has a part that starts where it does, and one that stops where it does. -/
theorem ends_of_whole (limit : Nat) (tiled : Tiles start stop characters) (enough : characters.length ≤ whole)
    (mem : w ∈ grouped whole characters) :
    (∃ p ∈ grouped limit characters, p.start = w.start) ∧ ∃ p ∈ grouped limit characters, p.stop = w.stop := by
  obtain ⟨first, more, group, range, -, -⟩ := exists_group tiled mem
  have parts := grouped_tiles limit range
  have part {p : Token e WordKind} (h : p ∈ grouped limit (first :: more)) : p ∈ grouped limit characters := by
    rw [grouped_flatMap enough]
    exact List.mem_flatMap.mpr ⟨_, group, h⟩
  cases cut : grouped limit (first :: more) with
  | nil =>
    rw [grouped, groups_cons, Token.cover_cons] at cut
    cases cut
  | cons p others =>
    rw [cut] at parts part
    obtain ⟨starts, stops, -⟩ := parts.ends
    exact ⟨⟨p, part List.mem_cons_self, starts⟩, ⟨_, part (List.mem_of_getLast? (List.getLast?_cons ..)), stops⟩⟩

/-- These tokens are the parts into which a limit cuts the words of some characters. -/
structure SplitsOnly (limit : Nat) (characters : List (Token e CharKind)) (words parts : List (Token e WordKind)) : Prop where
  boundaries : Token.boundaries words ⊆ Token.boundaries parts
  inside : ∀ p ∈ parts, ∃ w ∈ words, p.Within w
  kept : ∀ p ∈ parts, ∀ w ∈ words, p.Within w → w.kind ≠ .word → p.kind = w.kind
  first : ∀ p ∈ parts, ∀ w ∈ words, p.Within w → p.start = w.start → p.kind = w.kind
  later : ∀ p ∈ parts, ∀ w ∈ words, p.Within w → w.kind = .word → w.start < p.start →
    ∃ c ∈ characters, c.start = p.start ∧ p.kind = if c.kind = .digit then .number else .word
  short : ∀ p ∈ parts, (characters.filter (·.Within p)).length ≤ max 1 limit
  unsplit : (∀ w ∈ words, (characters.filter (·.Within w)).length ≤ max 1 limit) → parts = words

theorem grouped_splitsOnly (tiled : Tiles start stop characters) (enough : characters.length ≤ whole) (limit : Nat) :
    SplitsOnly limit characters (grouped whole characters) (grouped limit characters) := by
  have tiled_words := grouped_tiles whole tiled
  have tiled_parts := grouped_tiles limit tiled
  -- the word that a part is in is the one that it is a part of
  have part_of {p w : Token e WordKind} (mem : p ∈ grouped limit characters) (mem_w : w ∈ grouped whole characters)
      (within : p.Within w) : ∃ c ∈ characters, c.start = p.start ∧ w.kind.takes c.kind ∧ p.kind = c.kind.groupKind ∧
        (p.start = w.start → p.kind = w.kind) := by
    obtain ⟨w', mem_w', within', found⟩ := part_of_whole tiled enough mem
    have covers := tiled_parts.of_mem mem
    obtain rfl : w' = w := tiled_words.eq_of_covers mem_w' mem_w (n := p.start)
      ⟨within'.1, Nat.lt_of_lt_of_le covers.2.1 within'.2⟩ ⟨within.1, Nat.lt_of_lt_of_le covers.2.1 within.2⟩
    exact found
  refine ⟨?_, ?_, ?_, ?_, ?_, ?_, ?_⟩
  · intro n mem
    obtain ⟨w, mem_w, at_end⟩ := List.mem_flatMap.mp mem
    obtain ⟨⟨p, mem_p, starts⟩, q, mem_q, stops⟩ := ends_of_whole limit tiled enough mem_w
    have ends : n = w.start ∨ n = w.stop := by simpa using at_end
    rcases ends with rfl | rfl
    · exact List.mem_flatMap.mpr ⟨p, mem_p, by simp [starts]⟩
    · exact List.mem_flatMap.mpr ⟨q, mem_q, by simp [stops]⟩
  · intro p mem
    obtain ⟨w, mem_w, within, -⟩ := part_of_whole tiled enough mem
    exact ⟨w, mem_w, within⟩
  · intro p mem w mem_w within not_word
    obtain ⟨c, -, -, taken, kind, -⟩ := part_of mem mem_w within
    rw [kind, WordKind.groupKind_of_takes taken, if_neg fun digit => not_word digit.1]
  · intro p mem w mem_w within
    obtain ⟨_, -, -, -, -, same⟩ := part_of mem mem_w within
    exact same
  · intro p mem w mem_w within word _
    obtain ⟨c, c_mem, start, taken, kind, -⟩ := part_of mem mem_w within
    refine ⟨c, c_mem, start, ?_⟩
    rw [kind, WordKind.groupKind_of_takes taken, word]
    simp
  · intro p mem
    obtain ⟨c, others, group, -, -, filtered⟩ := exists_group tiled mem
    obtain ⟨_, _, -, -, fits⟩ := of_mem_groups group
    rwa [filtered]
  · intro fits
    have uncut : ∀ block ∈ groups whole characters, groups limit block = [block] := by
      intro block group
      obtain ⟨first, more, rfl, taken, -⟩ := of_mem_groups group
      obtain ⟨w, mem_w, -, -, filtered⟩ := range_of_group tiled group
      have short := fits w mem_w
      rw [filtered] at short
      exact groups_of_taken (fun t mem => taken t (List.mem_cons_of_mem _ mem)) short
    rw [grouped, grouped, groups_flatMap enough, List.flatMap_congr uncut, List.flatMap_singleton']

end

/-! ## Streams -/

theorem length_characters_le (grain : Grain) (text : List Char) : (grain.characters text).length ≤ text.length := by
  fun_induction Grain.characters grain text with
  | case1 => exact Nat.le_refl _
  | case2 text hne ih =>
    have := grain.firstLength_pos hne
    have := List.length_pos_iff.mpr hne
    rw [List.length_drop] at ih
    rw [List.length_cons]
    omega

theorem length_placed (start : Nat) (characters : List (List Char)) : (e.placed start characters).length = characters.length := by
  induction characters generalizing start with
  | nil => rfl
  | cons c rest ih => rw [Encoding.placed, List.length_cons, List.length_cons, ih]

namespace WordStream

/-- Over every text that can be counted, a limit on scans does nothing to words but split them: each part
    keeps the kind of its word, except that a later part of a word that starts with a digit is a number; no
    part has more characters than the limit, or one; and where no word has more, nothing is split. -/
theorem limit_only_splits (grain : Grain) (e : Encoding) (text : List Char) (limits : ScanLimits)
    (counted : text.length ≤ maxCount) :
    let characters := (TextReader.pieces grain e text).map (Piece.token e)
    let words (limits : ScanLimits) : WordStream (CharStream (TextReader grain e)) e :=
      ⟨(Buffer.ofSource ⟨TextReader.ofText text⟩).withLimits limits⟩
    Source.Yields (⟨TextReader.ofText text⟩ : CharStream (TextReader grain e)) (ofList characters) ∧
      Source.Yields (words .unbounded) (ofList (grouped maxCount characters)) ∧
      Source.Yields (words limits) (ofList (grouped limits.items characters)) ∧
      SplitsOnly limits.items characters (grouped maxCount characters) (grouped limits.items characters) := by
  refine ⟨TextReader.yields_characters grain e text, yields_of_text grain e text .unbounded,
    yields_of_text grain e text limits, grouped_splitsOnly (TextReader.tiles grain e text) ?_ limits.items⟩
  rw [List.length_map, TextReader.pieces, length_placed]
  exact Nat.le_trans (length_characters_le grain text) counted

/-- The digits of a word become a number of their own. -/
theorem limit_only_splits_digits :
    let text := ['a', '1', '2', ' ']
    let characters := (TextReader.pieces .cluster .utf8 text).map (Piece.token .utf8)
    let words (limits : ScanLimits) : WordStream (CharStream (TextReader .cluster .utf8)) .utf8 :=
      ⟨(Buffer.ofSource ⟨TextReader.ofText text⟩).withLimits limits⟩
    let whole : List (Token .utf8 WordKind) := [⟨⟨0, 3⟩, .word⟩, ⟨⟨3, 4⟩, .whitespace⟩]
    let parts : List (Token .utf8 WordKind) := [⟨⟨0, 2⟩, .word⟩, ⟨⟨2, 3⟩, .number⟩, ⟨⟨3, 4⟩, .whitespace⟩]
    text.length ≤ maxCount ∧ Source.Yields (words .unbounded) (ofList whole) ∧
      Source.Yields (words ⟨2⟩) (ofList parts) ∧ SplitsOnly 2 characters whole parts := by
  intro text characters words whole parts
  have counted : text.length ≤ maxCount := by decide
  obtain ⟨-, unlimited, limited, splits⟩ := limit_only_splits .cluster .utf8 text ⟨2⟩ counted
  have hw : grouped maxCount characters = whole := by decide +kernel
  have hp : grouped 2 characters = parts := by decide +kernel
  refine ⟨counted, hw ▸ unlimited, hp ▸ limited, ?_⟩
  rw [← hw, ← hp]
  exact splits

end WordStream

end TokenScan
