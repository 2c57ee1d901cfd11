import CodeRows.Json.Scan

/-! # Pieces of a JSON text

Blanks aside, a JSON text is a sequence of pieces: punctuation, strings as they are spelt, and
runs of letters, which are the words and the numbers (`pieces`).  What stands at the front of a
text is told by cases (`front`).  A text that leaves no string open is laid out of its pieces, with
any blanks between them (`Laid.pieces_eq`, `laid_pieces`), and the pieces of texts put together are
those of the parts (`pieces_append`). -/

set_option autoImplicit false

namespace CodeRows.Json

def isMark (c : Char) : Bool :=
  c == '[' || c == ']' || c == '\x7b' || c == '\x7d' || c == ',' || c == ':'

/-- A character of words and numbers: neither blank nor punctuation nor a quote. -/
def isLetter (c : Char) : Bool := !isSpace c && !isMark c && c != '"'

inductive Piece where
  | mark (c : Char)
  /-- The characters between two quotes, with their escapes. -/
  | string (inside : List Char)
  | word (letters : List Char)
  /-- A quote that no other closes, with all that follows it. -/
  | unclosed (inside : List Char)
deriving DecidableEq

namespace Piece

def chars : Piece → List Char
  | mark c => [c]
  | string inside => '"' :: (inside ++ ['"'])
  | word letters => letters
  | unclosed inside => '"' :: inside

end Piece

/-- Cut the text behind an opening quote at the quote that closes it; a character behind a
backslash closes nothing. -/
def splitString : List Char → Option (List Char × List Char)
  | [] => none
  | c :: rest =>
    if c = '"' then some ([], rest)
    else if c = '\\' then
      match rest with
      | [] => none
      | d :: rest => (splitString rest).map fun (inside, after) => (c :: d :: inside, after)
    else (splitString rest).map fun (inside, after) => (c :: inside, after)

theorem splitString_quote (rest : List Char) : splitString ('"' :: rest) = some ([], rest) := by
  rw [splitString.eq_def]
  rfl

theorem splitString_escaped (c : Char) (rest : List Char) :
    splitString ('\\' :: c :: rest) =
      (splitString rest).map fun (inside, after) => ('\\' :: c :: inside, after) := by
  rw [splitString.eq_def]
  rfl

theorem splitString_plain {c : Char} (notQuote : c ≠ '"') (notSlash : c ≠ '\\')
    (rest : List Char) :
    splitString (c :: rest) =
      (splitString rest).map fun (inside, after) => (c :: inside, after) := by
  rw [splitString.eq_def]
  simp only [if_neg notQuote, if_neg notSlash]

theorem eq_of_splitString {s inside after : List Char}
    (split : splitString s = some (inside, after)) : s = inside ++ '"' :: after := by
  fun_induction splitString s generalizing inside after with
  | case1 | case3 => cases split
  | case2 rest =>
    cases split
    rfl
  | case4 d rest _ ih =>
    obtain ⟨⟨inner, last⟩, found, same⟩ := Option.map_eq_some_iff.1 split
    cases same
    simp [ih found]
  | case5 c rest _ _ ih =>
    obtain ⟨⟨inner, last⟩, found, same⟩ := Option.map_eq_some_iff.1 split
    cases same
    simp [ih found]

theorem length_splitString_lt {s inside after : List Char}
    (split : splitString s = some (inside, after)) : after.length < s.length := by
  rw [eq_of_splitString split, List.length_append, List.length_cons]
  omega

def pieces (s : List Char) : List Piece :=
  match _start : skipSpace s with
  | [] => []
  | c :: rest =>
    if isMark c then .mark c :: pieces rest
    else if c = '"' then
      match _split : splitString rest with
      | none => [.unclosed rest]
      | some (inside, after) => .string inside :: pieces after
    else .word (c :: rest.takeWhile isLetter) :: pieces (rest.dropWhile isLetter)
termination_by s.length
decreasing_by
  all_goals have shorter := length_skipSpace_le s
  all_goals rw [_start, List.length_cons] at shorter
  · omega
  · have inner := length_splitString_lt _split
    omega
  · have run := (List.dropWhile_sublist (l := rest) isLetter).length_le
    omega

/-! ## The front of a text -/

def Stops (s : List Char) : Prop := ∀ c rest, s = c :: rest → isLetter c = false

structure IsRun (letters : List Char) : Prop where
  nonempty : letters ≠ []
  letters : ∀ c ∈ letters, isLetter c = true

theorem stops_nil : Stops [] := by
  intro c rest same
  cases same

theorem stops_cons {c : Char} {rest : List Char} (other : isLetter c = false) :
    Stops (c :: rest) := by
  intro d tail same
  cases same
  exact other

theorem stops_dropWhile (s : List Char) : Stops (s.dropWhile isLetter) := by
  intro c rest same
  have head := List.head?_dropWhile_not isLetter s
  rw [same] at head
  simpa using head

theorem not_isSpace_of_isLetter {c : Char} (letter : isLetter c = true) : isSpace c = false := by
  simp only [isLetter, Bool.and_eq_true, Bool.not_eq_true'] at letter
  exact letter.1.1

theorem not_isMark_of_isLetter {c : Char} (letter : isLetter c = true) : isMark c = false := by
  simp only [isLetter, Bool.and_eq_true, Bool.not_eq_true'] at letter
  exact letter.1.2

theorem not_isLetter_of_isMark {c : Char} (mark : isMark c = true) : isLetter c = false := by
  simp [isLetter, mark]

theorem ne_quote_of_isLetter {c : Char} (letter : isLetter c = true) : c ≠ '"' := by
  rintro rfl
  exact absurd letter (by decide)

theorem not_isSpace_of_isMark {c : Char} (mark : isMark c = true) : isSpace c = false := by
  simp only [isMark, Bool.or_eq_true, beq_iff_eq] at mark
  rcases mark with ((((rfl | rfl) | rfl) | rfl) | rfl) | rfl <;> rfl

theorem skipSpace_cons {c : Char} {rest : List Char} (visible : isSpace c = false) :
    skipSpace (c :: rest) = c :: rest :=
  List.dropWhile_cons_of_neg (by simp [visible])

theorem skipSpace_blank {c : Char} {rest : List Char} (blank : isSpace c = true) :
    skipSpace (c :: rest) = skipSpace rest :=
  List.dropWhile_cons_of_pos blank

theorem visible_of_skipSpace {s rest : List Char} {c : Char} (start : skipSpace s = c :: rest) :
    isSpace c = false := by
  have head := List.head?_dropWhile_not isSpace s
  rw [← skipSpace, start] at head
  simpa using head

theorem skipSpace_skipSpace (s : List Char) : skipSpace (skipSpace s) = skipSpace s := by
  cases start : skipSpace s with
  | nil => rfl
  | cons c rest => exact skipSpace_cons (visible_of_skipSpace start)

theorem skipSpace_run {letters rest : List Char} (run : IsRun letters) :
    skipSpace (letters ++ rest) = letters ++ rest := by
  obtain ⟨nonempty, areLetters⟩ := run
  cases letters with
  | nil => exact absurd rfl nonempty
  | cons c letters => exact skipSpace_cons (not_isSpace_of_isLetter (areLetters c (by simp)))

theorem takeWhile_run {letters rest : List Char} (areLetters : ∀ c ∈ letters, isLetter c = true)
    (stops : Stops rest) : (letters ++ rest).takeWhile isLetter = letters := by
  rw [List.takeWhile_append_of_pos areLetters]
  cases rest with
  | nil => simp
  | cons c rest => simp [stops c rest rfl]

theorem dropWhile_run {letters rest : List Char} (areLetters : ∀ c ∈ letters, isLetter c = true)
    (stops : Stops rest) : (letters ++ rest).dropWhile isLetter = rest := by
  rw [List.dropWhile_append_of_pos areLetters]
  cases rest with
  | nil => rfl
  | cons c rest => exact List.dropWhile_cons_of_neg (by simp [stops c rest rfl])

section Equations

variable {s rest : List Char}

theorem pieces_of_nil (start : skipSpace s = []) : pieces s = [] := by
  rw [pieces]
  split
  · rfl
  · rename_i other
    rw [start] at other
    cases other

theorem pieces_nil : pieces [] = [] := pieces_of_nil rfl

theorem pieces_of_cons {c : Char} (start : skipSpace s = c :: rest) :
    pieces s =
      if isMark c then .mark c :: pieces rest
      else if c = '"' then
        match splitString rest with
        | none => [.unclosed rest]
        | some (inside, after) => .string inside :: pieces after
      else .word (c :: rest.takeWhile isLetter) :: pieces (rest.dropWhile isLetter) := by
  rw [pieces]
  split
  · rename_i other
    rw [start] at other
    cases other
  · rename_i other
    rw [start] at other
    cases other
    cases splitString rest with
    | none => rfl
    | some parts => rfl

theorem pieces_of_mark {c : Char} (mark : isMark c = true) (start : skipSpace s = c :: rest) :
    pieces s = .mark c :: pieces rest := by
  rw [pieces_of_cons start, if_pos mark]

theorem pieces_of_string {raw inside : List Char} (start : skipSpace s = '"' :: raw)
    (split : splitString raw = some (inside, rest)) :
    pieces s = .string inside :: pieces rest := by
  rw [pieces_of_cons start, if_neg (by decide), if_pos rfl, split]

theorem pieces_of_unclosed {raw : List Char} (start : skipSpace s = '"' :: raw)
    (split : splitString raw = none) : pieces s = [.unclosed raw] := by
  rw [pieces_of_cons start, if_neg (by decide), if_pos rfl, split]

theorem pieces_of_word {letters : List Char} (run : IsRun letters) (stops : Stops rest)
    (start : skipSpace s = letters ++ rest) : pieces s = .word letters :: pieces rest := by
  obtain ⟨nonempty, areLetters⟩ := run
  cases letters with
  | nil => exact absurd rfl nonempty
  | cons c letters =>
    obtain ⟨letter, others⟩ := List.forall_mem_cons.1 areLetters
    have start' : skipSpace s = c :: (letters ++ rest) := start
    rw [pieces_of_cons start', if_neg (by simp [not_isMark_of_isLetter letter]),
      if_neg (ne_quote_of_isLetter letter), takeWhile_run others stops, dropWhile_run others stops]

theorem pieces_skipSpace (s : List Char) : pieces (skipSpace s) = pieces s := by
  rw [pieces, pieces, skipSpace_skipSpace]

end Equations

inductive Front (s : List Char) : Prop where
  | nil (start : skipSpace s = []) (split : pieces s = [])
  | mark {c : Char} {rest : List Char} (isMark : isMark c = true) (start : skipSpace s = c :: rest)
      (split : pieces s = .mark c :: pieces rest)
  | string {inside rest : List Char}
      (closed : splitString (inside ++ '"' :: rest) = some (inside, rest))
      (start : skipSpace s = '"' :: (inside ++ '"' :: rest))
      (split : pieces s = .string inside :: pieces rest)
  | unclosed {raw : List Char} (endless : splitString raw = none) (start : skipSpace s = '"' :: raw)
      (split : pieces s = [.unclosed raw])
  | word {letters rest : List Char} (run : IsRun letters) (stops : Stops rest)
      (start : skipSpace s = letters ++ rest) (split : pieces s = .word letters :: pieces rest)

theorem front (s : List Char) : Front s := by
  cases start : skipSpace s with
  | nil => exact .nil start (pieces_of_nil start)
  | cons c rest =>
    by_cases mark : isMark c = true
    · exact .mark mark start (pieces_of_mark mark start)
    by_cases quote : c = '"'
    · subst quote
      cases split : splitString rest with
      | none => exact .unclosed split start (pieces_of_unclosed start split)
      | some parts =>
        obtain ⟨inside, after⟩ := parts
        have cut := eq_of_splitString split
        have same := pieces_of_string start split
        subst cut
        exact .string split start same
    · have letter : isLetter c = true := by
        simp [isLetter, visible_of_skipSpace start, mark, quote]
      have run : IsRun (c :: rest.takeWhile isLetter) :=
        ⟨by simp, List.forall_mem_cons.2 ⟨letter, List.all_eq_true.1 List.all_takeWhile⟩⟩
      have start' : skipSpace s = (c :: rest.takeWhile isLetter) ++ rest.dropWhile isLetter := by
        rw [start, List.cons_append, List.takeWhile_append_dropWhile]
      have stops := stops_dropWhile rest
      exact .word run stops start' (pieces_of_word run stops start')

/-! ## Layouts -/

/-- Where a string is cut does not depend on what follows it. -/
theorem splitString_other {s inside after : List Char}
    (split : splitString s = some (inside, after)) (other : List Char) :
    splitString (inside ++ '"' :: other) = some (inside, other) := by
  fun_induction splitString s generalizing inside after with
  | case1 | case3 => cases split
  | case2 rest =>
    cases split
    exact splitString_quote other
  | case4 d rest _ ih =>
    obtain ⟨⟨inner, last⟩, found, same⟩ := Option.map_eq_some_iff.1 split
    cases same
    simp [splitString_escaped, ih found]
  | case5 c rest notQuote notSlash ih =>
    obtain ⟨⟨inner, last⟩, found, same⟩ := Option.map_eq_some_iff.1 split
    cases same
    simp [splitString_plain notQuote notSlash, ih found]

theorem Stops.append {s rest : List Char} (first : Stops s) (second : Stops rest) :
    Stops (s ++ rest) := by
  cases s with
  | nil => exact second
  | cons c s => exact stops_cons (first c s rfl)

/-- The text consists of the pieces in their order, with any blanks between and around them.  Only
a word needs something behind it that ends it. -/
inductive Laid : List Piece → List Char → Prop where
  | nil : Laid [] []
  | blank {c : Char} {ps : List Piece} {rest : List Char} :
      isSpace c = true → Laid ps rest → Laid ps (c :: rest)
  | mark {c : Char} {ps : List Piece} {rest : List Char} :
      isMark c = true → Laid ps rest → Laid (.mark c :: ps) (c :: rest)
  | string {inside : List Char} {ps : List Piece} {rest : List Char} :
      splitString (inside ++ ['"']) = some (inside, []) → Laid ps rest →
        Laid (.string inside :: ps) ('"' :: (inside ++ '"' :: rest))
  | word {letters : List Char} {ps : List Piece} {rest : List Char} :
      IsRun letters → Stops rest → Laid ps rest → Laid (.word letters :: ps) (letters ++ rest)

/-- What follows a laid-out text adds its own pieces, unless it goes on with a word. -/
theorem Laid.pieces_append {ps : List Piece} {s rest : List Char} (laid : Laid ps s)
    (stops : Stops rest) : pieces (s ++ rest) = ps ++ pieces rest := by
  induction laid with
  | nil => rfl
  | blank blank _ ih =>
    rw [List.cons_append, ← pieces_skipSpace, skipSpace_blank blank, pieces_skipSpace, ih]
  | mark mark _ ih =>
    rw [List.cons_append, pieces_of_mark mark (skipSpace_cons (not_isSpace_of_isMark mark)), ih]
    rfl
  | @string inside ps tail cut _ ih =>
    rw [List.cons_append, List.append_assoc, List.cons_append,
      pieces_of_string (skipSpace_cons (by decide)) (splitString_other cut _), ih]
    rfl
  | word run tailStops _ ih =>
    rw [List.append_assoc, pieces_of_word run (tailStops.append stops) (skipSpace_run run), ih]
    rfl

theorem Laid.pieces_eq {ps : List Piece} {s : List Char} (laid : Laid ps s) : pieces s = ps := by
  simpa [pieces_nil] using laid.pieces_append stops_nil

theorem Laid.of_skipSpace {ps : List Piece} {s : List Char} (laid : Laid ps (skipSpace s)) :
    Laid ps s := by
  induction s with
  | nil => exact laid
  | cons c rest ih =>
    by_cases blank : isSpace c = true
    · rw [skipSpace_blank blank] at laid
      exact .blank blank (ih laid)
    · rwa [skipSpace_cons (Bool.eq_false_iff.2 blank)] at laid

/-- A text that leaves no string open is laid out of its pieces. -/
theorem laid_pieces {s : List Char} (closed : ∀ raw, .unclosed raw ∉ pieces s) :
    Laid (pieces s) s := by
  -- On the length: each step takes off a piece and the blanks in front of it.
  induction size : s.length using Nat.strongRecOn generalizing s with
  | _ bound ih =>
    have shorter := length_skipSpace_le s
    apply Laid.of_skipSpace
    cases front s with
    | nil start split =>
      rw [start, split]
      exact .nil
    | @mark c tail mark start split =>
      rw [start, List.length_cons] at shorter
      rw [split] at closed ⊢
      rw [start]
      exact .mark mark
        (ih tail.length (by omega) (fun raw member => closed raw (by simp [member])) rfl)
    | @string inside tail cut start split =>
      rw [start, List.length_cons, List.length_append, List.length_cons] at shorter
      rw [split] at closed ⊢
      rw [start]
      exact .string (splitString_other cut [])
        (ih tail.length (by omega) (fun raw member => closed raw (by simp [member])) rfl)
    | unclosed _ _ split =>
      rw [split] at closed
      exact absurd (List.mem_singleton_self _) (closed _)
    | @word letters tail run tailStops start split =>
      have some := List.length_pos_iff.2 run.nonempty
      rw [start, List.length_append] at shorter
      rw [split] at closed ⊢
      rw [start]
      exact .word run tailStops
        (ih tail.length (by omega) (fun raw member => closed raw (by simp [member])) rfl)

/-- The pieces of a text that leaves no string open are not changed by what follows it. -/
theorem pieces_append {s rest : List Char} (closed : ∀ raw, .unclosed raw ∉ pieces s)
    (stops : Stops rest) : pieces (s ++ rest) = pieces s ++ pieces rest :=
  (laid_pieces closed).pieces_append stops

end CodeRows.Json
