import CodeRows.Proofs.Scalars

/-! # Values and how they are skipped

The pieces of a JSON value are a word or a string, or parts between brackets with commas between
them (`Value`).  Where a value ends is settled by its pieces (`Value.cancels`).  A text can be
skipped exactly when it starts with a value all of whose words and strings can be
(`skipValue_takes`, `skipValue_gives`); what the containers that are still open demand of the rest
is `Closes`. -/

set_option autoImplicit false

namespace CodeRows.Json

/-! ## Values -/

/-- The comma in front of a part, unless it is the first. -/
def lead (first : Bool) : List Piece := if first then [] else [.mark ',']

def separated : Bool → List (List Piece) → List Piece
  | _, [] => []
  | first, part :: parts => lead first ++ (part ++ separated false parts)

def Container.opener : Container → Char
  | list => '['
  | object => '\x7b'

def enclosed (container : Container) (parts : List (List Piece)) : List Piece :=
  .mark container.opener :: (separated true parts ++ [.mark container.closer])

structure Pair where
  key : List Char
  value : List Piece
deriving DecidableEq

def Pair.pieces (pair : Pair) : List Piece := .string pair.key :: .mark ':' :: pair.value

def listPieces (elements : List (List Piece)) : List Piece := enclosed .list elements

def objectPieces (pairs : List Pair) : List Piece := enclosed .object (pairs.map Pair.pieces)

/-- The pieces of a value whose words and strings, keys included, are all `good`. -/
inductive Value (good : Piece → Prop) : List Piece → Prop where
  | scalar {p : Piece} : p.isScalar = true → good p → Value good [p]
  | list {elements : List (List Piece)} :
      (∀ element ∈ elements, Value good element) → Value good (listPieces elements)
  | object {pairs : List Pair} : (∀ pair ∈ pairs, good (.string pair.key)) →
      (∀ pair ∈ pairs, Value good pair.value) → Value good (objectPieces pairs)

abbrev Written : List Piece → Prop := Value fun _ => True

theorem Value.written {good : Piece → Prop} {v : List Piece} (value : Value good v) :
    Written v := by
  induction value with
  | scalar isScalar _ => exact .scalar isScalar trivial
  | list _ ih => exact .list ih
  | object _ _ ih => exact .object (fun _ _ => trivial) ih

/-- What can stand as a part of a container: neither a comma nor a closing bracket is in front. -/
def Begins (x : List Piece) : Prop :=
  ∃ p rest, x = p :: rest ∧ p ≠ .mark ',' ∧ ∀ container : Container, p ≠ .mark container.closer

theorem begins_of_isScalar {p : Piece} (isScalar : p.isScalar = true) (rest : List Piece) :
    Begins (p :: rest) := by
  refine ⟨p, rest, rfl, ?_, fun container => ?_⟩
  · rintro rfl
    cases isScalar
  · rintro rfl
    cases isScalar

theorem begins_enclosed (container : Container) (parts : List (List Piece)) :
    Begins (enclosed container parts) := by
  refine ⟨_, _, rfl, ?_, fun other => ?_⟩
  · cases container <;> decide
  · cases container <;> cases other <;> decide

theorem Pair.begins_pieces (pair : Pair) : Begins pair.pieces :=
  begins_of_isScalar rfl _

theorem Value.begins {good : Piece → Prop} {v : List Piece} (value : Value good v) : Begins v := by
  cases value with
  | scalar isScalar _ => exact begins_of_isScalar isScalar []
  | list _ => exact begins_enclosed .list _
  | object _ _ => exact begins_enclosed .object _

/-! ## Where a value ends -/

/-- No continuation of `x` is one of `y` unless they are the same. -/
def Cancels (x y : List Piece) : Prop := ∀ us ws, x ++ us = y ++ ws → x = y ∧ us = ws

/-- If parts can be told from what follows them, so can parts with commas between them and a
closing bracket behind. -/
theorem separated_cancel {container : Container} {parts others : List (List Piece)} {first : Bool}
    {us ws : List Piece} (cancel : ∀ x ∈ parts, ∀ y ∈ others, Cancels x y)
    (begins : ∀ x ∈ parts, Begins x) (otherBegins : ∀ y ∈ others, Begins y)
    (same : separated first parts ++ .mark container.closer :: us =
      separated first others ++ .mark container.closer :: ws) :
    parts = others ∧ us = ws := by
  have comma : container.closer ≠ ',' := by cases container <;> decide
  -- Against no parts at all, the closing bracket meets a comma or the front of a part.
  have empty : ∀ {first : Bool} {x : List Piece} {xs : List (List Piece)} {us ws : List Piece},
      Begins x → .mark container.closer :: us ≠ separated first (x :: xs) ++ ws := by
    intro first x xs us ws begins same
    obtain ⟨p, rest, rfl, -, notCloser⟩ := begins
    cases first with
    | true => exact notCloser container (List.cons.inj same).1.symm
    | false => exact comma (Piece.mark.inj (List.cons.inj same).1)
  induction parts generalizing first others with
  | nil =>
    cases others with
    | nil => exact ⟨rfl, (List.cons.inj same).2⟩
    | cons y others => exact absurd same (empty (otherBegins y (by simp)))
  | cons x parts ih =>
    cases others with
    | nil => exact absurd same.symm (empty (begins x (by simp)))
    | cons y others =>
      have stripped : x ++ (separated false parts ++ .mark container.closer :: us) =
          y ++ (separated false others ++ .mark container.closer :: ws) := by
        cases first <;> simpa [separated, lead] using same
      obtain ⟨rfl, rest⟩ := cancel x (by simp) y (by simp) _ _ stripped
      obtain ⟨rfl, rfl⟩ := ih
        (fun x' member y' otherMember => cancel x' (by simp [member]) y' (by simp [otherMember]))
        (fun x' member => begins x' (by simp [member]))
        (fun y' member => otherBegins y' (by simp [member])) rest
      exact ⟨rfl, rfl⟩

theorem listPieces_cancel {elements others : List (List Piece)} {us ws : List Piece}
    (cancel : ∀ x ∈ elements, ∀ y ∈ others, Cancels x y) (begins : ∀ x ∈ elements, Begins x)
    (otherBegins : ∀ y ∈ others, Begins y)
    (same : listPieces elements ++ us = listPieces others ++ ws) :
    elements = others ∧ us = ws := by
  simp only [listPieces, enclosed, List.cons_append, List.append_assoc, List.nil_append,
    List.cons.injEq, true_and] at same
  exact separated_cancel cancel begins otherBegins same

theorem Pair.pieces_inj {pair other : Pair} (same : pair.pieces = other.pieces) : pair = other := by
  obtain ⟨key, value⟩ := pair
  obtain ⟨otherKey, otherValue⟩ := other
  simpa [Pair.pieces] using same

theorem Pair.cancels_pieces {pair other : Pair} (cancels : Cancels pair.value other.value) :
    Cancels pair.pieces other.pieces := by
  intro us ws same
  simp only [Pair.pieces, List.cons_append, List.cons.injEq, Piece.string.injEq, true_and] at same ⊢
  obtain ⟨sameValue, rest⟩ := cancels us ws same.2
  exact ⟨⟨same.1, sameValue⟩, rest⟩

theorem objectPieces_cancel {pairs others : List Pair} {us ws : List Piece}
    (cancel : ∀ pair ∈ pairs, ∀ other ∈ others, Cancels pair.value other.value)
    (same : objectPieces pairs ++ us = objectPieces others ++ ws) :
    pairs = others ∧ us = ws := by
  have begins : ∀ pairs : List Pair, ∀ x ∈ pairs.map Pair.pieces, Begins x := by
    intro pairs x member
    obtain ⟨pair, -, rfl⟩ := List.mem_map.1 member
    exact pair.begins_pieces
  have cancelParts : ∀ x ∈ pairs.map Pair.pieces, ∀ y ∈ others.map Pair.pieces, Cancels x y := by
    intro x member y otherMember
    obtain ⟨pair, inPairs, rfl⟩ := List.mem_map.1 member
    obtain ⟨other, inOthers, rfl⟩ := List.mem_map.1 otherMember
    exact Pair.cancels_pieces (cancel pair inPairs other inOthers)
  simp only [objectPieces, enclosed, List.cons_append, List.append_assoc, List.nil_append,
    List.cons.injEq, true_and] at same
  obtain ⟨sameParts, rest⟩ := separated_cancel cancelParts (begins pairs) (begins others) same
  exact ⟨(List.map_inj_right fun _ _ => Pair.pieces_inj).1 sameParts, rest⟩

/-- Two values in front of one sequence of pieces are the same. -/
theorem Value.cancels {v w : List Piece} (value : Written v) (other : Written w) :
    Cancels v w := by
  intro us ws same
  induction value generalizing w us ws with
  | scalar isScalar _ =>
    cases other with
    | scalar _ _ =>
      obtain ⟨rfl, rest⟩ := List.cons.inj same
      exact ⟨rfl, rest⟩
    | list _ | object _ _ =>
      obtain ⟨rfl, -⟩ := List.cons.inj same
      cases isScalar
  | @list elements each ih =>
    cases other with
    | scalar isScalar _ =>
      obtain ⟨rfl, -⟩ := List.cons.inj same
      cases isScalar
    | @list others otherEach =>
      obtain ⟨rfl, rest⟩ := listPieces_cancel
        (fun x member y otherMember => ih x member (otherEach y otherMember))
        (fun x member => (each x member).begins) (fun y member => (otherEach y member).begins) same
      exact ⟨rfl, rest⟩
    | object _ _ => exact absurd (List.cons.inj same).1 (by decide)
  | @object pairs _ each ih =>
    cases other with
    | scalar isScalar _ =>
      obtain ⟨rfl, -⟩ := List.cons.inj same
      cases isScalar
    | list _ => exact absurd (List.cons.inj same).1 (by decide)
    | @object others _ otherEach =>
      obtain ⟨rfl, rest⟩ := objectPieces_cancel
        (fun pair member other otherMember => ih pair member (otherEach other otherMember)) same
      exact ⟨rfl, rest⟩

/-- The members of an object are settled by its pieces. -/
theorem eq_of_objectPieces_eq {pairs others : List Pair}
    (written : ∀ pair ∈ pairs, Written pair.value)
    (otherWritten : ∀ pair ∈ others, Written pair.value)
    (same : objectPieces pairs = objectPieces others) : pairs = others := by
  have cancel : ∀ pair ∈ pairs, ∀ other ∈ others, Cancels pair.value other.value :=
    fun pair member other otherMember =>
      (written pair member).cancels (otherWritten other otherMember)
  have same' : objectPieces pairs ++ [] = objectPieces others ++ [] := by rw [same]
  exact (objectPieces_cancel cancel same').1

/-- The elements of a list are settled by its pieces. -/
theorem eq_of_listPieces_eq {elements others : List (List Piece)}
    (written : ∀ element ∈ elements, Written element)
    (otherWritten : ∀ other ∈ others, Written other)
    (same : listPieces elements = listPieces others) : elements = others := by
  have same' : listPieces elements ++ [] = listPieces others ++ [] := by rw [same]
  exact (listPieces_cancel
    (fun x member y otherMember => (written x member).cancels (otherWritten y otherMember))
    (fun x member => (written x member).begins) (fun y member => (otherWritten y member).begins)
    same').1

/-! ## Skipping -/

def Piece.Sound (p : Piece) : Prop := skipPiece p.chars = .ok ((), [])

section Steps

variable {containers : List Container} {container : Container} {s rest : List Char}

theorem skipFrom_scalar (done : skipScalar (skipSpace s) = .ok rest) :
    skipFrom .value containers s = skipFrom (.behind false) containers rest := by
  obtain ⟨c, tail, start, first⟩ := first_of_skipScalar done
  rw [skipFrom]
  split
  · rename_i other
    rw [other] at start
    cases start
    exact absurd first (by decide)
  · rename_i other
    rw [other] at start
    cases start
    exact absurd first (by decide)
  · split
    · rename_i fault
      rw [done] at fault
      cases fault
    · rename_i again
      rw [done] at again
      cases again
      rfl

theorem skipFrom_open (start : skipSpace s = container.opener :: rest) :
    skipFrom .value containers s = skipFrom (.behind true) (container :: containers) rest := by
  rw [skipFrom]
  cases container <;> split <;> rename_i other <;> simp_all [Container.opener]

theorem skipFrom_behind {opened : Bool} {c : Char} (start : skipSpace s = c :: rest) :
    skipFrom (.behind opened) (container :: containers) s =
      if c = ',' ∧ opened = false then
        skipToValue container rest >>= skipFrom .value (container :: containers)
      else if c = container.closer then skipFrom (.behind false) containers rest
      else if opened then
        skipToValue container (c :: rest) >>= skipFrom .value (container :: containers)
      else .error (faultIn container.unseparated (c :: rest)) := by
  conv => lhs; rw [skipFrom]
  split
  · rename_i other
    rw [start] at other
    cases other
  · rename_i other
    rw [start] at other
    cases other
    cases skipToValue container rest <;> cases skipToValue container (c :: rest) <;> rfl

theorem skipFrom_close {opened : Bool} (start : skipSpace s = container.closer :: rest) :
    skipFrom (.behind opened) (container :: containers) s =
      skipFrom (.behind false) containers rest := by
  have notComma : ¬ (container.closer = ',' ∧ opened = false) := by
    rintro ⟨comma, -⟩
    cases container <;> exact absurd comma (by decide)
  rw [skipFrom_behind start, if_neg notComma, if_pos rfl]

theorem skipFrom_comma {mid : List Char} (start : skipSpace s = ',' :: rest)
    (next : skipToValue container rest = .ok mid) :
    skipFrom (.behind false) (container :: containers) s =
      skipFrom .value (container :: containers) mid := by
  rw [skipFrom_behind start, if_pos ⟨rfl, rfl⟩, next]
  rfl

theorem skipFrom_first {c : Char} {mid : List Char} (start : skipSpace s = c :: rest)
    (more : c ≠ container.closer) (next : skipToValue container (c :: rest) = .ok mid) :
    skipFrom (.behind true) (container :: containers) s =
      skipFrom .value (container :: containers) mid := by
  rw [skipFrom_behind start, if_neg (by simp), if_neg more, if_pos rfl, next]
  rfl

end Steps

theorem isMark_closer (container : Container) : isMark container.closer = true := by
  cases container <;> rfl

/-- What the pieces say about the first character of a text. -/
theorem start_of_mark {s : List Char} {c : Char} {us : List Piece}
    (split : pieces s = .mark c :: us) : ∃ rest, skipSpace s = c :: rest ∧ pieces rest = us := by
  cases front s with
  | nil _ found | string _ _ found | unclosed _ _ found | word _ _ _ found =>
    rw [found] at split
    cases split
  | @mark d rest _ start found =>
    rw [found] at split
    cases split
    exact ⟨rest, start, rfl⟩

/-- A letter in front is the first of a word. -/
theorem stops_of_mark {s : List Char} {c : Char} {us : List Piece}
    (split : pieces s = .mark c :: us) : Stops s := by
  intro d tail start
  cases letter : isLetter d with
  | false => rfl
  | true =>
    have visible : skipSpace s = d :: tail := by
      rw [start, skipSpace_cons (not_isSpace_of_isLetter letter)]
    rw [pieces_of_cons visible, if_neg (by simp [not_isMark_of_isLetter letter]),
      if_neg (ne_quote_of_isLetter letter)] at split
    cases split

theorem start_of_string {s inside : List Char} {us : List Piece}
    (split : pieces s = .string inside :: us) :
    ∃ rest, skipSpace s = '"' :: (inside ++ '"' :: rest) ∧ pieces rest = us := by
  cases front s with
  | nil _ found | mark _ _ found | unclosed _ _ found | word _ _ _ found =>
    rw [found] at split
    cases split
  | @string inside rest _ start found =>
    rw [found] at split
    cases split
    exact ⟨rest, start, rfl⟩

theorem start_of_begins {s : List Char} {x us : List Piece} (begins : Begins x)
    (split : pieces s = x ++ us) :
    ∃ c rest, skipSpace s = c :: rest ∧ c ≠ ',' ∧
      ∀ container : Container, c ≠ container.closer := by
  obtain ⟨p, tail, rfl, notComma, notCloser⟩ := begins
  cases start : skipSpace s with
  | nil =>
    rw [pieces_of_nil start] at split
    cases split
  | cons c rest =>
    refine ⟨c, rest, rfl, ?_, fun container => ?_⟩
    · rintro rfl
      rw [pieces_of_mark (by decide) start] at split
      exact notComma (List.cons.inj split).1.symm
    · rintro rfl
      rw [pieces_of_mark (isMark_closer container) start] at split
      exact notCloser container (List.cons.inj split).1.symm

theorem readColon_takes {s : List Char} {us : List Piece} (split : pieces s = .mark ':' :: us) :
    ∃ rest, readColon s = .ok rest ∧ pieces rest = us := by
  obtain ⟨rest, start, found⟩ := start_of_mark split
  refine ⟨rest, ?_, found⟩
  rw [readColon, start]
  rfl

theorem readColon_gives {s rest : List Char} (done : readColon s = .ok rest) :
    pieces s = .mark ':' :: pieces rest := by
  rw [readColon] at done
  split at done
  · rename_i start
    cases done
    exact pieces_of_mark (by decide) start
  · cases done
  · cases done

/-- Whether a part can be skipped, up to the comma or bracket behind it. -/
def Skips (container : Container) (x : List Piece) : Prop :=
  ∀ (outer : List Container) (s : List Char) (us : List Piece), pieces s = x ++ us →
    ∃ mid rest, skipToValue container s = .ok mid ∧ pieces rest = us ∧
      skipFrom .value (container :: outer) mid = skipFrom (.behind false) (container :: outer) rest

theorem skipFrom_parts {container : Container} {parts : List (List Piece)}
    (skips : ∀ x ∈ parts, Skips container x) (begins : ∀ x ∈ parts, Begins x) {first : Bool}
    {outer : List Container} {s : List Char} {us : List Piece}
    (split : pieces s = separated first parts ++ .mark container.closer :: us) :
    ∃ rest, pieces rest = us ∧
      skipFrom (.behind first) (container :: outer) s = skipFrom (.behind false) outer rest := by
  induction parts generalizing first s with
  | nil =>
    obtain ⟨rest, start, found⟩ := start_of_mark split
    exact ⟨rest, found, skipFrom_close start⟩
  | cons x parts ih =>
    obtain ⟨skipsFirst, skipsLater⟩ := List.forall_mem_cons.1 skips
    obtain ⟨beginsFirst, beginsLater⟩ := List.forall_mem_cons.1 begins
    rw [separated, List.append_assoc, List.append_assoc] at split
    cases first with
    | true =>
      obtain ⟨c, tail, start, -, more⟩ := start_of_begins beginsFirst split
      rw [← pieces_skipSpace, start] at split
      obtain ⟨mid, rest, next, found, step⟩ := skipsFirst outer _ _ split
      obtain ⟨last, end_, steps⟩ := ih skipsLater beginsLater found
      exact ⟨last, end_, by rw [skipFrom_first start (more container) next, step, steps]⟩
    | false =>
      obtain ⟨tail, start, behind⟩ := start_of_mark split
      obtain ⟨mid, rest, next, found, step⟩ := skipsFirst outer _ _ behind
      obtain ⟨last, end_, steps⟩ := ih skipsLater beginsLater found
      exact ⟨last, end_, by rw [skipFrom_comma start next, step, steps]⟩

theorem readChars_of_sound {key : List Char} (sound : (Piece.string key).Sound) :
    ∃ chars, ∀ other, readChars false (key ++ '"' :: other) = .ok (chars, other) := by
  have done := skipPiece_eq_ok_iff.1 sound
  rw [Piece.chars, skipSpace_cons (by decide), skipScalar_quote] at done
  obtain ⟨⟨chars, tail⟩, result, none⟩ := map_eq_ok done
  cases none
  obtain ⟨inside, same, -, again⟩ := takes_of_readChars result
  rw [← List.append_cancel_right same] at again
  exact ⟨chars, again⟩

theorem sound_of_readChars {key chars after : List Char}
    (done : readChars false (key ++ '"' :: after) = .ok (chars, after)) :
    (Piece.string key).Sound := by
  obtain ⟨inside, same, -, again⟩ := takes_of_readChars done
  obtain rfl : key = inside := List.append_cancel_right same
  apply skipPiece_eq_ok_iff.2
  rw [Piece.chars, skipSpace_cons (by decide), skipScalar_quote, again []]
  rfl

theorem skipKey_takes {key : List Char} (sound : (Piece.string key).Sound) {s : List Char}
    {us : List Piece} (split : pieces s = .string key :: .mark ':' :: us) :
    ∃ rest, skipKey s = .ok rest ∧ pieces rest = us := by
  obtain ⟨chars, reads⟩ := readChars_of_sound sound
  obtain ⟨behind, start, colon⟩ := start_of_string split
  obtain ⟨rest, colonRead, found⟩ := readColon_takes colon
  have step : skipKey s = Except.bind (readChars false (key ++ '"' :: behind))
      fun read => readColon read.2 := by
    rw [skipKey, start]
    rfl
  refine ⟨rest, ?_, found⟩
  rw [step, reads behind]
  exact colonRead

theorem skipKey_gives {s rest : List Char} (done : skipKey s = .ok rest) :
    ∃ key, (Piece.string key).Sound ∧ pieces s = .string key :: .mark ':' :: pieces rest := by
  rw [skipKey] at done
  split at done
  · rename_i raw start
    obtain ⟨⟨chars, after⟩, keyRead, colon⟩ := bind_eq_ok done
    obtain ⟨key, rfl, inner, again⟩ := takes_of_readChars keyRead
    refine ⟨key, sound_of_readChars keyRead, ?_⟩
    rw [pieces_of_string start (inner.splitString_eq after), readColon_gives colon]
  · cases done
  · cases done

theorem skipFrom_enclosed {container : Container} {parts : List (List Piece)}
    (skips : ∀ x ∈ parts, Skips container x) (begins : ∀ x ∈ parts, Begins x)
    {outer : List Container} {s : List Char} {us : List Piece}
    (split : pieces s = enclosed container parts ++ us) :
    ∃ rest, pieces rest = us ∧ skipFrom .value outer s = skipFrom (.behind false) outer rest := by
  rw [enclosed, List.cons_append, List.append_assoc] at split
  obtain ⟨tail, start, found⟩ := start_of_mark split
  obtain ⟨rest, end_, steps⟩ := skipFrom_parts skips begins found
  exact ⟨rest, end_, by rw [skipFrom_open start, steps]⟩

/-- A value all of whose words and strings can be skipped is skipped as a whole, whatever
containers are open around it. -/
theorem skipFrom_value {v : List Piece} (value : Value Piece.Sound v) (outer : List Container)
    {s : List Char} {us : List Piece} (split : pieces s = v ++ us) :
    ∃ rest, pieces rest = us ∧ skipFrom .value outer s = skipFrom (.behind false) outer rest := by
  induction value generalizing s us outer with
  | scalar _ sound =>
    obtain ⟨rest, done, found⟩ := scalar_skipPiece.takes sound split
    exact ⟨rest, found, skipFrom_scalar (skipPiece_eq_ok_iff.1 done)⟩
  | list each ih =>
    refine skipFrom_enclosed (fun x member outer s us split => ?_)
      (fun x member => (each x member).begins) split
    obtain ⟨rest, found, step⟩ := ih x member (.list :: outer) split
    exact ⟨s, rest, rfl, found, step⟩
  | object keys each ih =>
    refine skipFrom_enclosed (fun x member outer s us split => ?_) (fun x member => ?_) split
    · obtain ⟨pair, inPairs, rfl⟩ := List.mem_map.1 member
      obtain ⟨mid, keySkipped, behind⟩ := skipKey_takes (keys pair inPairs) split
      obtain ⟨rest, found, step⟩ := ih pair inPairs (.object :: outer) behind
      exact ⟨mid, rest, keySkipped, found, step⟩
    · obtain ⟨pair, -, rfl⟩ := List.mem_map.1 member
      exact pair.begins_pieces

theorem skipValue_takes {v : List Piece} (value : Value Piece.Sound v) {s : List Char}
    {us : List Piece} (split : pieces s = v ++ us) :
    ∃ rest, skipValue s = .ok rest ∧ pieces rest = us := by
  obtain ⟨rest, found, step⟩ := skipFrom_value value [] split
  refine ⟨rest, ?_, found⟩
  rw [skipValue, step, skipFrom]

/-! ## What was skipped -/

def IsPart (good : Piece → Prop) : Container → List Piece → Prop
  | .list, x => Value good x
  | .object, x => ∃ pair : Pair, x = pair.pieces ∧ good (.string pair.key) ∧ Value good pair.value

theorem value_enclosed {good : Piece → Prop} {container : Container} {parts : List (List Piece)}
    (each : ∀ x ∈ parts, IsPart good container x) : Value good (enclosed container parts) := by
  cases container with
  | list => exact .list each
  | object =>
    have pairs : ∃ pairs : List Pair, parts = pairs.map Pair.pieces ∧
        ∀ pair ∈ pairs, good (.string pair.key) ∧ Value good pair.value := by
      induction parts with
      | nil => exact ⟨[], rfl, by simp⟩
      | cons x parts ih =>
        obtain ⟨⟨pair, rfl, goodPair⟩, later⟩ := List.forall_mem_cons.1 each
        obtain ⟨pairs, rfl, goodPairs⟩ := ih later
        exact ⟨pair :: pairs, rfl, List.forall_mem_cons.2 ⟨goodPair, goodPairs⟩⟩
    obtain ⟨pairs, rfl, goodPairs⟩ := pairs
    exact .object (fun pair member => (goodPairs pair member).1)
      (fun pair member => (goodPairs pair member).2)

/-- What is still to come when containers are open: for each, innermost first, its other parts and
its closing bracket. -/
def Closes (good : Piece → Prop) : Bool → List Container → List Piece → Prop
  | _, [], ws => ws = []
  | first, container :: outer, ws => ∃ parts rest, (∀ x ∈ parts, IsPart good container x) ∧
      ws = separated first parts ++ .mark container.closer :: rest ∧ Closes good false outer rest

theorem skipToValue_gives {container : Container} {s mid : List Char}
    (next : skipToValue container s = .ok mid) :
    ∃ key, pieces s = key ++ pieces mid ∧
      ∀ v, Value Piece.Sound v → IsPart Piece.Sound container (key ++ v) := by
  cases container with
  | list =>
    cases next
    exact ⟨[], rfl, fun v value => value⟩
  | object =>
    obtain ⟨key, sound, split⟩ := skipKey_gives next
    exact ⟨[.string key, .mark ':'], split, fun v value => ⟨⟨key, v⟩, rfl, sound, value⟩⟩

def SkipPhase.Demands (containers : List Container) (ws : List Piece) : SkipPhase → Prop
  | .value => ∃ v later, Value Piece.Sound v ∧ ws = v ++ later ∧
      Closes Piece.Sound false containers later
  | .behind opened => Closes Piece.Sound opened containers ws

theorem stops_of_closes {containers : List Container} {s rest : List Char} {ws : List Piece}
    (split : pieces s = ws ++ pieces rest) (closes : Closes Piece.Sound false containers ws)
    (same : containers = [] → s = rest) (stops : Stops rest) : Stops s := by
  cases containers with
  | nil => rw [same rfl]; exact stops
  | cons container outer =>
    obtain ⟨parts, later, -, rfl, -⟩ := closes
    cases parts with
    | nil => exact stops_of_mark split
    | cons x parts => exact stops_of_mark split

/-- After a comma, or after an opening bracket, a part is read and then the others. -/
theorem demands_of_part {container : Container} {outer : List Container} {mid rest : List Char}
    {key ws : List Piece} (first : Bool)
    (part : ∀ v, Value Piece.Sound v → IsPart Piece.Sound container (key ++ v))
    (split : pieces mid = ws ++ pieces rest)
    (demands : SkipPhase.value.Demands (container :: outer) ws) :
    ∃ later, key ++ pieces mid = later ++ pieces rest ∧
      Closes Piece.Sound first (container :: outer) (lead first ++ later) := by
  obtain ⟨v, _, value, rfl, parts, close, each, rfl, closes⟩ := demands
  refine ⟨key ++ v ++ (separated false parts ++ .mark container.closer :: close), ?_,
    (key ++ v) :: parts, close, List.forall_mem_cons.2 ⟨part v value, each⟩, ?_, closes⟩
  · rw [split]
    simp
  · simp [separated]

/-- Whatever is skipped meets the demands of the containers that are open. -/
theorem skipFrom_gives {phase : SkipPhase} {containers : List Container} {s rest : List Char}
    (done : skipFrom phase containers s = .ok rest) (stops : Stops rest) :
    ∃ ws, pieces s = ws ++ pieces rest ∧ phase.Demands containers ws := by
  fun_induction skipFrom phase containers s with
  | case1 s containers tail start ih =>
    obtain ⟨_, split, parts, later, each, rfl, closes⟩ := ih done
    refine ⟨enclosed .list parts ++ later, ?_, _, later, value_enclosed each, rfl, closes⟩
    rw [pieces_of_mark (by decide) start, split]
    simp [enclosed, Container.opener]
  | case2 s containers tail start ih =>
    obtain ⟨_, split, parts, later, each, rfl, closes⟩ := ih done
    refine ⟨enclosed .object parts ++ later, ?_, _, later, value_enclosed each, rfl, closes⟩
    rw [pieces_of_mark (by decide) start, split]
    simp [enclosed, Container.opener]
  | case3 | case6 | case7 | case10 | case12 => cases done
  | case4 s containers tail _ _ scalar ih =>
    obtain ⟨ws, split, closes⟩ := ih done
    have last : containers = [] → tail = rest := by
      rintro rfl
      rw [skipFrom] at done
      cases done
      rfl
    have tailStops := stops_of_closes split closes last stops
    obtain ⟨p, isScalar, sound, found⟩ :=
      scalar_skipPiece.gives (skipPiece_eq_ok_iff.2 scalar) tailStops
    exact ⟨p :: ws, by rw [found, split]; rfl, [p], ws, .scalar isScalar sound, rfl, closes⟩
  | case5 =>
    cases done
    exact ⟨[], rfl, rfl⟩
  | case8 s _ container outer _ tail start comma after next ih =>
    obtain ⟨rfl, rfl⟩ := comma
    obtain ⟨ws, split, demands⟩ := ih done
    obtain ⟨key, found, part⟩ := skipToValue_gives next
    obtain ⟨later, same, closes⟩ := demands_of_part false part split demands
    exact ⟨.mark ',' :: later, by rw [pieces_of_mark (by decide) start, found, same]; rfl, closes⟩
  | case9 s opened container outer tail start _ ih =>
    obtain ⟨ws, split, closes⟩ := ih done
    refine ⟨.mark container.closer :: ws, ?_, [], ws, by simp, rfl, closes⟩
    rw [pieces_of_mark (isMark_closer container) start, split]
    rfl
  | case11 s container outer c tail start _ after next _ ih =>
    obtain ⟨ws, split, demands⟩ := ih done
    obtain ⟨key, found, part⟩ := skipToValue_gives next
    obtain ⟨later, same, closes⟩ := demands_of_part true part split demands
    exact ⟨later, by rw [← pieces_skipSpace, start, found, same], closes⟩

theorem skipValue_gives {s rest : List Char} (done : skipValue s = .ok rest) (stops : Stops rest) :
    ∃ v, Value Piece.Sound v ∧ pieces s = v ++ pieces rest := by
  obtain ⟨_, split, v, _, value, rfl, rfl⟩ := skipFrom_gives done stops
  rw [List.append_nil] at split
  exact ⟨v, value, split⟩

end CodeRows.Json
