import CodeRows.Json.Skip
import CodeRows.Json.Value
import CodeRows.Proofs.Pieces

/-! # Values of one piece

Truth values, numbers, strings and `null` are one piece each.  Reading such a value looks no
further than the piece (`Local` for words, `Enclosed` for strings), so what is read off a text is
what the reader makes of its first piece alone (`Scalar.takes`, `Scalar.gives`). -/

set_option autoImplicit false

namespace CodeRows.Json

def Piece.isScalar : Piece → Bool
  | mark _ => false
  | string _ => true
  | word _ => true
  | unclosed _ => false

/-- What is read of the letters `w` does not depend on what follows them, and what is left of them
is still in front of that. -/
def Local {α : Type} (read : List Char → Parse α) (w : List Char) : Prop :=
  ∀ rest a after, Stops rest → read (w ++ rest) = .ok (a, after) →
    ∃ used left, w = used ++ left ∧ after = left ++ rest ∧
      ∀ other, Stops other → read (w ++ other) = .ok (a, left ++ other)

/-! ## Words -/

theorem local_readWord (word w rest after : List Char) (stops : Stops rest)
    (letters : ∀ c ∈ word, isLetter c = true) (done : readWord word (w ++ rest) = .ok after) :
    ∃ used left, w = used ++ left ∧ after = left ++ rest ∧
      ∀ other, Stops other → readWord word (w ++ other) = .ok (left ++ other) := by
  induction word generalizing w with
  | nil =>
    cases done
    exact ⟨[], w, rfl, rfl, fun _ _ => rfl⟩
  | cons c word ih =>
    obtain ⟨letter, others⟩ := List.forall_mem_cons.1 letters
    cases w with
    | nil =>
      cases rest with
      | nil => cases done
      | cons d rest =>
        rw [List.nil_append, readWord] at done
        split at done
        · rename_i same
          rw [same, stops d rest rfl] at letter
          cases letter
        · cases done
    | cons d w =>
      rw [List.cons_append, readWord] at done
      split at done
      · rename_i same
        obtain ⟨used, left, split, end_, again⟩ := ih w others done
        refine ⟨d :: used, left, by rw [split]; rfl, end_, fun other otherStops => ?_⟩
        rw [List.cons_append, readWord, if_pos same]
        exact again other otherStops
      · cases done

/-! ## Numbers -/

theorem isLetter_of_isDigit {c : Char} (digit : c.isDigit = true) : isLetter c = true := by
  cases letter : isLetter c with
  | true => rfl
  | false =>
    simp only [isLetter, isSpace, isMark, Bool.and_eq_false_iff, Bool.not_eq_false',
      Bool.or_eq_true, beq_iff_eq, bne_eq_false_iff_eq] at letter
    rcases letter with ((((rfl | rfl) | rfl) | rfl) |
      (((((rfl | rfl) | rfl) | rfl) | rfl) | rfl)) | rfl <;> cases digit

theorem Stops.not_isDigit {rest tail : List Char} {c : Char} (stops : Stops rest)
    (start : rest = c :: tail) : c.isDigit = false := by
  cases digit : c.isDigit with
  | false => rfl
  | true =>
    have letter := isLetter_of_isDigit digit
    rw [stops c tail start] at letter
    cases letter

theorem takeWhile_isDigit_append (w : List Char) {rest : List Char} (stops : Stops rest) :
    (w ++ rest).takeWhile Char.isDigit = w.takeWhile Char.isDigit := by
  induction w with
  | nil =>
    cases rest with
    | nil => rfl
    | cons c rest => simp [stops.not_isDigit rfl]
  | cons c w ih =>
    by_cases digit : c.isDigit = true
    · simp [digit, ih]
    · simp [digit]

theorem dropWhile_isDigit_append (w : List Char) {rest : List Char} (stops : Stops rest) :
    (w ++ rest).dropWhile Char.isDigit = w.dropWhile Char.isDigit ++ rest := by
  induction w with
  | nil =>
    cases rest with
    | nil => rfl
    | cons c rest => simp [stops.not_isDigit rfl]
  | cons c w ih =>
    by_cases digit : c.isDigit = true
    · simp [digit, ih]
    · simp [digit]

theorem local_readDigits (atEnd : Cause) (w : List Char) : Local (readDigits atEnd) w := by
  intro rest digits after stops done
  cases w with
  | nil =>
    cases rest with
    | nil => cases done
    | cons c rest =>
      rw [List.nil_append, readDigits, stops.not_isDigit rfl] at done
      cases done
  | cons c w =>
    rw [List.cons_append, readDigits] at done
    split at done
    · rename_i digit
      rw [← List.cons_append, takeWhile_isDigit_append _ stops, dropWhile_isDigit_append _ stops]
        at done
      cases done
      refine ⟨_, _, List.takeWhile_append_dropWhile.symm, rfl, fun other otherStops => ?_⟩
      rw [List.cons_append, readDigits, if_pos digit, ← List.cons_append,
        takeWhile_isDigit_append _ otherStops, dropWhile_isDigit_append _ otherStops]
    · cases done

theorem readWhole_zero {atEnd : Cause} {rest : List Char}
    (last : ∀ c tail, rest = c :: tail → c.isDigit = false) :
    readWhole atEnd ('0' :: rest) = .ok (['0'], rest) := by
  cases rest with
  | nil => rfl
  | cons c rest =>
    have other := last c rest rfl
    simp [readWhole, other]

theorem readWhole_of_ne_zero {atEnd : Cause} {s : List Char} (other : ∀ rest, s ≠ '0' :: rest) :
    readWhole atEnd s = readDigits atEnd s := by
  rw [readWhole]
  exact other

theorem local_readWhole (atEnd : Cause) (w : List Char) : Local (readWhole atEnd) w := by
  intro rest digits after stops done
  by_cases zero : ∃ tail, w ++ rest = '0' :: tail
  · cases w with
    | nil =>
      obtain ⟨tail, start⟩ := zero
      exact absurd (stops '0' tail start) (by decide)
    | cons c w =>
      obtain ⟨tail, start⟩ := zero
      obtain ⟨rfl, -⟩ := List.cons.inj start
      have last : ∀ d later, w = d :: later → d.isDigit = false := by
        rintro d later rfl
        cases digit : d.isDigit with
        | false => rfl
        | true => simp [readWhole, digit] at done
      have reads : ∀ other, Stops other →
          readWhole atEnd ('0' :: w ++ other) = .ok (['0'], w ++ other) := by
        intro other otherStops
        apply readWhole_zero
        intro d later start
        cases w with
        | nil => exact otherStops.not_isDigit start
        | cons e w => exact last d w (by rw [(List.cons.inj start).1])
      rw [reads rest stops] at done
      cases done
      exact ⟨['0'], w, rfl, rfl, reads⟩
  · rw [readWhole_of_ne_zero (fun tail start => zero ⟨tail, start⟩)] at done
    obtain ⟨used, left, split, end_, again⟩ := local_readDigits atEnd w rest digits after stops done
    refine ⟨used, left, split, end_, fun other otherStops => ?_⟩
    rw [readWhole_of_ne_zero, again other otherStops]
    intro tail start
    cases w with
    | nil => exact absurd (otherStops '0' tail start) (by decide)
    | cons c w => exact zero ⟨w ++ rest, by rw [List.cons_append, (List.cons.inj start).1]⟩

theorem readFraction_of_ne_point {atEnd : Cause} {s : List Char} (other : ∀ rest, s ≠ '.' :: rest) :
    readFraction atEnd s = .ok (none, s) := by
  rw [readFraction]
  exact other

theorem local_readFraction (atEnd : Cause) (w : List Char) : Local (readFraction atEnd) w := by
  intro rest fraction after stops done
  have absent : ∀ other, Stops other → ∀ tail, other ≠ '.' :: tail :=
    fun other otherStops tail start => absurd (otherStops '.' tail start) (by decide)
  cases w with
  | nil =>
    rw [List.nil_append, readFraction_of_ne_point (absent rest stops)] at done
    cases done
    exact ⟨[], [], rfl, rfl, fun other otherStops =>
      readFraction_of_ne_point (absent other otherStops)⟩
  | cons c w =>
    by_cases point : c = '.'
    · subst point
      obtain ⟨⟨digits, tail⟩, result, same⟩ := map_eq_ok done
      cases same
      obtain ⟨used, left, split, end_, again⟩ := local_readDigits atEnd w rest digits _ stops result
      refine ⟨'.' :: used, left, by rw [split]; rfl, end_, fun other otherStops => ?_⟩
      rw [List.cons_append, readFraction, again other otherStops]
      rfl
    · have plain : ∀ other tail, c :: w ++ other ≠ '.' :: tail :=
        fun other tail start => point (List.cons.inj start).1
      rw [readFraction_of_ne_point (plain rest)] at done
      cases done
      exact ⟨[], c :: w, rfl, rfl, fun other _ => readFraction_of_ne_point (plain other)⟩

theorem readSign_append (w : List Char) {rest : List Char} (stops : Stops rest) :
    readSign (w ++ rest) = ((readSign w).1, (readSign w).2 ++ rest) := by
  cases w with
  | nil =>
    rw [List.nil_append, readSign]
    · rfl
    · exact fun tail start => absurd (stops '+' tail start) (by decide)
    · exact fun tail start => absurd (stops '-' tail start) (by decide)
  | cons c w =>
    rw [List.cons_append]
    unfold readSign
    split <;> simp_all

theorem readSign_split (w : List Char) : ∃ used, w = used ++ (readSign w).2 := by
  unfold readSign
  split
  · exact ⟨['+'], rfl⟩
  · exact ⟨['-'], rfl⟩
  · exact ⟨[], rfl⟩

theorem readMinus_append (w : List Char) {rest : List Char} (stops : Stops rest) :
    readMinus (w ++ rest) = ((readMinus w).1, (readMinus w).2 ++ rest) := by
  cases w with
  | nil =>
    rw [List.nil_append, readMinus]
    · rfl
    · exact fun tail start => absurd (stops '-' tail start) (by decide)
  | cons c w =>
    rw [List.cons_append]
    unfold readMinus
    split <;> simp_all

theorem readMinus_split (w : List Char) : ∃ used, w = used ++ (readMinus w).2 := by
  unfold readMinus
  split
  · exact ⟨['-'], rfl⟩
  · exact ⟨[], rfl⟩

theorem local_readExponent (atEnd : Cause) (w : List Char) : Local (readExponent atEnd) w := by
  intro rest exponent after stops done
  cases w with
  | nil =>
    have absent : ∀ other, Stops other → readExponent atEnd other = .ok (none, other) := by
      intro other otherStops
      cases other with
      | nil => rfl
      | cons c other =>
        have plain := otherStops c other rfl
        rw [readExponent, if_neg]
        rintro (rfl | rfl) <;> exact absurd plain (by decide)
    rw [List.nil_append, absent rest stops] at done
    cases done
    exact ⟨[], [], rfl, rfl, absent⟩
  | cons c w =>
    rw [List.cons_append, readExponent] at done
    split at done
    · rename_i letter
      rw [readSign_append w stops] at done
      obtain ⟨⟨digits, tail⟩, result, same⟩ := map_eq_ok done
      cases same
      obtain ⟨sign, signSplit⟩ := readSign_split w
      obtain ⟨used, left, split, end_, again⟩ :=
        local_readDigits atEnd (readSign w).2 rest digits _ stops result
      refine ⟨c :: sign ++ used, left, ?_, end_, fun other otherStops => ?_⟩
      · rw [List.append_assoc, ← split, List.cons_append, ← signSplit]
      · rw [List.cons_append, readExponent, if_pos letter, readSign_append w otherStops,
          again other otherStops]
        rfl
    · rename_i letter
      cases done
      refine ⟨[], c :: w, rfl, rfl, fun other _ => ?_⟩
      rw [List.cons_append, readExponent, if_neg letter]

theorem local_readSpelling (atEnd : Cause) (w : List Char) : Local (readSpelling atEnd) w := by
  intro rest spelling after stops done
  rw [readSpelling, readMinus_append w stops] at done
  obtain ⟨⟨whole, afterWhole⟩, wholeRead, done⟩ := bind_eq_ok done
  obtain ⟨⟨fraction, afterFraction⟩, fractionRead, done⟩ := bind_eq_ok done
  obtain ⟨⟨exponent, afterExponent⟩, exponentRead, done⟩ := bind_eq_ok done
  cases done
  obtain ⟨minus, minusSplit⟩ := readMinus_split w
  obtain ⟨used₁, left₁, split₁, rfl, again₁⟩ :=
    local_readWhole atEnd _ rest whole _ stops wholeRead
  obtain ⟨used₂, left₂, split₂, rfl, again₂⟩ :=
    local_readFraction atEnd left₁ rest fraction _ stops fractionRead
  obtain ⟨used₃, left₃, split₃, rfl, again₃⟩ :=
    local_readExponent atEnd left₂ rest exponent _ stops exponentRead
  refine ⟨minus ++ used₁ ++ used₂ ++ used₃, left₃, ?_, rfl, fun other otherStops => ?_⟩
  · simp only [List.append_assoc, ← split₃, ← split₂, ← split₁, ← minusSplit]
  · rw [readSpelling, readMinus_append w otherStops, again₁ other otherStops]
    dsimp only [bind, Except.bind]
    rw [again₂ other otherStops]
    dsimp only
    rw [again₃ other otherStops]

theorem realNumber_other {negative : Bool} {scaled : Scaled} {rest : List Char} {number : Number}
    (done : realNumber negative scaled rest = .ok number) (other : List Char) :
    realNumber negative scaled other = .ok number := by
  unfold realNumber at done ⊢
  split at done
  · exact done
  · cases done

/-- The value of a spelling does not depend on what follows it. -/
theorem Spelling.value_other {spelling : Spelling} {rest : List Char} {number : Number}
    (done : spelling.value rest = .ok number) (other : List Char) :
    spelling.value other = .ok number := by
  unfold Spelling.value at done ⊢
  dsimp only at done ⊢
  split at done
  · split at done
    · exact realNumber_other done other
    · split at done
      · cases done
      · rename_i small
        rw [if_neg small]
        exact done
  · split at done
    · rename_i plain
      rw [if_pos plain]
      exact done
    · rename_i plain
      rw [if_neg plain]
      exact realNumber_other done other

theorem local_readNumber (w : List Char) : Local readNumber w := by
  intro rest number after stops done
  obtain ⟨⟨spelling, tail⟩, spelt, done⟩ := bind_eq_ok done
  obtain ⟨value, valued, done⟩ := bind_eq_ok done
  cases done
  obtain ⟨used, left, split, end_, again⟩ := local_readSpelling _ w rest spelling _ stops spelt
  refine ⟨used, left, split, end_, fun other otherStops => ?_⟩
  rw [readNumber, again other otherStops]
  dsimp only [bind, Except.bind]
  rw [Spelling.value_other valued]

/-! ## Strings -/

/-- Part of a string: cutting a text that starts with it keeps it whole. -/
def Inner (used : List Char) : Prop :=
  ∀ rest, splitString (used ++ rest) =
    (splitString rest).map fun (inside, after) => (used ++ inside, after)

theorem inner_nil : Inner [] := by
  intro rest
  simp

theorem inner_plain {c : Char} (notQuote : c ≠ '"') (notSlash : c ≠ '\\') : Inner [c] :=
  splitString_plain notQuote notSlash

theorem inner_escaped (c : Char) : Inner ['\\', c] := splitString_escaped c

theorem Inner.append {used more : List Char} (first : Inner used) (second : Inner more) :
    Inner (used ++ more) := by
  intro rest
  rw [List.append_assoc, first, second, Option.map_map]
  simp only [Function.comp_def, List.append_assoc]

theorem Inner.splitString_eq {inside : List Char} (inner : Inner inside) (rest : List Char) :
    splitString (inside ++ '"' :: rest) = some (inside, rest) := by
  simp [inner ('"' :: rest), splitString_quote]

/-- Reading takes part of a string and does not depend on what follows it. -/
def Takes {α : Type} (read : List Char → Parse α) (used : List Char) (a : α) : Prop :=
  ∀ rest, read (used ++ rest) = .ok (a, rest)

theorem inner_of_hexValue? {c : Char} {n : Nat} (hex : hexValue? c = some n) : Inner [c] := by
  apply inner_plain <;> rintro rfl <;> cases hex

theorem takes_of_hexWord {s rest : List Char} {n : Nat} (done : hexWord s = .ok (n, rest)) :
    ∃ used, s = used ++ rest ∧ Inner used ∧ Takes hexWord used n := by
  unfold hexWord at done
  split at done
  · rename_i found word
    cases done
    unfold hexWord? at word
    split at word
    · rename_i a b c d tail
      split at word
      · rename_i hexA hexB hexC hexD
        cases word
        refine ⟨[a, b, c, d], rfl, ?_, fun other => ?_⟩
        · exact (inner_of_hexValue? hexA).append ((inner_of_hexValue? hexB).append
            ((inner_of_hexValue? hexC).append (inner_of_hexValue? hexD)))
        · simp [hexWord, hexWord?, hexA, hexB, hexC, hexD]
      · cases word
    · cases word
  · cases done

theorem eq_cons_of_pairChar {c : Char} {s rest : List Char} (done : pairChar c s = .ok rest) :
    s = c :: rest := by
  cases s with
  | nil => cases done
  | cons d tail =>
    rw [pairChar] at done
    split at done
    · rename_i same
      cases done
      rw [same]
    · cases done

theorem pairChar_cons (c : Char) (rest : List Char) : pairChar c (c :: rest) = .ok rest :=
  if_pos rfl

theorem takes_of_trailingHalf {s rest : List Char} {n : Nat}
    (done : trailingHalf s = .ok (n, rest)) :
    ∃ used, s = used ++ rest ∧ Inner used ∧ Takes trailingHalf used n := by
  obtain ⟨afterSlash, slash, done⟩ := bind_eq_ok done
  obtain ⟨afterLetter, letter, done⟩ := bind_eq_ok done
  obtain ⟨⟨m, afterDigits⟩, digits, done⟩ := bind_eq_ok done
  dsimp only at done
  split at done
  · rename_i trailing
    cases done
    obtain ⟨used, rfl, inner, takes⟩ := takes_of_hexWord digits
    refine ⟨'\\' :: 'u' :: used, ?_, (inner_escaped 'u').append inner, fun other => ?_⟩
    · rw [eq_cons_of_pairChar slash, eq_cons_of_pairChar letter]
      rfl
    · simp only [trailingHalf, List.cons_append, pairChar_cons, takes other, bind, Except.bind,
        if_pos trailing]
  · cases done

theorem takes_of_numericEscape {strict : Bool} {s rest : List Char} {c : Char}
    (done : numericEscape strict s = .ok (c, rest)) :
    ∃ used, s = used ++ rest ∧ Inner used ∧ Takes (numericEscape strict) used c := by
  obtain ⟨⟨n, afterDigits⟩, digits, judged⟩ := bind_eq_ok done
  obtain ⟨used, rfl, inner, takes⟩ := takes_of_hexWord digits
  dsimp only at judged
  split at judged
  · rename_i lenient
    cases judged
    refine ⟨used, rfl, inner, fun other => ?_⟩
    simp only [numericEscape, takes other, bind, Except.bind, if_pos lenient]
  rename_i checked
  split at judged
  · cases judged
  rename_i notTrailing
  split at judged
  · rename_i leading
    obtain ⟨⟨m, afterHalf⟩, half, joined⟩ := bind_eq_ok judged
    obtain ⟨same, rfl⟩ := Prod.mk.inj (Except.ok.inj joined)
    obtain ⟨more, rfl, innerMore, takesMore⟩ := takes_of_trailingHalf half
    refine ⟨used ++ more, by rw [List.append_assoc], inner.append innerMore, fun other => ?_⟩
    rw [List.append_assoc, numericEscape, takes (more ++ other)]
    simp only [bind, Except.bind, if_neg checked, if_neg notTrailing, if_pos leading,
      takesMore other, same]
  · rename_i notLeading
    cases judged
    refine ⟨used, rfl, inner, fun other => ?_⟩
    simp only [numericEscape, takes other, bind, Except.bind, if_neg checked, if_neg notTrailing,
      if_neg notLeading]

theorem takes_of_readEscape {strict : Bool} {s rest : List Char} {c : Char}
    (done : readEscape strict s = .ok (c, rest)) :
    ∃ used, s = used ++ rest ∧ Inner ('\\' :: used) ∧ Takes (readEscape strict) used c := by
  cases s with
  | nil => cases done
  | cons d tail =>
    rw [readEscape] at done
    split at done
    · rename_i simple
      cases done
      refine ⟨[d], rfl, inner_escaped d, fun other => ?_⟩
      simp only [List.cons_append, List.nil_append, readEscape, simple]
    · rename_i numeric
      split at done
      · rename_i letter
        subst letter
        obtain ⟨used, rfl, inner, takes⟩ := takes_of_numericEscape done
        refine ⟨'u' :: used, rfl, (inner_escaped 'u').append inner, fun other => ?_⟩
        rw [List.cons_append, readEscape, numeric]
        exact takes other
      · cases done

theorem readChars_escape {strict : Bool} {rest after : List Char} {c : Char}
    (escape : readEscape strict rest = .ok (c, after)) :
    readChars strict ('\\' :: rest) =
      (readChars strict after).map fun (chars, rest) => (c :: chars, rest) := by
  rw [readChars, if_neg (by decide), if_pos rfl]
  split
  · rename_i fault
    rw [escape] at fault
    cases fault
  · rename_i again
    rw [escape] at again
    cases again
    rfl

theorem takes_of_readChars {strict : Bool} {s rest chars : List Char}
    (done : readChars strict s = .ok (chars, rest)) :
    ∃ inside, s = inside ++ '"' :: rest ∧ Inner inside ∧
      ∀ other, readChars strict (inside ++ '"' :: other) = .ok (chars, other) := by
  fun_induction readChars strict s generalizing chars rest with
  | case1 | case3 | case5 => cases done
  | case2 tail =>
    cases done
    refine ⟨[], rfl, inner_nil, fun other => ?_⟩
    rw [List.nil_append, readChars, if_pos rfl]
  | case4 tail escaped after escape _ ih =>
    obtain ⟨⟨others, final⟩, result, same⟩ := map_eq_ok done
    cases same
    obtain ⟨used, rfl, inner, takes⟩ := takes_of_readEscape escape
    obtain ⟨inside, rfl, innerInside, again⟩ := ih result
    refine ⟨'\\' :: used ++ inside, by simp, inner.append innerInside, fun other => ?_⟩
    rw [List.append_assoc, List.cons_append, readChars_escape (takes _), again other]
    rfl
  | case6 c tail notQuote notSlash visible ih =>
    obtain ⟨⟨others, final⟩, result, same⟩ := map_eq_ok done
    cases same
    obtain ⟨inside, rfl, inner, again⟩ := ih result
    refine ⟨c :: inside, rfl, (inner_plain notQuote notSlash).append inner, fun other => ?_⟩
    rw [List.cons_append, readChars, if_neg notQuote, if_neg notSlash, if_neg visible, again other]
    rfl

/-! ## Readers of one piece -/

theorem map_fst_eq_ok_iff {α β : Type} {parsed : Parse α} {f : α → β} {b : β} {after : List Char} :
    (parsed.map fun (a, rest) => (f a, rest)) = .ok (b, after) ↔
      ∃ a, parsed = .ok (a, after) ∧ f a = b := by
  constructor
  · intro done
    obtain ⟨⟨a, tail⟩, result, same⟩ := map_eq_ok done
    cases same
    exact ⟨a, result, rfl⟩
  · rintro ⟨a, rfl, rfl⟩
    rfl

structure Scalar {α : Type} (read : List Char → Parse α) : Prop where
  blank : ∀ s a after, read s = .ok (a, after) ↔ read (skipSpace s) = .ok (a, after)
  first : ∀ s a after, read s = .ok (a, after) →
    ∃ c rest, skipSpace s = c :: rest ∧ isMark c = false
  word : ∀ letters, IsRun letters → Local read letters
  string : ∀ raw a after, read ('"' :: raw) = .ok (a, after) →
    ∃ inside, raw = inside ++ '"' :: after ∧ Inner inside ∧
      ∀ other, read ('"' :: (inside ++ '"' :: other)) = .ok (a, other)

namespace Scalar

variable {α : Type} {read : List Char → Parse α}

/-- A piece that reads as a value does so in front of any other pieces. -/
theorem takes (scalar : Scalar read) {p : Piece} {s : List Char} {us : List Piece} {a : α}
    (value : read p.chars = .ok (a, [])) (split : pieces s = p :: us) :
    ∃ rest, read s = .ok (a, rest) ∧ pieces rest = us := by
  simp only [scalar.blank s]
  cases front s with
  | nil _ none =>
    rw [none] at split
    cases split
  | @mark c rest mark start found =>
    rw [found] at split
    cases split
    obtain ⟨d, tail, begins, other⟩ := scalar.first _ _ _ value
    rw [Piece.chars, skipSpace_cons (not_isSpace_of_isMark mark)] at begins
    rw [← (List.cons.inj begins).1, mark] at other
    cases other
  | @string inside rest _ start found =>
    rw [found] at split
    cases split
    obtain ⟨inner, same, -, again⟩ := scalar.string _ _ _ value
    rw [start, List.append_cancel_right same]
    exact ⟨rest, again rest, rfl⟩
  | @unclosed raw endless start found =>
    rw [found] at split
    cases split
    obtain ⟨inner, rfl, isInner, -⟩ := scalar.string _ _ _ value
    rw [isInner.splitString_eq] at endless
    cases endless
  | @word letters rest run stops start found =>
    rw [found] at split
    cases split
    rw [Piece.chars, ← List.append_nil letters] at value
    obtain ⟨used, left, -, none, again⟩ := scalar.word letters run _ _ _ stops_nil value
    rw [List.append_nil] at none
    rw [start, again rest stops, ← none]
    exact ⟨rest, rfl, rfl⟩

/-- What is read, if no letter is left over behind it, is the value of the first piece. -/
theorem gives (scalar : Scalar read) {s rest : List Char} {a : α} (done : read s = .ok (a, rest))
    (stops : Stops rest) :
    ∃ p, p.isScalar = true ∧ read p.chars = .ok (a, []) ∧ pieces s = p :: pieces rest := by
  obtain ⟨c, tail, begins, other⟩ := scalar.first s a rest done
  rw [scalar.blank s] at done
  cases front s with
  | nil start _ =>
    rw [start] at begins
    cases begins
  | mark mark start _ =>
    rw [start] at begins
    rw [(List.cons.inj begins).1, other] at mark
    cases mark
  | @string inside after cut start found =>
    rw [start] at done
    obtain ⟨inner, same, isInner, again⟩ := scalar.string _ _ _ done
    rw [same, isInner.splitString_eq] at cut
    obtain ⟨rfl, rfl⟩ := Prod.mk.inj (Option.some.inj cut)
    exact ⟨.string inner, rfl, again [], found⟩
  | @unclosed raw endless start _ =>
    rw [start] at done
    obtain ⟨inner, rfl, isInner, -⟩ := scalar.string _ _ _ done
    rw [isInner.splitString_eq] at endless
    cases endless
  | @word letters after run afterStops start found =>
    rw [start] at done
    obtain ⟨used, left, split, end_, again⟩ := scalar.word letters run after a rest afterStops done
    -- A letter left over would stand in front of the rest.
    have none : left = [] := by
      cases left with
      | nil => rfl
      | cons d left =>
        have letter := run.letters d (by simp [split])
        rw [stops d (left ++ after) end_] at letter
        cases letter
    subst none
    have whole := again [] stops_nil
    rw [List.append_nil] at whole
    exact ⟨.word letters, rfl, whole, by rw [found, end_, List.nil_append]⟩

/-- A second reader that gives something exactly where the first does, and from what it gives. -/
theorem of_iff {β : Type} {other : List Char → Parse β} {gives : α → β → Prop}
    (same : ∀ s b after, other s = .ok (b, after) ↔ ∃ a, read s = .ok (a, after) ∧ gives a b)
    (scalar : Scalar read) : Scalar other := by
  refine ⟨fun s b after => ?_, fun s b after done => ?_,
    fun letters run rest b after stops done => ?_, fun raw b after done => ?_⟩
  · simp only [same, scalar.blank s]
  · obtain ⟨a, result, -⟩ := (same s b after).1 done
    exact scalar.first s a after result
  · obtain ⟨a, result, given⟩ := (same _ b after).1 done
    obtain ⟨used, left, split, end_, again⟩ := scalar.word letters run rest a after stops result
    exact ⟨used, left, split, end_, fun more moreStops =>
      (same _ b _).2 ⟨a, again more moreStops, given⟩⟩
  · obtain ⟨a, result, given⟩ := (same _ b after).1 done
    obtain ⟨inside, split, inner, again⟩ := scalar.string raw a after result
    exact ⟨inside, split, inner, fun more => (same _ b more).2 ⟨a, again more, given⟩⟩

end Scalar

/-- A reader that reads words only. -/
theorem scalar_of_words {α : Type} {read : List Char → Parse α}
    (blank : ∀ s, read s = read (skipSpace s))
    (first : ∀ s a after, read s = .ok (a, after) →
      ∃ c rest, skipSpace s = c :: rest ∧ isLetter c = true)
    (word : ∀ letters, IsRun letters → Local read letters) : Scalar read := by
  refine ⟨fun s a after => by rw [blank s], fun s a after done => ?_, word,
    fun raw a after done => ?_⟩
  · obtain ⟨c, rest, start, letter⟩ := first s a after done
    exact ⟨c, rest, start, not_isMark_of_isLetter letter⟩
  · obtain ⟨c, rest, start, letter⟩ := first _ a after done
    rw [skipSpace_cons (by decide)] at start
    rw [← (List.cons.inj start).1] at letter
    cases letter

/-! ## Truth values -/

/-- Reading a fixed word from its second letter on. -/
theorem local_keyword {α : Type} {read : List Char → Parse α} {word : List Char} {a : α} {c : Char}
    {w : List Char} (letters : word.all isLetter = true)
    (reads : ∀ other, read (c :: w ++ other) =
      (readWord word (w ++ other)).map fun rest => (a, rest)) : Local read (c :: w) := by
  intro rest b after stops done
  rw [reads rest] at done
  obtain ⟨_, result, same⟩ := map_eq_ok done
  cases same
  obtain ⟨used, left, split, end_, again⟩ :=
    local_readWord _ w rest after stops (List.all_eq_true.1 letters) result
  refine ⟨c :: used, left, by rw [split]; rfl, end_, fun other otherStops => ?_⟩
  rw [reads other, again other otherStops]
  rfl

theorem readBool_true {s rest : List Char} (start : skipSpace s = 't' :: rest) :
    readBool s = (readWord "rue".toList rest).map fun rest => (true, rest) := by
  rw [readBool, start]
  rfl

theorem readBool_false {s rest : List Char} (start : skipSpace s = 'f' :: rest) :
    readBool s = (readWord "alse".toList rest).map fun rest => (false, rest) := by
  rw [readBool, start]
  rfl

theorem first_of_readBool {s after : List Char} {b : Bool} (done : readBool s = .ok (b, after)) :
    ∃ rest, skipSpace s = 't' :: rest ∨ skipSpace s = 'f' :: rest := by
  rw [readBool] at done
  split at done
  · rename_i rest start
    exact ⟨rest, .inl start⟩
  · rename_i rest start
    exact ⟨rest, .inr start⟩
  · cases done

theorem scalar_readBool : Scalar readBool := by
  apply scalar_of_words
  · intro s
    rw [readBool, readBool, skipSpace_skipSpace]
  · intro s b after done
    obtain ⟨rest, start | start⟩ := first_of_readBool done
    · exact ⟨'t', rest, start, by decide⟩
    · exact ⟨'f', rest, start, by decide⟩
  · intro letters run rest b after stops done
    obtain ⟨tail, start⟩ := first_of_readBool done
    rw [skipSpace_run run] at start
    have plain : ∀ other, skipSpace (letters ++ other) = letters ++ other :=
      fun other => skipSpace_run run
    cases letters with
    | nil => exact absurd rfl run.nonempty
    | cons c w =>
      rcases start with start | start <;> obtain ⟨rfl, -⟩ := List.cons.inj start
      · exact local_keyword (by decide) (fun other => readBool_true (plain other)) rest b after
          stops done
      · exact local_keyword (by decide) (fun other => readBool_false (plain other)) rest b after
          stops done

/-! ## Numbers of either kind -/

theorem isLetter_minus_or_digit {c : Char} (numeric : c = '-' ∨ c.isDigit = true) :
    isLetter c = true := by
  rcases numeric with rfl | digit
  · rfl
  · exact isLetter_of_isDigit digit

theorem readAnyNumber_eq {expected : String} {s rest : List Char} {c : Char}
    (start : skipSpace s = c :: rest) (numeric : c = '-' ∨ c.isDigit = true) :
    readAnyNumber expected s = readNumber (c :: rest) := by
  rw [readAnyNumber, start]
  exact if_pos numeric

theorem first_of_readAnyNumber {expected : String} {s after : List Char} {number : Number}
    (done : readAnyNumber expected s = .ok (number, after)) :
    ∃ c rest, skipSpace s = c :: rest ∧ (c = '-' ∨ c.isDigit = true) := by
  rw [readAnyNumber] at done
  split at done
  · cases done
  · rename_i c rest start
    split at done
    · rename_i numeric
      exact ⟨c, rest, start, numeric⟩
    · cases done

theorem local_readAnyNumber (expected : String) {letters : List Char} (run : IsRun letters) :
    Local (readAnyNumber expected) letters := by
  intro rest number after stops done
  obtain ⟨c, tail, start, numeric⟩ := first_of_readAnyNumber done
  rw [skipSpace_run run] at start
  cases letters with
  | nil => exact absurd rfl run.nonempty
  | cons d w =>
    obtain ⟨rfl, -⟩ := List.cons.inj start
    have reads : ∀ other, readAnyNumber expected (d :: w ++ other) = readNumber (d :: w ++ other) :=
      fun other => readAnyNumber_eq (skipSpace_run run) numeric
    rw [reads rest] at done
    obtain ⟨used, left, split, end_, again⟩ :=
      local_readNumber (d :: w) rest number after stops done
    exact ⟨used, left, split, end_, fun other otherStops => by
      rw [reads other, again other otherStops]⟩

theorem scalar_readAnyNumber (expected : String) : Scalar (readAnyNumber expected) := by
  apply scalar_of_words
  · intro s
    rw [readAnyNumber, readAnyNumber, skipSpace_skipSpace]
  · intro s number after done
    obtain ⟨c, rest, start, numeric⟩ := first_of_readAnyNumber done
    exact ⟨c, rest, start, isLetter_minus_or_digit numeric⟩
  · exact fun letters run => local_readAnyNumber expected run

theorem scalar_readBinary64 : Scalar readBinary64 :=
  .of_iff (fun _ _ _ => map_fst_eq_ok_iff) (scalar_readAnyNumber "f64")

theorem readInt64_eq_ok_iff {s after : List Char} {i : Int64} :
    readInt64 s = .ok (i, after) ↔
      ∃ number, readAnyNumber "i64" s = .ok (number, after) ∧
        ∃ value, number = .integer value ∧ value ≤ Int64.maxValue.toInt ∧
          Int64.ofInt value = i := by
  constructor
  · intro done
    obtain ⟨⟨number, tail⟩, result, done⟩ := bind_eq_ok done
    cases number with
    | real value => cases done
    | integer value =>
      dsimp only at done
      split at done
      · rename_i fits
        cases done
        exact ⟨_, result, value, rfl, fits, rfl⟩
      · cases done
  · rintro ⟨_, result, value, rfl, fits, rfl⟩
    rw [readInt64, result]
    exact if_pos fits

theorem scalar_readInt64 : Scalar readInt64 :=
  .of_iff (fun _ _ _ => readInt64_eq_ok_iff) (scalar_readAnyNumber "i64")

/-! ## Strings and `null` -/

theorem readText_quote {s rest : List Char} (start : skipSpace s = '"' :: rest) :
    readText s = readString rest := by
  rw [readText, start]
  rfl

theorem first_of_readText {s after : List Char} {text : String}
    (done : readText s = .ok (text, after)) : ∃ rest, skipSpace s = '"' :: rest := by
  rw [readText] at done
  split at done
  · rename_i rest start
    exact ⟨rest, start⟩
  · cases done

/-- A string is read up to the quote that closes it. -/
theorem string_readString {read : List Char → Parse String}
    (reads : ∀ raw, read ('"' :: raw) = readString raw) (raw : List Char) (text : String)
    (after : List Char) (done : read ('"' :: raw) = .ok (text, after)) :
    ∃ inside, raw = inside ++ '"' :: after ∧ Inner inside ∧
      ∀ other, read ('"' :: (inside ++ '"' :: other)) = .ok (text, other) := by
  rw [reads] at done
  obtain ⟨chars, result, rfl⟩ := map_fst_eq_ok_iff.1 done
  obtain ⟨inside, split, inner, again⟩ := takes_of_readChars result
  refine ⟨inside, split, inner, fun other => ?_⟩
  rw [reads, readString, again other]
  rfl

theorem scalar_readText : Scalar readText := by
  refine ⟨fun s text after => ?_, fun s text after done => ?_,
    fun letters run rest text after stops done => ?_,
    string_readString fun raw => readText_quote (skipSpace_cons (by decide))⟩
  · rw [readText, readText, skipSpace_skipSpace]
  · obtain ⟨rest, start⟩ := first_of_readText done
    exact ⟨'"', rest, start, by decide⟩
  · obtain ⟨tail, start⟩ := first_of_readText done
    rw [skipSpace_run run] at start
    cases letters with
    | nil => exact absurd rfl run.nonempty
    | cons c w =>
      have letter := run.letters c (by simp)
      exact absurd (List.cons.inj start).1 (ne_quote_of_isLetter letter)

theorem readTextOrNull_null {s rest : List Char} (start : skipSpace s = 'n' :: rest) :
    readTextOrNull s = (readWord "ull".toList rest).map fun rest => (none, rest) := by
  rw [readTextOrNull, start]
  rfl

theorem readTextOrNull_text {s : List Char} (other : ∀ rest, skipSpace s ≠ 'n' :: rest) :
    readTextOrNull s = (readText (skipSpace s)).map fun (text, rest) => (some text, rest) := by
  rw [readTextOrNull]
  split
  · rename_i start
    exact absurd start (other _)
  · rfl

theorem scalar_readTextOrNull : Scalar readTextOrNull := by
  have text : ∀ {s : List Char} {value : Option String} {after : List Char},
      (∀ rest, skipSpace s ≠ 'n' :: rest) → readTextOrNull s = .ok (value, after) →
        ∃ text rest, readText s = .ok (text, after) ∧ some text = value ∧
          skipSpace s = '"' :: rest := by
    intro s value after other done
    rw [readTextOrNull_text other] at done
    obtain ⟨text, result, rfl⟩ := map_fst_eq_ok_iff.1 done
    rw [← scalar_readText.blank] at result
    obtain ⟨rest, start⟩ := first_of_readText result
    exact ⟨text, rest, result, rfl, start⟩
  refine ⟨fun s value after => ?_, fun s value after done => ?_,
    fun letters run rest value after stops done => ?_, fun raw value after done => ?_⟩
  · rw [readTextOrNull, readTextOrNull, skipSpace_skipSpace]
  · by_cases null : ∃ rest, skipSpace s = 'n' :: rest
    · obtain ⟨rest, start⟩ := null
      exact ⟨'n', rest, start, by decide⟩
    · obtain ⟨_, rest, -, -, start⟩ := text (fun rest start => null ⟨rest, start⟩) done
      exact ⟨'"', rest, start, by decide⟩
  · have plain : ∀ other, skipSpace (letters ++ other) = letters ++ other :=
      fun other => skipSpace_run run
    cases letters with
    | nil => exact absurd rfl run.nonempty
    | cons c w =>
      by_cases null : c = 'n'
      · subst null
        exact local_keyword (by decide) (fun other => readTextOrNull_null (plain other)) rest value
          after stops done
      · have other : ∀ tail, skipSpace (c :: w ++ rest) ≠ 'n' :: tail := by
          intro tail start
          rw [plain rest] at start
          exact null (List.cons.inj start).1
        obtain ⟨_, tail, -, -, start⟩ := text other done
        rw [plain rest] at start
        exact absurd (List.cons.inj start).1 (ne_quote_of_isLetter (run.letters c (by simp)))
  · have start : ∀ rest, skipSpace ('"' :: rest) = '"' :: rest :=
      fun rest => skipSpace_cons (by decide)
    have other : ∀ rest tail, skipSpace ('"' :: rest) ≠ 'n' :: tail := by
      intro rest tail same
      rw [start] at same
      exact absurd (List.cons.inj same).1 (by decide)
    obtain ⟨_, _, result, rfl, -⟩ := text (other raw) done
    obtain ⟨inside, split, inner, again⟩ := scalar_readText.string _ _ _ result
    refine ⟨inside, split, inner, fun more => ?_⟩
    rw [readTextOrNull_text (other _), start, again more]
    rfl

/-! ## Skipping one piece -/

def skipPiece (s : List Char) : Parse Unit :=
  (skipScalar (skipSpace s)).map fun rest => ((), rest)

theorem skipPiece_eq_ok_iff {s after : List Char} :
    skipPiece s = .ok ((), after) ↔ skipScalar (skipSpace s) = .ok after := by
  constructor
  · intro done
    obtain ⟨_, result, same⟩ := map_eq_ok done
    cases same
    exact result
  · intro result
    rw [skipPiece, result]
    rfl

theorem first_of_skipScalar {s after : List Char} (done : skipScalar s = .ok after) :
    ∃ c rest, s = c :: rest ∧ (isLetter c = true ∨ c = '"') := by
  cases s with
  | nil => cases done
  | cons c rest =>
    refine ⟨c, rest, rfl, ?_⟩
    rw [skipScalar] at done
    split at done
    · rename_i letter; subst letter; exact .inl (by decide)
    split at done
    · rename_i letter; subst letter; exact .inl (by decide)
    split at done
    · rename_i letter; subst letter; exact .inl (by decide)
    split at done
    · rename_i quote; exact .inr quote
    split at done
    · rename_i numeric; exact .inl (isLetter_minus_or_digit numeric)
    · cases done

theorem skipScalar_quote (rest : List Char) :
    skipScalar ('"' :: rest) = (readChars false rest).map Prod.snd := by
  rw [skipScalar, if_neg (by decide), if_neg (by decide), if_neg (by decide), if_pos rfl]

theorem local_skipPiece {letters : List Char} (run : IsRun letters) : Local skipPiece letters := by
  have plain : ∀ other, skipSpace (letters ++ other) = letters ++ other :=
    fun other => skipSpace_run run
  cases letters with
  | nil => exact absurd rfl run.nonempty
  | cons c w =>
    have reads : ∀ other, skipPiece (c :: w ++ other) =
        (skipScalar (c :: (w ++ other))).map fun rest => ((), rest) := by
      intro other
      rw [skipPiece, plain other]
      rfl
    simp only [skipScalar] at reads
    intro rest a after stops done
    split at reads
    · exact local_keyword (by decide) reads rest a after stops done
    split at reads
    · exact local_keyword (by decide) reads rest a after stops done
    split at reads
    · exact local_keyword (by decide) reads rest a after stops done
    split at reads
    · rename_i quote
      exact absurd quote (ne_quote_of_isLetter (run.letters c (by simp)))
    split at reads
    · rw [reads rest] at done
      obtain ⟨_, result, same⟩ := map_eq_ok done
      cases same
      obtain ⟨⟨spelling, tail⟩, spelt, rfl⟩ := map_eq_ok result
      obtain ⟨used, left, split, end_, again⟩ :=
        local_readSpelling _ (c :: w) rest spelling _ stops spelt
      refine ⟨used, left, split, end_, fun other otherStops => ?_⟩
      have spelt := again other otherStops
      rw [List.cons_append] at spelt
      rw [reads other, spelt]
      rfl
    · rw [reads rest] at done
      cases done

theorem scalar_skipPiece : Scalar skipPiece := by
  refine ⟨fun s a after => ?_, fun s a after done => ?_, fun letters run => local_skipPiece run,
    fun raw a after done => ?_⟩
  · rw [skipPiece, skipPiece, skipSpace_skipSpace]
  · obtain ⟨c, rest, start, first⟩ := first_of_skipScalar (skipPiece_eq_ok_iff.1 done)
    refine ⟨c, rest, start, ?_⟩
    rcases first with letter | rfl
    · exact not_isMark_of_isLetter letter
    · decide
  · rw [skipPiece_eq_ok_iff, skipSpace_cons (by decide), skipScalar_quote] at done
    obtain ⟨⟨chars, tail⟩, result, rfl⟩ := map_eq_ok done
    obtain ⟨inside, split, inner, again⟩ := takes_of_readChars result
    refine ⟨inside, split, inner, fun other => ?_⟩
    rw [skipPiece_eq_ok_iff, skipSpace_cons (by decide), skipScalar_quote, again other]
    rfl

end CodeRows.Json
