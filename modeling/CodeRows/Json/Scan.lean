import CodeRows.Json.Fault

/-! # JSON words, strings and number spellings

Readers for the parts of a JSON text that have no structure of their own.  A part that is only
skipped is read more leniently than one whose value is needed: surrogate escapes need not pair
up, and numbers have no range. -/

set_option autoImplicit false

namespace CodeRows.Json

def isSpace (c : Char) : Bool := c == ' ' || c == '\n' || c == '\t' || c == '\r'

def skipSpace (s : List Char) : List Char := s.dropWhile isSpace

theorem length_skipSpace_le (s : List Char) : (skipSpace s).length ≤ s.length :=
  (List.dropWhile_sublist isSpace).length_le

def readWord : List Char → List Char → Except Fault (List Char)
  | [], s => .ok s
  | _ :: _, [] => .error (.placed .endInValue 0)
  | c :: word, d :: rest => if c = d then readWord word rest else .error (faultIn .badWord (d :: rest))

theorem length_readWord_le (word s : List Char) {rest : List Char}
    (done : readWord word s = .ok rest) : rest.length ≤ s.length := by
  fun_induction readWord word s with
  | case1 => cases done; exact Nat.le_refl _
  | case2 => cases done
  | case3 _ _ _ ih => exact Nat.le_succ_of_le (ih done)
  | case4 => cases done

/-! ## Strings -/

def simpleEscape? : Char → Option Char
  | '"' => some '"'
  | '\\' => some '\\'
  | '/' => some '/'
  | 'b' => some '\x08'
  | 'f' => some '\x0c'
  | 'n' => some '\n'
  | 'r' => some '\r'
  | 't' => some '\t'
  | _ => none

def hexValue? (c : Char) : Option Nat :=
  if '0' ≤ c ∧ c ≤ '9' then some (c.toNat - '0'.toNat)
  else if 'a' ≤ c ∧ c ≤ 'f' then some (c.toNat - 'a'.toNat + 10)
  else if 'A' ≤ c ∧ c ≤ 'F' then some (c.toNat - 'A'.toNat + 10)
  else none

def hexWord? : List Char → Option (Nat × List Char)
  | a :: b :: c :: d :: rest =>
    match hexValue? a, hexValue? b, hexValue? c, hexValue? d with
    | some a, some b, some c, some d => some (((a * 16 + b) * 16 + c) * 16 + d, rest)
    | _, _, _, _ => none
  | _ => none

/-- Read four hexadecimal digits.  Four bytes are looked at before any is judged. -/
def hexWord (s : List Char) : Parse Nat :=
  match hexWord? s with
  | some found => .ok found
  | none => .error (.placed (if byteSize s < 4 then .endInString else .badEscape) (byteSize s - 4))

def isLeadingSurrogate (n : Nat) : Bool := 0xd800 ≤ n && n ≤ 0xdbff

def isTrailingSurrogate (n : Nat) : Bool := 0xdc00 ≤ n && n ≤ 0xdfff

/-- Read one character that a surrogate pair must have here. -/
def pairChar (c : Char) : List Char → Except Fault (List Char)
  | [] => .error (.placed .endInString 0)
  | d :: rest => if d = c then .ok rest else .error (faultIn .brokenPair (d :: rest))

def trailingHalf (s : List Char) : Except Fault (Nat × List Char) := do
  let rest ← pairChar '\\' s
  let rest ← pairChar 'u' rest
  let (n, rest) ← hexWord rest
  if isTrailingSurrogate n then .ok (n, rest) else .error (faultAt .loneSurrogate rest)

def numericEscape (strict : Bool) (s : List Char) : Except Fault (Char × List Char) := do
  let (n, rest) ← hexWord s
  if !strict then .ok (Char.ofNat n, rest)
  else if isTrailingSurrogate n then .error (faultAt .loneSurrogate rest)
  else if isLeadingSurrogate n then
    let (m, rest) ← trailingHalf rest
    .ok (Char.ofNat (0x10000 + (n - 0xd800) * 0x400 + (m - 0xdc00)), rest)
  else .ok (Char.ofNat n, rest)

def readEscape (strict : Bool) : List Char → Parse Char
  | [] => .error (.placed .endInString 0)
  | c :: rest =>
    match simpleEscape? c with
    | some escaped => .ok (escaped, rest)
    | none => if c = 'u' then numericEscape strict rest else .error (faultIn .badEscape (c :: rest))

theorem length_hexWord_lt {s rest : List Char} {n : Nat} (done : hexWord s = .ok (n, rest)) :
    rest.length < s.length := by
  unfold hexWord at done
  split at done
  · rename_i found same
    unfold hexWord? at same
    split at same
    · split at same <;> cases same
      cases done
      simp only [List.length_cons]
      omega
    · cases same
  · cases done

theorem length_pairChar_lt {c : Char} {s rest : List Char} (done : pairChar c s = .ok rest) :
    rest.length < s.length := by
  cases s with
  | nil => cases done
  | cons d tail =>
    rw [pairChar] at done
    split at done <;> cases done
    exact Nat.lt_succ_self _

theorem length_trailingHalf_lt {s rest : List Char} {n : Nat}
    (done : trailingHalf s = .ok (n, rest)) : rest.length < s.length := by
  obtain ⟨afterSlash, slash, done⟩ := bind_eq_ok done
  obtain ⟨afterLetter, letter, done⟩ := bind_eq_ok done
  obtain ⟨⟨m, afterDigits⟩, digits, done⟩ := bind_eq_ok done
  have first := length_pairChar_lt slash
  have second := length_pairChar_lt letter
  have third := length_hexWord_lt digits
  dsimp only at done
  split at done <;> cases done
  omega

theorem length_numericEscape_lt {strict : Bool} {s rest : List Char} {c : Char}
    (done : numericEscape strict s = .ok (c, rest)) : rest.length < s.length := by
  obtain ⟨⟨n, afterDigits⟩, digits, done⟩ := bind_eq_ok done
  have first := length_hexWord_lt digits
  dsimp only at done
  split at done
  · cases done; exact first
  split at done
  · cases done
  split at done
  · obtain ⟨⟨m, afterHalf⟩, half, done⟩ := bind_eq_ok done
    have second := length_trailingHalf_lt half
    have same : afterHalf = rest := congrArg Prod.snd (Except.ok.inj done)
    rw [← same]
    exact Nat.lt_trans second first
  · cases done; exact first

theorem length_readEscape_lt {strict : Bool} {s rest : List Char} {c : Char}
    (done : readEscape strict s = .ok (c, rest)) : rest.length < s.length := by
  cases s with
  | nil => cases done
  | cons d tail =>
    rw [readEscape] at done
    split at done
    · cases done; exact Nat.lt_succ_self _
    · split at done
      · exact Nat.lt_succ_of_lt (length_numericEscape_lt done)
      · cases done

def readChars (strict : Bool) (s : List Char) : Parse (List Char) :=
  match s with
  | [] => .error (.placed .endInString 0)
  | c :: rest =>
    if c = '"' then .ok ([], rest)
    else if c = '\\' then
      match _escape : readEscape strict rest with
      | .error fault => .error fault
      | .ok (escaped, rest) => (readChars strict rest).map fun (chars, rest) => (escaped :: chars, rest)
    else if c.toNat < 0x20 then
      .error (if strict then faultIn .controlCharacter (c :: rest)
        else faultAt .controlCharacter (c :: rest))
    else (readChars strict rest).map fun (chars, rest) => (c :: chars, rest)
termination_by s.length
decreasing_by
  · exact Nat.lt_succ_of_lt (length_readEscape_lt _escape)
  · exact Nat.lt_succ_self _

theorem length_readChars_lt {strict : Bool} {s rest chars : List Char}
    (done : readChars strict s = .ok (chars, rest)) : rest.length < s.length := by
  fun_induction readChars strict s generalizing chars rest with
  | case1 => cases done
  | case2 => cases done; exact Nat.lt_succ_self _
  | case3 => cases done
  | case4 tail escaped after escape _ ih =>
    obtain ⟨pair, result, same⟩ := map_eq_ok done
    cases same
    have shorter := length_readEscape_lt escape
    have tailShorter := ih result
    simp only [List.length_cons]
    omega
  | case5 => cases done
  | case6 c tail _ _ _ ih =>
    obtain ⟨pair, result, same⟩ := map_eq_ok done
    cases same
    exact Nat.lt_succ_of_lt (ih result)

def readString (s : List Char) : Parse String :=
  (readChars true s).map fun (chars, rest) => (String.ofList chars, rest)

theorem length_readString_lt {s rest : List Char} {text : String}
    (done : readString s = .ok (text, rest)) : rest.length < s.length := by
  obtain ⟨pair, result, same⟩ := map_eq_ok done
  cases same
  exact length_readChars_lt result

/-! ## Number spellings -/

structure Spelling where
  negative : Bool
  whole : List Char
  fraction : Option (List Char)
  /-- Whether the exponent is positive, and its digits. -/
  exponent : Option (Bool × List Char)
deriving DecidableEq

def readDigits (atEnd : Cause) (s : List Char) : Parse (List Char) :=
  match s with
  | [] => .error (.placed atEnd 0)
  | c :: _ =>
    if c.isDigit then .ok (s.takeWhile Char.isDigit, s.dropWhile Char.isDigit)
    else .error (faultIn .badNumber s)

/-- The digits before the point: no zero in front of another digit. -/
def readWhole (atEnd : Cause) (s : List Char) : Parse (List Char) :=
  match s with
  | '0' :: rest =>
    match rest with
    | c :: _ => if c.isDigit then .error (faultIn .badNumber rest) else .ok (['0'], rest)
    | [] => .ok (['0'], rest)
  | _ => readDigits atEnd s

def readFraction (atEnd : Cause) (s : List Char) : Parse (Option (List Char)) :=
  match s with
  | '.' :: rest => (readDigits atEnd rest).map fun (digits, rest) => (some digits, rest)
  | _ => .ok (none, s)

/-- The sign of an exponent, plus if none is given. -/
def readSign : List Char → Bool × List Char
  | '+' :: rest => (true, rest)
  | '-' :: rest => (false, rest)
  | s => (true, s)

def readExponent (atEnd : Cause) (s : List Char) : Parse (Option (Bool × List Char)) :=
  match s with
  | c :: rest =>
    if c = 'e' ∨ c = 'E' then
      (readDigits atEnd (readSign rest).2).map fun (digits, after) =>
        (some ((readSign rest).1, digits), after)
    else .ok (none, s)
  | [] => .ok (none, s)

def readMinus : List Char → Bool × List Char
  | '-' :: rest => (true, rest)
  | s => (false, s)

/-- Read the spelling of a number; `atEnd` is the cause given when the text ends too early. -/
def readSpelling (atEnd : Cause) (s : List Char) : Except Fault (Spelling × List Char) := do
  let (whole, rest) ← readWhole atEnd (readMinus s).2
  let (fraction, rest) ← readFraction atEnd rest
  let (exponent, rest) ← readExponent atEnd rest
  .ok (⟨(readMinus s).1, whole, fraction, exponent⟩, rest)

theorem length_readDigits_lt {atEnd : Cause} {s rest digits : List Char}
    (done : readDigits atEnd s = .ok (digits, rest)) : rest.length < s.length := by
  cases s with
  | nil => cases done
  | cons c tail =>
    rw [readDigits] at done
    split at done
    · rename_i digit
      cases done
      rw [List.dropWhile_cons_of_pos digit]
      exact Nat.lt_succ_of_le (List.dropWhile_sublist Char.isDigit).length_le
    · cases done

theorem length_readWhole_lt {atEnd : Cause} {s rest digits : List Char}
    (done : readWhole atEnd s = .ok (digits, rest)) : rest.length < s.length := by
  unfold readWhole at done
  split at done
  · split at done
    · split at done <;> cases done
      exact Nat.lt_succ_self _
    · cases done; exact Nat.lt_succ_self _
  · exact length_readDigits_lt done

theorem length_readFraction_le {atEnd : Cause} {s rest : List Char} {fraction : Option (List Char)}
    (done : readFraction atEnd s = .ok (fraction, rest)) : rest.length ≤ s.length := by
  unfold readFraction at done
  split at done
  · rename_i tail
    obtain ⟨pair, result, same⟩ := map_eq_ok done
    cases same
    exact Nat.le_of_lt (Nat.lt_succ_of_lt (length_readDigits_lt result))
  · cases done; exact Nat.le_refl _

theorem length_readSign_le (s : List Char) : (readSign s).2.length ≤ s.length := by
  unfold readSign
  split <;> simp

theorem length_readMinus_le (s : List Char) : (readMinus s).2.length ≤ s.length := by
  unfold readMinus
  split <;> simp

theorem length_readExponent_le {atEnd : Cause} {s rest : List Char}
    {exponent : Option (Bool × List Char)} (done : readExponent atEnd s = .ok (exponent, rest)) :
    rest.length ≤ s.length := by
  unfold readExponent at done
  split at done
  · rename_i c tail
    split at done
    · obtain ⟨pair, result, same⟩ := map_eq_ok done
      cases same
      have shorter := length_readDigits_lt result
      have sign := length_readSign_le tail
      simp only [List.length_cons]
      omega
    · cases done; exact Nat.le_refl _
  · cases done; exact Nat.le_refl _

theorem length_readSpelling_lt {atEnd : Cause} {s rest : List Char} {spelling : Spelling}
    (done : readSpelling atEnd s = .ok (spelling, rest)) : rest.length < s.length := by
  obtain ⟨⟨whole, afterWhole⟩, wholeRead, done⟩ := bind_eq_ok done
  obtain ⟨⟨fraction, afterFraction⟩, fractionRead, done⟩ := bind_eq_ok done
  obtain ⟨⟨exponent, afterExponent⟩, exponentRead, done⟩ := bind_eq_ok done
  have minus := length_readMinus_le s
  have first := length_readWhole_lt wholeRead
  have second := length_readFraction_le fractionRead
  have third := length_readExponent_le exponentRead
  cases done
  omega

end CodeRows.Json
