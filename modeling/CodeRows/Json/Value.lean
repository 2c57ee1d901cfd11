import CodeRows.Json.Number

/-! # Single values

Readers for truth values, numbers and strings.  A value of another kind is itself read before it
is refused. -/

set_option autoImplicit false

namespace CodeRows.Json

/-- The fault of a value of the wrong kind.  The value itself is read first, so that a malformed
one is reported as such; a container is only looked at. -/
def wrongKind (expected : String) (s : List Char) : Fault :=
  let report (found : Found) (rest : List Char) : Fault :=
    faultAt (.wrongKind found expected) rest
  let word (letters : String) (found : Found) (rest : List Char) : Fault :=
    match readWord letters.toList rest with
    | .ok rest => report found rest
    | .error fault => fault
  match s with
  | [] => .placed .endInValue 0
  | c :: rest =>
    if c = 'n' then word "ull" .null rest
    else if c = 't' then word "rue" (.boolean true) rest
    else if c = 'f' then word "alse" (.boolean false) rest
    else if c = '"' then
      match readString rest with
      | .ok (text, rest) => report (.string text) rest
      | .error fault => fault
    else if c = '[' then report .list s
    else if c = '\x7b' then report .object s
    else if c = '-' ∨ c.isDigit then
      match readNumber s with
      | .ok (number, rest) => report number.found rest
      | .error fault => fault
    else faultIn .noValue s

def readBool (s : List Char) : Parse Bool :=
  match skipSpace s with
  | 't' :: rest => (readWord "rue".toList rest).map fun rest => (true, rest)
  | 'f' :: rest => (readWord "alse".toList rest).map fun rest => (false, rest)
  | rest => .error (wrongKind "a boolean" rest)

def readAnyNumber (expected : String) (s : List Char) : Parse Number :=
  match skipSpace s with
  | [] => .error (.placed .endInValue 0)
  | c :: rest =>
    if c = '-' ∨ c.isDigit then readNumber (c :: rest)
    else .error (wrongKind expected (c :: rest))

def readInt64 (s : List Char) : Except Fault (Int64 × List Char) := do
  let (number, rest) ← readAnyNumber "i64" s
  match number with
  | .real value => .error (faultAt (.wrongKind (.real value) "i64") rest)
  | .integer value =>
    if value ≤ Int64.maxValue.toInt then .ok (Int64.ofInt value, rest)
    else .error (faultAt (.outOfRange value "i64") rest)

def readBinary64 (s : List Char) : Parse Binary64 :=
  (readAnyNumber "f64" s).map fun (number, rest) => (number.toBinary, rest)

def readText (s : List Char) : Parse String :=
  match skipSpace s with
  | '"' :: rest => readString rest
  | rest => .error (wrongKind "a string" rest)

def readTextOrNull (s : List Char) : Parse (Option String) :=
  match skipSpace s with
  | 'n' :: rest => (readWord "ull".toList rest).map fun rest => (none, rest)
  | rest => (readText rest).map fun (text, rest) => (some text, rest)

theorem consumes_readBool : Consumes readBool := by
  intro s a rest done
  have shorter := length_skipSpace_le s
  unfold readBool at done
  split at done
  · rename_i tail start
    obtain ⟨after, result, same⟩ := map_eq_ok done
    cases same
    have word := length_readWord_le _ _ result
    rw [start, List.length_cons] at shorter
    omega
  · rename_i tail start
    obtain ⟨after, result, same⟩ := map_eq_ok done
    cases same
    have word := length_readWord_le _ _ result
    rw [start, List.length_cons] at shorter
    omega
  · cases done

theorem consumes_readAnyNumber (expected : String) : Consumes (readAnyNumber expected) := by
  intro s a rest done
  have shorter := length_skipSpace_le s
  unfold readAnyNumber at done
  split at done
  · cases done
  · rename_i c tail start
    split at done
    · rw [start] at shorter
      exact Nat.lt_of_lt_of_le (length_readNumber_lt done) shorter
    · cases done

theorem consumes_readInt64 : Consumes readInt64 := by
  intro s a rest done
  obtain ⟨⟨number, after⟩, result, done⟩ := bind_eq_ok done
  have shorter := consumes_readAnyNumber _ s number after result
  dsimp only at done
  split at done
  · cases done
  · split at done <;> cases done
    exact shorter

theorem consumes_readBinary64 : Consumes readBinary64 := by
  intro s a rest done
  obtain ⟨⟨number, after⟩, result, same⟩ := map_eq_ok done
  cases same
  exact consumes_readAnyNumber _ s number _ result

theorem consumes_readText : Consumes readText := by
  intro s a rest done
  have shorter := length_skipSpace_le s
  unfold readText at done
  split at done
  · rename_i tail start
    rw [start] at shorter
    exact Nat.lt_of_lt_of_le (Nat.lt_succ_of_lt (length_readString_lt done)) shorter
  · cases done

theorem consumes_readTextOrNull : Consumes readTextOrNull := by
  intro s a rest done
  have shorter := length_skipSpace_le s
  unfold readTextOrNull at done
  split at done
  · rename_i tail start
    obtain ⟨after, result, same⟩ := map_eq_ok done
    cases same
    have word := length_readWord_le _ _ result
    rw [start, List.length_cons] at shorter
    omega
  · obtain ⟨⟨text, after⟩, result, same⟩ := map_eq_ok done
    cases same
    exact Nat.lt_of_lt_of_le (consumes_readText _ _ _ result) shorter

namespace Reader

def bool : Reader Bool := ⟨readBool, consumes_readBool⟩

def int64 : Reader Int64 := ⟨readInt64, consumes_readInt64⟩

def binary64 : Reader Binary64 := ⟨readBinary64, consumes_readBinary64⟩

def text : Reader String := ⟨readText, consumes_readText⟩

def textOrNull : Reader (Option String) := ⟨readTextOrNull, consumes_readTextOrNull⟩

end Reader

end CodeRows.Json
