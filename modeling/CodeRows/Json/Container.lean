import CodeRows.Json.Value

/-! # Lists and whole texts

Going from element to element or from key to key, closing a container, and reading lists and
whole texts.  A container is closed also after a fault in it, which is where a fault of the
container as a whole is placed. -/

set_option autoImplicit false

namespace CodeRows.Json

def closeList (s : List Char) : Except Fault (List Char) :=
  match skipSpace s with
  | ']' :: rest => .ok rest
  | [] => .error (.placed .endInList 0)
  | ',' :: rest =>
    match skipSpace rest with
    | ']' :: rest => .error (faultIn .trailingComma (']' :: rest))
    | rest => .error (faultIn .trailingCharacters rest)
  | c :: rest => .error (faultIn .trailingCharacters (c :: rest))

/-- Where the attempt to close a list ends. -/
def afterList (s : List Char) : List Char :=
  match skipSpace s with
  | ']' :: rest => rest
  | ',' :: rest => skipSpace rest
  | rest => rest

def closeObject (s : List Char) : Except Fault (List Char) :=
  match skipSpace s with
  | '\x7d' :: rest => .ok rest
  | [] => .error (.placed .endInObject 0)
  | ',' :: rest => .error (faultIn .trailingComma (',' :: rest))
  | c :: rest => .error (faultIn .trailingCharacters (c :: rest))

def afterObject (s : List Char) : List Char :=
  match skipSpace s with
  | '\x7d' :: rest => rest
  | rest => rest

/-- Finish a container: close it after its content, or place a fault of the whole of it. -/
def finish {α : Type} (close : List Char → Except Fault (List Char))
    (after : List Char → List Char) (content : Parse α) : Parse α :=
  match content with
  | .ok (a, rest) => (close rest).map fun rest => (a, rest)
  | .error fault => .error (fault.settle after)

/-- Go to the next element of a list, past a comma unless it is the first; `false` at the
closing bracket. -/
def nextElement (first : Bool) (s : List Char) : Parse Bool :=
  match skipSpace s with
  | [] => .error (.placed .endInList 0)
  | c :: rest =>
    if c = ']' then .ok (false, c :: rest)
    else if first then .ok (true, c :: rest)
    else if c = ',' then
      match skipSpace rest with
      | [] => .error (.placed .endInValue 0)
      | d :: rest =>
        if d = ']' then .error (faultIn .trailingComma (d :: rest)) else .ok (true, d :: rest)
    else .error (faultIn .noListSeparator (c :: rest))

def openKey (s : List Char) : Parse Bool :=
  match s with
  | '"' :: rest => .ok (true, rest)
  | _ => .error (faultIn .keyNotString s)

/-- Go to the next key of an object, past a comma unless it is the first and past the opening
quote; `false` at the closing brace. -/
def nextKey (first : Bool) (s : List Char) : Parse Bool :=
  match skipSpace s with
  | [] => .error (.placed .endInObject 0)
  | c :: rest =>
    if c = '\x7d' then .ok (false, c :: rest)
    else if first then openKey (c :: rest)
    else if c = ',' then
      match skipSpace rest with
      | [] => .error (.placed .endInValue 0)
      | d :: rest =>
        if d = '\x7d' then .error (faultIn .trailingComma (d :: rest)) else openKey (d :: rest)
    else .error (faultIn .noObjectSeparator (c :: rest))

theorem length_closeList_lt {s rest : List Char} (done : closeList s = .ok rest) :
    rest.length < s.length := by
  have shorter := length_skipSpace_le s
  unfold closeList at done
  split at done
  · rename_i tail start
    cases done
    rw [start] at shorter
    exact shorter
  · cases done
  · split at done <;> cases done
  · cases done

theorem length_closeObject_lt {s rest : List Char} (done : closeObject s = .ok rest) :
    rest.length < s.length := by
  have shorter := length_skipSpace_le s
  unfold closeObject at done
  split at done
  · rename_i tail start
    cases done
    rw [start] at shorter
    exact shorter
  · cases done
  · cases done
  · cases done

theorem length_nextElement_le {first more : Bool} {s rest : List Char}
    (done : nextElement first s = .ok (more, rest)) : rest.length ≤ s.length := by
  have shorter := length_skipSpace_le s
  unfold nextElement at done
  split at done
  · cases done
  rename_i c tail start
  rw [start] at shorter
  split at done
  · cases done; exact shorter
  split at done
  · cases done; exact shorter
  split at done
  · have tailShorter := length_skipSpace_le tail
    split at done
    · cases done
    rename_i next
    rw [next] at tailShorter
    split at done <;> cases done
    exact Nat.le_trans tailShorter (Nat.le_of_succ_le shorter)
  · cases done

theorem length_openKey_lt {s rest : List Char} {more : Bool} (done : openKey s = .ok (more, rest)) :
    rest.length < s.length := by
  unfold openKey at done
  split at done <;> cases done
  exact Nat.lt_succ_self _

theorem length_nextKey_le {first more : Bool} {s rest : List Char}
    (done : nextKey first s = .ok (more, rest)) : rest.length ≤ s.length := by
  have shorter := length_skipSpace_le s
  unfold nextKey at done
  split at done
  · cases done
  rename_i c tail start
  rw [start] at shorter
  split at done
  · cases done; exact shorter
  split at done
  · exact Nat.le_trans (Nat.le_of_lt (length_openKey_lt done)) shorter
  split at done
  · have tailShorter := length_skipSpace_le tail
    split at done
    · cases done
    rename_i next
    rw [next] at tailShorter
    split at done
    · cases done
    · exact Nat.le_trans (Nat.le_of_lt (length_openKey_lt done))
        (Nat.le_trans tailShorter (Nat.le_of_succ_le shorter))
  · cases done

theorem finish_eq_ok {α : Type} {close : List Char → Except Fault (List Char)}
    {after : List Char → List Char} {content : Parse α} {a : α} {rest : List Char}
    (done : finish close after content = .ok (a, rest)) :
    ∃ inner, content = .ok (a, inner) ∧ close inner = .ok rest := by
  unfold finish at done
  split at done
  · obtain ⟨tail, closed, same⟩ := map_eq_ok done
    cases same
    exact ⟨_, rfl, closed⟩
  · cases done

def readMany {α : Type} (reader : Reader α) (first : Bool) (s : List Char) : Parse (List α) :=
  match _next : nextElement first s with
  | .error fault => .error fault
  | .ok (false, rest) => .ok ([], rest)
  | .ok (true, rest) =>
    match _element : reader.read rest with
    | .error fault => .error fault
    | .ok (a, rest) => (readMany reader false rest).map fun (others, rest) => (a :: others, rest)
termination_by s.length
decreasing_by
  exact Nat.lt_of_lt_of_le (reader.consumes _ _ _ _element) (length_nextElement_le _next)

def readList {α : Type} (reader : Reader α) (s : List Char) : Parse (List α) :=
  match skipSpace s with
  | '[' :: rest => finish closeList afterList (readMany reader true rest)
  | rest => .error (wrongKind "a sequence" rest)

def readEnd {α : Type} (parsed : Parse α) : Except Fault α := do
  let (a, rest) ← parsed
  match skipSpace rest with
  | [] => .ok a
  | c :: rest => .error (faultIn .trailingCharacters (c :: rest))

def readAll {α : Type} (read : List Char → Parse α) (text : String) :
    Except (Cause × Nat × Nat) α :=
  match readEnd (read text.toList) with
  | .ok a => .ok a
  | .error fault =>
    let chars := text.toList
    .error (fault.cause, locate 1 0 chars (byteSize chars - fault.left))

end CodeRows.Json
