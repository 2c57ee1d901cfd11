import CodeRows.Json.Container
import CodeRows.Json.Skip

/-! # Records

A record is read from an object with the record's fields in any order, under any accepted name,
or from a list of the fields in their order.  Members of an object that the record does not have
are skipped.  What is read of a record is the list of its entries. -/

set_option autoImplicit false

namespace CodeRows.Json

structure Field (ε : Type) where
  name : String
  aliases : List String
  reader : Reader ε

structure Shape (ε : Type) where
  label : String
  fields : List (Field ε)
  /-- How many of the fields, from the first, must be given. -/
  required : Nat

namespace Shape

variable {ε : Type}

def field? (shape : Shape ε) (key : String) : Option (Field ε × Nat) :=
  shape.fields.zipIdx.find? fun (field, _) => key == field.name || field.aliases.contains key

def missing? (shape : Shape ε) (given : List Nat) : Option String :=
  ((shape.fields.take shape.required).zipIdx.find? fun (_, index) => !given.contains index).map
    fun (field, _) => field.name

/-- Read the fields in their order; `given` counts those that came before. -/
def readElements (shape : Shape ε) (given : Nat) :
    List (Field ε) → List Char → Except Fault (List ε × List Char)
  | [], s => .ok ([], s)
  | field :: fields, s => do
    let (more, rest) ← nextElement (given == 0) s
    if more then
      let (entry, rest) ← field.reader.read rest
      let (entries, rest) ← readElements shape (given + 1) fields rest
      .ok (entry :: entries, rest)
    else if given < shape.required then
      .error (.pending (.tooFewElements given shape.label shape.fields.length) rest)
    else .ok ([], rest)

inductive Member (ε : Type) where
  | entry (index : Nat) (value : ε)
  | unknown

/-- Read a member after the opening quote of its key.  A field given before is refused as soon
as its key is read. -/
def readMember (shape : Shape ε) (given : List Nat) (s : List Char) :
    Except Fault (Member ε × List Char) := do
  let (key, rest) ← readString s
  match shape.field? key with
  | none =>
    let rest ← readColon rest
    let rest ← skipValue rest
    .ok (.unknown, rest)
  | some (field, index) =>
    if given.contains index then .error (.pending (.duplicateField field.name) rest)
    else
      let rest ← readColon rest
      let (value, rest) ← field.reader.read rest
      .ok (.entry index value, rest)

theorem length_readMember_lt {shape : Shape ε} {given : List Nat} {s rest : List Char}
    {member : Member ε} (done : shape.readMember given s = .ok (member, rest)) :
    rest.length < s.length := by
  obtain ⟨⟨key, afterKey⟩, keyRead, done⟩ := bind_eq_ok done
  have first := length_readString_lt keyRead
  dsimp only at done
  split at done
  · obtain ⟨afterColon, colon, done⟩ := bind_eq_ok done
    obtain ⟨afterValue, skipped, done⟩ := bind_eq_ok done
    have second := length_readColon_lt colon
    have third := length_skipFrom_le skipped
    cases done
    omega
  · rename_i field _ _
    split at done
    · cases done
    · obtain ⟨afterColon, colon, done⟩ := bind_eq_ok done
      obtain ⟨⟨value, afterValue⟩, valueRead, done⟩ := bind_eq_ok done
      have second := length_readColon_lt colon
      have third := field.reader.consumes _ _ _ valueRead
      cases done
      dsimp only
      omega

/-- Read the members of an object, in front of the next one or of the closing brace; `given`
holds the indices of the fields read before. -/
def readMembers (shape : Shape ε) (first : Bool) (given : List Nat) (s : List Char) :
    Parse (List ε) :=
  match _next : nextKey first s with
  | .error fault => .error fault
  | .ok (false, rest) =>
    match shape.missing? given with
    | some name => .error (.pending (.missingField name) rest)
    | none => .ok ([], rest)
  | .ok (true, rest) =>
    match _member : shape.readMember given rest with
    | .error fault => .error fault
    | .ok (.unknown, rest) => readMembers shape false given rest
    | .ok (.entry index value, rest) =>
      (readMembers shape false (index :: given) rest).map fun (entries, rest) =>
        (value :: entries, rest)
termination_by s.length
decreasing_by
  · exact Nat.lt_of_lt_of_le (length_readMember_lt _member) (length_nextKey_le _next)
  · exact Nat.lt_of_lt_of_le (length_readMember_lt _member) (length_nextKey_le _next)

def readRecord (shape : Shape ε) (s : List Char) : Parse (List ε) :=
  match skipSpace s with
  | '[' :: rest => finish closeList afterList (shape.readElements 0 shape.fields rest)
  | '\x7b' :: rest => finish closeObject afterObject (shape.readMembers true [] rest)
  | rest => .error (wrongKind ("struct " ++ shape.label) rest)

theorem length_readElements_le {shape : Shape ε} (fields : List (Field ε)) {given : Nat}
    {s rest : List Char} {entries : List ε}
    (done : shape.readElements given fields s = .ok (entries, rest)) : rest.length ≤ s.length := by
  induction fields generalizing given s rest entries with
  | nil => cases done; exact Nat.le_refl _
  | cons field fields ih =>
    rw [readElements] at done
    obtain ⟨⟨more, start⟩, next, done⟩ := bind_eq_ok done
    have first := length_nextElement_le next
    dsimp only at done
    split at done
    · obtain ⟨⟨entry, after⟩, result, done⟩ := bind_eq_ok done
      obtain ⟨⟨later, final⟩, laterRead, done⟩ := bind_eq_ok done
      have second := field.reader.consumes _ _ _ result
      have third := ih laterRead
      cases done
      dsimp only at third ⊢
      omega
    · split at done <;> cases done
      exact first

theorem length_readMembers_le {shape : Shape ε} {first : Bool} {given : List Nat}
    {s rest : List Char} {entries : List ε}
    (done : shape.readMembers first given s = .ok (entries, rest)) : rest.length ≤ s.length := by
  fun_induction readMembers shape first given s generalizing entries rest with
  | case1 | case2 | case4 => cases done
  | case3 _ _ _ start next => cases done; exact length_nextKey_le next
  | case5 _ _ _ start next after member ih =>
    exact Nat.le_trans (ih done) (Nat.le_of_lt
      (Nat.lt_of_lt_of_le (length_readMember_lt member) (length_nextKey_le next)))
  | case6 _ _ _ start next index value after member ih =>
    obtain ⟨⟨later, final⟩, result, same⟩ := map_eq_ok done
    cases same
    exact Nat.le_trans (ih result) (Nat.le_of_lt
      (Nat.lt_of_lt_of_le (length_readMember_lt member) (length_nextKey_le next)))

theorem consumes_readRecord (shape : Shape ε) : Consumes shape.readRecord := by
  intro s entries rest done
  have shorter := length_skipSpace_le s
  unfold readRecord at done
  split at done
  · rename_i tail start
    obtain ⟨inner, content, closed⟩ := finish_eq_ok done
    have first := length_readElements_le _ content
    have second := length_closeList_lt closed
    rw [start, List.length_cons] at shorter
    omega
  · rename_i tail start
    obtain ⟨inner, content, closed⟩ := finish_eq_ok done
    have first := length_readMembers_le content
    have second := length_closeObject_lt closed
    rw [start, List.length_cons] at shorter
    omega
  · cases done

def reader (shape : Shape ε) : Reader (List ε) := ⟨shape.readRecord, shape.consumes_readRecord⟩

end Shape

end CodeRows.Json
