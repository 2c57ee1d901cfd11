import CodeRows.Json.Record
import CodeRows.Proofs.Values
import Mathlib.Data.List.Forall2

/-! # What is read of records and lists

Reading a whole text depends on its pieces only (`Reading`, `Reading.readAll_eq_ok_iff`): the pieces
are those of a value, and the reader relates the value to what it gives.  For a record this relation
says which members are skipped and which give an entry (`Shape.Reads`), for the list form which
elements are given (`Shape.Lists`). -/

set_option autoImplicit false

namespace CodeRows.Json

/-- What `read` makes of the values at the front of texts is the relation `gives`. -/
structure Reading {α : Type} (read : List Char → Parse α) (gives : List Piece → α → Prop) :
    Prop where
  written : ∀ {v a}, gives v a → Written v
  takes : ∀ {v a s us}, gives v a → pieces s = v ++ us →
    ∃ rest, read s = .ok (a, rest) ∧ pieces rest = us
  gives : ∀ {s a rest}, read s = .ok (a, rest) → Stops rest →
    ∃ v, gives v a ∧ pieces s = v ++ pieces rest

/-- The value is one piece, and the reader takes all of it. -/
def Reader.Gives {α : Type} (reader : Reader α) (v : List Piece) (a : α) : Prop :=
  ∃ p : Piece, v = [p] ∧ p.isScalar = true ∧ reader.read p.chars = .ok (a, [])

theorem Scalar.reading {α : Type} {reader : Reader α} (scalar : Scalar reader.read) :
    Reading reader.read reader.Gives where
  written := by
    rintro v a ⟨p, rfl, isScalar, -⟩
    exact .scalar isScalar trivial
  takes := by
    rintro v a s us ⟨p, rfl, -, value⟩ split
    exact scalar.takes value split
  gives := by
    intro s a rest done stops
    obtain ⟨p, isScalar, value, split⟩ := scalar.gives done stops
    exact ⟨[p], ⟨p, rfl, isScalar, value⟩, split⟩

theorem Reading.map {α β : Type} {reader : Reader α} {gives : List Piece → α → Prop} (f : α → β)
    (reading : Reading reader.read gives) :
    Reading (reader.map f).read fun v b => ∃ a, gives v a ∧ f a = b where
  written := fun ⟨_, given, _⟩ => reading.written given
  takes := by
    rintro v b s us ⟨a, given, rfl⟩ split
    obtain ⟨rest, done, found⟩ := reading.takes given split
    exact ⟨rest, map_fst_eq_ok_iff.2 ⟨a, done, rfl⟩, found⟩
  gives := by
    intro s b rest done stops
    obtain ⟨a, result, same⟩ := map_fst_eq_ok_iff.1 done
    obtain ⟨v, given, split⟩ := reading.gives result stops
    exact ⟨v, ⟨a, given, same⟩, split⟩

/-! ## Whole texts -/

theorem pieces_eq_nil_iff {s : List Char} : pieces s = [] ↔ skipSpace s = [] := by
  refine ⟨fun split => ?_, pieces_of_nil⟩
  cases front s with
  | nil start _ => exact start
  | mark _ _ found | string _ _ found | unclosed _ _ found | word _ _ _ found =>
    rw [found] at split
    cases split

theorem readAll_eq_ok_iff_read {α : Type} {read : List Char → Parse α} {text : String} {a : α} :
    readAll read text = .ok a ↔ ∃ rest, read text.toList = .ok (a, rest) ∧ pieces rest = [] := by
  simp only [pieces_eq_nil_iff]
  constructor
  · intro done
    unfold readAll at done
    split at done
    · rename_i result whole
      cases done
      obtain ⟨⟨value, rest⟩, result, ended⟩ := bind_eq_ok whole
      dsimp only at ended
      split at ended
      · rename_i none
        cases ended
        exact ⟨rest, result, none⟩
      · cases ended
    · cases done
  · rintro ⟨rest, result, none⟩
    have whole : readEnd (read text.toList) = .ok a := by
      rw [readEnd, result]
      dsimp only [bind, Except.bind]
      rw [none]
    rw [readAll, whole]

theorem stops_of_pieces_nil {s : List Char} (split : pieces s = []) : Stops s := by
  intro c tail start
  rw [pieces_eq_nil_iff, start] at split
  cases letter : isLetter c with
  | false => rfl
  | true =>
    rw [skipSpace_cons (not_isSpace_of_isLetter letter)] at split
    cases split

/-- Reading a whole text depends on its pieces only. -/
theorem Reading.readAll_eq_ok_iff {α : Type} {read : List Char → Parse α}
    {gives : List Piece → α → Prop} (reading : Reading read gives) {text : String} {a : α} :
    readAll read text = .ok a ↔ gives (pieces text.toList) a := by
  rw [readAll_eq_ok_iff_read]
  constructor
  · rintro ⟨rest, done, none⟩
    obtain ⟨v, given, split⟩ := reading.gives done (stops_of_pieces_nil none)
    rw [none, List.append_nil] at split
    rw [split]
    exact given
  · intro given
    exact reading.takes given (List.append_nil _).symm

/-! ## From part to part -/

section Parts

variable {s rest : List Char} {us : List Piece} {first : Bool}

theorem nextElement_takes {x : List Piece} (begins : Begins x)
    (split : pieces s = lead first ++ (x ++ us)) :
    ∃ rest, nextElement first s = .ok (true, rest) ∧ pieces rest = x ++ us := by
  cases first with
  | true =>
    obtain ⟨c, tail, start, -, more⟩ := start_of_begins begins split
    have notClosed : c ≠ ']' := more .list
    refine ⟨c :: tail, ?_, ?_⟩
    · rw [nextElement, start]
      dsimp only
      rw [if_neg notClosed, if_pos rfl]
    · rw [← start, pieces_skipSpace, split]
      rfl
  | false =>
    obtain ⟨behind, start, found⟩ := start_of_mark split
    obtain ⟨c, tail, next, -, more⟩ := start_of_begins begins found
    have notClosed : c ≠ ']' := more .list
    refine ⟨c :: tail, ?_, ?_⟩
    · rw [nextElement, start]
      dsimp only
      rw [if_neg (by decide), if_neg (by decide), if_pos rfl, next]
      dsimp only
      rw [if_neg notClosed]
    · rw [← next, pieces_skipSpace, found]
      rfl

theorem nextElement_end (first : Bool) (split : pieces s = .mark ']' :: us) :
    ∃ rest, nextElement first s = .ok (false, rest) ∧ pieces rest = .mark ']' :: us := by
  obtain ⟨tail, start, found⟩ := start_of_mark split
  refine ⟨']' :: tail, ?_, ?_⟩
  · rw [nextElement, start]
    dsimp only
    rw [if_pos rfl]
  · rw [← start, pieces_skipSpace, split]

theorem nextElement_gives (done : nextElement first s = .ok (true, rest)) :
    pieces s = lead first ++ pieces rest := by
  unfold nextElement at done
  split at done
  · cases done
  rename_i c tail start
  split at done
  · cases done
  split at done
  · rename_i isFirst
    cases done
    rw [isFirst, ← start, pieces_skipSpace]
    rfl
  rename_i notFirst
  split at done
  · rename_i comma
    subst comma
    split at done
    · cases done
    rename_i d later next
    split at done <;> cases done
    rw [pieces_of_mark (by decide) start, ← next, pieces_skipSpace, lead, if_neg notFirst]
    rfl
  · cases done

theorem nextElement_gives_end (done : nextElement first s = .ok (false, rest)) :
    ∃ tail, rest = ']' :: tail ∧ pieces s = .mark ']' :: pieces tail := by
  unfold nextElement at done
  split at done
  · cases done
  rename_i c tail start
  split at done
  · rename_i closed
    cases done
    subst closed
    exact ⟨tail, rfl, pieces_of_mark (by decide) start⟩
  split at done
  · cases done
  split at done
  · split at done
    · cases done
    · split at done <;> cases done
  · cases done

theorem nextKey_takes {key : List Char} (split : pieces s = lead first ++ .string key :: us) :
    ∃ rest, nextKey first s = .ok (true, key ++ '"' :: rest) ∧ pieces rest = us := by
  cases first with
  | true =>
    obtain ⟨rest, start, found⟩ := start_of_string split
    refine ⟨rest, ?_, found⟩
    rw [nextKey, start]
    dsimp only
    rw [if_neg (by decide), if_pos rfl]
    rfl
  | false =>
    obtain ⟨behind, start, next⟩ := start_of_mark split
    obtain ⟨rest, nextStart, found⟩ := start_of_string next
    refine ⟨rest, ?_, found⟩
    rw [nextKey, start]
    dsimp only
    rw [if_neg (by decide), if_neg (by decide), if_pos rfl, nextStart]
    dsimp only
    rw [if_neg (by decide)]
    rfl

theorem nextKey_end (first : Bool) (split : pieces s = .mark '\x7d' :: us) :
    ∃ rest, nextKey first s = .ok (false, rest) ∧ pieces rest = .mark '\x7d' :: us := by
  obtain ⟨tail, start, found⟩ := start_of_mark split
  refine ⟨'\x7d' :: tail, ?_, ?_⟩
  · rw [nextKey, start]
    dsimp only
    rw [if_pos rfl]
  · rw [← start, pieces_skipSpace, split]

theorem openKey_gives {more : Bool} (done : openKey s = .ok (more, rest)) :
    s = '"' :: rest ∧ more = true := by
  unfold openKey at done
  split at done
  · cases done
    exact ⟨rfl, rfl⟩
  · cases done

theorem nextKey_gives (done : nextKey first s = .ok (true, rest)) :
    pieces s = lead first ++ pieces ('"' :: rest) := by
  unfold nextKey at done
  split at done
  · cases done
  rename_i c tail start
  split at done
  · cases done
  split at done
  · rename_i isFirst
    obtain ⟨same, -⟩ := openKey_gives done
    rw [isFirst, ← same, ← start, pieces_skipSpace]
    rfl
  rename_i notFirst
  split at done
  · rename_i comma
    subst comma
    split at done
    · cases done
    rename_i d later next
    split at done
    · cases done
    · obtain ⟨same, -⟩ := openKey_gives done
      rw [pieces_of_mark (by decide) start, ← same, ← next, pieces_skipSpace, lead, if_neg notFirst]
      rfl
  · cases done

theorem nextKey_gives_end (done : nextKey first s = .ok (false, rest)) :
    ∃ tail, rest = '\x7d' :: tail ∧ pieces s = .mark '\x7d' :: pieces tail := by
  unfold nextKey at done
  split at done
  · cases done
  rename_i c tail start
  split at done
  · rename_i closed
    cases done
    subst closed
    exact ⟨tail, rfl, pieces_of_mark (by decide) start⟩
  split at done
  · cases (openKey_gives done).2
  split at done
  · split at done
    · cases done
    · split at done
      · cases done
      · cases (openKey_gives done).2
  · cases done

theorem closeList_takes (split : pieces s = .mark ']' :: us) :
    ∃ rest, closeList s = .ok rest ∧ pieces rest = us := by
  obtain ⟨rest, start, found⟩ := start_of_mark split
  refine ⟨rest, ?_, found⟩
  rw [closeList, start]
  rfl

theorem closeList_gives (done : closeList s = .ok rest) : pieces s = .mark ']' :: pieces rest := by
  unfold closeList at done
  split at done
  · rename_i start
    cases done
    exact pieces_of_mark (by decide) start
  · cases done
  · split at done <;> cases done
  · cases done

theorem closeObject_takes (split : pieces s = .mark '\x7d' :: us) :
    ∃ rest, closeObject s = .ok rest ∧ pieces rest = us := by
  obtain ⟨rest, start, found⟩ := start_of_mark split
  refine ⟨rest, ?_, found⟩
  rw [closeObject, start]
  rfl

theorem closeObject_gives (done : closeObject s = .ok rest) :
    pieces s = .mark '\x7d' :: pieces rest := by
  unfold closeObject at done
  split at done
  · rename_i start
    cases done
    exact pieces_of_mark (by decide) start
  · cases done
  · cases done
  · cases done

/-- What follows a part is a comma or the closing bracket. -/
theorem stops_of_separated {parts : List (List Piece)} {c : Char}
    (split : pieces s = separated false parts ++ .mark c :: us) : Stops s := by
  cases parts with
  | nil => exact stops_of_mark split
  | cons part parts => exact stops_of_mark split

theorem finish_of_ok {α : Type} {close : List Char → Except Fault (List Char)}
    {after : List Char → List Char} {content : Parse α} {a : α} {inner : List Char}
    (done : content = .ok (a, inner)) (closed : close inner = .ok rest) :
    finish close after content = .ok (a, rest) := by
  rw [done, finish, closed]
  rfl

end Parts

/-! ## Members -/

def Pair.Names (pair : Pair) (key : String) : Prop :=
  readString (pair.key ++ ['"']) = .ok (key, [])

theorem readString_gives {s rest : List Char} {key : String}
    (done : readString s = .ok (key, rest)) :
    ∃ inside, s = inside ++ '"' :: rest ∧ Inner inside ∧
      ∀ other, readString (inside ++ '"' :: other) = .ok (key, other) := by
  obtain ⟨chars, result, rfl⟩ := map_fst_eq_ok_iff.1 done
  obtain ⟨inside, split, inner, again⟩ := takes_of_readChars result
  exact ⟨inside, split, inner, fun other => map_fst_eq_ok_iff.2 ⟨chars, again other, rfl⟩⟩

theorem Pair.Names.readString_eq {pair : Pair} {key : String} (names : pair.Names key)
    (rest : List Char) : readString (pair.key ++ '"' :: rest) = .ok (key, rest) := by
  obtain ⟨inside, same, -, again⟩ := readString_gives names
  rw [List.append_cancel_right same]
  exact again rest

theorem Pair.Names.unique {pair : Pair} {key other : String} (names : pair.Names key)
    (otherNames : pair.Names other) : key = other := by
  rw [Pair.Names, names] at otherNames
  exact (Prod.mk.inj (Except.ok.inj otherNames)).1

namespace Shape

variable {ε : Type} {shape : Shape ε}

def Unknown (shape : Shape ε) (pair : Pair) : Prop :=
  ∃ key, pair.Names key ∧ shape.field? key = none ∧ Value Piece.Sound pair.value

/-- The key of the member is accepted by the field with the index, and its value gives an entry. -/
def Gives (shape : Shape ε) (pair : Pair) (index : Nat) (entry : ε) : Prop :=
  ∃ key field, pair.Names key ∧ shape.field? key = some (field, index) ∧
    field.reader.Gives pair.value entry

/-- Members that can be read behind those of the fields `given`, and the entries that they give,
each with the index of its field. -/
inductive Reads (shape : Shape ε) : List Nat → List Pair → List (Nat × ε) → Prop where
  | nil {given : List Nat} : shape.missing? given = none → Reads shape given [] []
  | unknown {given : List Nat} {pair : Pair} {pairs : List Pair} {entries : List (Nat × ε)} :
      shape.Unknown pair → Reads shape given pairs entries →
        Reads shape given (pair :: pairs) entries
  | entry {given : List Nat} {pair : Pair} {pairs : List Pair} {entries : List (Nat × ε)}
      {index : Nat} {entry : ε} :
      shape.Gives pair index entry → index ∉ given → Reads shape (index :: given) pairs entries →
        Reads shape given (pair :: pairs) ((index, entry) :: entries)

def OfScalars (shape : Shape ε) : Prop := ∀ field ∈ shape.fields, Scalar field.reader.read

theorem mem_fields_of_field? {key : String} {field : Field ε} {index : Nat}
    (found : shape.field? key = some (field, index)) : field ∈ shape.fields := by
  have member := List.mem_of_find?_eq_some found
  exact List.fst_mem_of_mem_zipIdx member

theorem Gives.written {pair : Pair} {index : Nat} {entry : ε}
    (gives : shape.Gives pair index entry) : Written pair.value := by
  obtain ⟨_, _, -, -, p, same, isScalar, -⟩ := gives
  rw [same]
  exact .scalar isScalar trivial

theorem Reads.written {given : List Nat} {pairs : List Pair} {entries : List (Nat × ε)}
    (reads : shape.Reads given pairs entries) : ∀ pair ∈ pairs, Written pair.value := by
  induction reads with
  | nil _ => simp
  | unknown unknown _ ih =>
    obtain ⟨_, -, -, value⟩ := unknown
    exact List.forall_mem_cons.2 ⟨value.written, ih⟩
  | entry gives _ _ ih => exact List.forall_mem_cons.2 ⟨gives.written, ih⟩

section Members

variable {given : List Nat} {pair : Pair} {rest after s : List Char} {us : List Piece}
  {first : Bool}

theorem readMember_unknown (unknown : shape.Unknown pair)
    (split : pieces rest = .mark ':' :: (pair.value ++ us)) :
    ∃ after, shape.readMember given (pair.key ++ '"' :: rest) = .ok (.unknown, after) ∧
      pieces after = us := by
  obtain ⟨key, names, none, value⟩ := unknown
  obtain ⟨mid, colon, behind⟩ := readColon_takes split
  obtain ⟨after, skipped, found⟩ := skipValue_takes value behind
  refine ⟨after, ?_, found⟩
  rw [readMember, names.readString_eq rest]
  dsimp only [bind, Except.bind]
  rw [none]
  dsimp only
  rw [colon]
  dsimp only
  rw [skipped]

theorem readMember_entry (scalars : shape.OfScalars) {index : Nat} {entry : ε}
    (gives : shape.Gives pair index entry) (fresh : index ∉ given)
    (split : pieces rest = .mark ':' :: (pair.value ++ us)) :
    ∃ after, shape.readMember given (pair.key ++ '"' :: rest) = .ok (.entry index entry, after) ∧
      pieces after = us := by
  obtain ⟨key, field, names, found, value⟩ := gives
  obtain ⟨mid, colon, behind⟩ := readColon_takes split
  have reading := (scalars field (mem_fields_of_field? found)).reading
  obtain ⟨after, read, last⟩ := reading.takes value behind
  refine ⟨after, ?_, last⟩
  rw [readMember, names.readString_eq rest]
  dsimp only [bind, Except.bind]
  rw [found]
  dsimp only
  rw [if_neg (by simpa using fresh), colon]
  dsimp only
  rw [read]

/-- What a member leads to. -/
theorem readMember_gives (scalars : shape.OfScalars) {member : Member ε}
    (done : shape.readMember given s = .ok (member, after)) (stops : Stops after) :
    ∃ pair : Pair, pieces ('"' :: s) = pair.pieces ++ pieces after ∧
      match member with
      | .unknown => shape.Unknown pair
      | .entry index entry => shape.Gives pair index entry ∧ index ∉ given := by
  obtain ⟨⟨key, behind⟩, keyRead, judged⟩ := bind_eq_ok done
  obtain ⟨inside, rfl, inner, again⟩ := readString_gives keyRead
  have split : pieces ('"' :: (inside ++ '"' :: behind)) = .string inside :: pieces behind :=
    pieces_of_string (skipSpace_cons (by decide)) (inner.splitString_eq behind)
  dsimp only at judged
  split at judged
  · rename_i none
    obtain ⟨mid, colon, judged⟩ := bind_eq_ok judged
    obtain ⟨last, skipped, judged⟩ := bind_eq_ok judged
    cases judged
    obtain ⟨v, value, found⟩ := skipValue_gives skipped stops
    refine ⟨⟨inside, v⟩, ?_, key, again [], none, value⟩
    rw [split, readColon_gives colon, found]
    rfl
  · rename_i field index found
    split at judged
    · cases judged
    rename_i fresh
    obtain ⟨mid, colon, judged⟩ := bind_eq_ok judged
    obtain ⟨⟨entry, last⟩, read, judged⟩ := bind_eq_ok judged
    cases judged
    have reading := (scalars field (mem_fields_of_field? found)).reading
    obtain ⟨v, value, valueSplit⟩ := reading.gives read stops
    refine ⟨⟨inside, v⟩, ?_, ⟨key, field, again [], found, value⟩, by simpa using fresh⟩
    rw [split, readColon_gives colon, valueSplit]
    rfl

theorem readMembers_end (next : nextKey first s = .ok (false, rest))
    (complete : shape.missing? given = none) :
    shape.readMembers first given s = .ok ([], rest) := by
  rw [readMembers]
  split <;> simp_all

theorem readMembers_more (next : nextKey first s = .ok (true, rest)) :
    shape.readMembers first given s =
      match shape.readMember given rest with
      | .error fault => .error fault
      | .ok (.unknown, rest) => shape.readMembers false given rest
      | .ok (.entry index value, rest) =>
        (shape.readMembers false (index :: given) rest).map fun (entries, rest) =>
          (value :: entries, rest) := by
  conv => lhs; rw [readMembers]
  split
  · simp_all
  · simp_all
  · rename_i other
    rw [next] at other
    cases other
    cases shape.readMember given rest with
    | error fault => rfl
    | ok found =>
      obtain ⟨member, after⟩ := found
      cases member <;> rfl

theorem Reads.readMembers_eq (scalars : shape.OfScalars) {pairs : List Pair}
    {entries : List (Nat × ε)} (reads : shape.Reads given pairs entries)
    (split : pieces s = separated first (pairs.map Pair.pieces) ++ .mark '\x7d' :: us) :
    ∃ rest, shape.readMembers first given s = .ok (entries.map Prod.snd, rest) ∧
      pieces rest = .mark '\x7d' :: us := by
  induction reads generalizing first s with
  | nil complete =>
    obtain ⟨rest, next, found⟩ := nextKey_end first split
    exact ⟨rest, readMembers_end next complete, found⟩
  | @unknown given pair pairs entries unknown _ ih =>
    simp only [List.map_cons, separated, Pair.pieces, List.append_assoc, List.cons_append] at split
    obtain ⟨mid, next, behind⟩ := nextKey_takes split
    obtain ⟨after, member, found⟩ := readMember_unknown unknown behind
    obtain ⟨rest, later, last⟩ := ih found
    exact ⟨rest, by rw [readMembers_more next, member]; exact later, last⟩
  | @entry given pair pairs entries index value gives fresh _ ih =>
    simp only [List.map_cons, separated, Pair.pieces, List.append_assoc, List.cons_append] at split
    obtain ⟨mid, next, behind⟩ := nextKey_takes split
    obtain ⟨after, member, found⟩ := readMember_entry scalars gives fresh behind
    obtain ⟨rest, later, last⟩ := ih found
    refine ⟨rest, ?_, last⟩
    rw [readMembers_more next, member]
    dsimp only
    rw [later]
    rfl

theorem readMembers_gives (scalars : shape.OfScalars) {entries : List ε}
    (done : shape.readMembers first given s = .ok (entries, rest)) :
    ∃ pairs indexed tail, shape.Reads given pairs indexed ∧ indexed.map Prod.snd = entries ∧
      rest = '\x7d' :: tail ∧
      pieces s = separated first (pairs.map Pair.pieces) ++ .mark '\x7d' :: pieces tail := by
  -- That a value ends where its reader stops is known from the members behind it: they come first.
  fun_induction readMembers shape first given s generalizing entries rest with
  | case1 | case2 | case4 => cases done
  | case3 first given s start next complete =>
    cases done
    obtain ⟨tail, same, split⟩ := nextKey_gives_end next
    exact ⟨[], [], tail, .nil complete, rfl, same, split⟩
  | case5 first given s start next after member ih =>
    obtain ⟨pairs, indexed, tail, reads, same, closed, later⟩ := ih done
    obtain ⟨pair, split, unknown⟩ := readMember_gives scalars member (stops_of_separated later)
    refine ⟨pair :: pairs, indexed, tail, .unknown unknown reads, same, closed, ?_⟩
    rw [nextKey_gives next, split, later]
    simp [separated]
  | case6 first given s start next index value after member ih =>
    obtain ⟨⟨others, final⟩, result, same⟩ := map_eq_ok done
    cases same
    obtain ⟨pairs, indexed, tail, reads, rfl, closed, later⟩ := ih result
    obtain ⟨pair, split, gives, fresh⟩ :=
      readMember_gives scalars member (stops_of_separated later)
    refine ⟨pair :: pairs, (index, value) :: indexed, tail, .entry gives fresh reads, rfl, closed,
      ?_⟩
    rw [nextKey_gives next, split, later]
    simp [separated]

end Members

/-! ## The list form -/

inductive Lists (shape : Shape ε) : Nat → List (Field ε) → List (List Piece) → List ε → Prop where
  | nil {given : Nat} {fields : List (Field ε)} :
      fields = [] ∨ shape.required ≤ given → Lists shape given fields [] []
  | cons {given : Nat} {field : Field ε} {fields : List (Field ε)} {element : List Piece}
      {elements : List (List Piece)} {entry : ε} {entries : List ε} :
      field.reader.Gives element entry → Lists shape (given + 1) fields elements entries →
        Lists shape given (field :: fields) (element :: elements) (entry :: entries)

section Elements

variable {given : Nat} {fields : List (Field ε)} {elements : List (List Piece)} {entries : List ε}
  {s rest : List Char}

theorem Lists.written (lists : shape.Lists given fields elements entries) :
    ∀ element ∈ elements, Written element := by
  induction lists with
  | nil _ => simp
  | cons gives _ ih =>
    obtain ⟨p, rfl, isScalar, -⟩ := gives
    exact List.forall_mem_cons.2 ⟨.scalar isScalar trivial, ih⟩

theorem Lists.readElements_eq (lists : shape.Lists given fields elements entries)
    (scalars : ∀ field ∈ fields, Scalar field.reader.read) {us : List Piece}
    (split : pieces s = separated (given == 0) elements ++ .mark ']' :: us) :
    ∃ rest, shape.readElements given fields s = .ok (entries, rest) ∧
      pieces rest = .mark ']' :: us := by
  induction lists generalizing s with
  | @nil given fields enough =>
    cases fields with
    | nil => exact ⟨s, rfl, split⟩
    | cons field fields =>
      obtain ⟨rest, next, found⟩ := nextElement_end (given == 0) split
      refine ⟨rest, ?_, found⟩
      have fits : ¬ given < shape.required := by simpa using enough
      rw [readElements, next]
      dsimp only [bind, Except.bind]
      rw [if_neg (by decide), if_neg fits]
  | @cons given field fields element elements entry entries gives _ ih =>
    obtain ⟨scalar, others⟩ := List.forall_mem_cons.1 scalars
    have reading := scalar.reading
    rw [separated, List.append_assoc, List.append_assoc] at split
    obtain ⟨mid, next, behind⟩ := nextElement_takes (reading.written gives).begins split
    obtain ⟨after, read, found⟩ := reading.takes gives behind
    obtain ⟨rest, later, last⟩ := ih others found
    refine ⟨rest, ?_, last⟩
    rw [readElements, next]
    dsimp only [bind, Except.bind]
    rw [if_pos rfl, read]
    dsimp only
    rw [later]

theorem readElements_gives (scalars : ∀ field ∈ fields, Scalar field.reader.read)
    {final : List Char} (done : shape.readElements given fields s = .ok (entries, rest))
    (closed : closeList rest = .ok final) :
    ∃ elements, shape.Lists given fields elements entries ∧
      pieces s = separated (given == 0) elements ++ .mark ']' :: pieces final := by
  induction fields generalizing given s rest entries with
  | nil =>
    cases done
    exact ⟨[], .nil (.inl rfl), closeList_gives closed⟩
  | cons field fields ih =>
    obtain ⟨scalar, others⟩ := List.forall_mem_cons.1 scalars
    rw [readElements] at done
    obtain ⟨⟨more, start⟩, next, done⟩ := bind_eq_ok done
    cases more with
    | true =>
      obtain ⟨⟨entry, after⟩, result, done⟩ := bind_eq_ok done
      obtain ⟨⟨later, last⟩, laterRead, done⟩ := bind_eq_ok done
      cases done
      obtain ⟨elements, lists, found⟩ := ih others laterRead closed
      obtain ⟨element, gives, split⟩ := scalar.reading.gives result (stops_of_separated found)
      refine ⟨element :: elements, .cons gives lists, ?_⟩
      rw [nextElement_gives next, split, found]
      simp [separated]
    | false =>
      dsimp only at done
      rw [if_neg (by decide)] at done
      split at done
      · cases done
      · rename_i enough
        cases done
        obtain ⟨tail, rfl, split⟩ := nextElement_gives_end next
        refine ⟨[], .nil (.inr (Nat.not_lt.1 enough)), ?_⟩
        rw [← closeList_gives closed, split,
          pieces_of_mark (by decide) (skipSpace_cons (by decide))]
        rfl

end Elements

/-! ## Whole records -/

inductive Record (shape : Shape ε) : List Piece → List ε → Prop where
  | object {pairs : List Pair} {entries : List (Nat × ε)} :
      shape.Reads [] pairs entries → Record shape (objectPieces pairs) (entries.map Prod.snd)
  | list {elements : List (List Piece)} {entries : List ε} :
      shape.Lists 0 shape.fields elements entries → Record shape (listPieces elements) entries

theorem Record.written {v : List Piece} {entries : List ε} (record : shape.Record v entries) :
    Written v := by
  cases record with
  | object reads => exact .object (fun _ _ => trivial) reads.written
  | list lists => exact .list lists.written

theorem readRecord_list {s rest : List Char} (start : skipSpace s = '[' :: rest) :
    shape.readRecord s = finish closeList afterList (shape.readElements 0 shape.fields rest) := by
  rw [readRecord, start]
  rfl

theorem readRecord_object {s rest : List Char} (start : skipSpace s = '\x7b' :: rest) :
    shape.readRecord s = finish closeObject afterObject (shape.readMembers true [] rest) := by
  rw [readRecord, start]
  rfl

theorem Record.readRecord_eq (scalars : shape.OfScalars) {v us : List Piece} {entries : List ε}
    {s : List Char} (record : shape.Record v entries) (split : pieces s = v ++ us) :
    ∃ rest, shape.readRecord s = .ok (entries, rest) ∧ pieces rest = us := by
  cases record with
  | object reads =>
    simp only [objectPieces, enclosed, List.cons_append, List.append_assoc] at split
    obtain ⟨tail, start, found⟩ := start_of_mark split
    obtain ⟨inner, content, behind⟩ := reads.readMembers_eq scalars found
    obtain ⟨rest, closed, last⟩ := closeObject_takes behind
    exact ⟨rest, by rw [readRecord_object start, finish_of_ok content closed], last⟩
  | list lists =>
    simp only [listPieces, enclosed, List.cons_append, List.append_assoc] at split
    obtain ⟨tail, start, found⟩ := start_of_mark split
    obtain ⟨inner, content, behind⟩ := lists.readElements_eq scalars found
    obtain ⟨rest, closed, last⟩ := closeList_takes behind
    exact ⟨rest, by rw [readRecord_list start, finish_of_ok content closed], last⟩

theorem readRecord_gives (scalars : shape.OfScalars) {entries : List ε} {s rest : List Char}
    (done : shape.readRecord s = .ok (entries, rest)) :
    ∃ v, shape.Record v entries ∧ pieces s = v ++ pieces rest := by
  unfold readRecord at done
  split at done
  · rename_i tail start
    obtain ⟨inner, content, closed⟩ := finish_eq_ok done
    obtain ⟨elements, lists, split⟩ := readElements_gives scalars content closed
    refine ⟨listPieces elements, .list lists, ?_⟩
    rw [pieces_of_mark (by decide) start, split]
    simp [listPieces, enclosed, Container.opener, Container.closer]
  · rename_i tail start
    obtain ⟨inner, content, closed⟩ := finish_eq_ok done
    obtain ⟨pairs, indexed, last, reads, rfl, rfl, split⟩ := readMembers_gives scalars content
    have behind := closeObject_gives closed
    rw [pieces_of_mark (by decide) (skipSpace_cons (by decide))] at behind
    refine ⟨objectPieces pairs, .object reads, ?_⟩
    rw [pieces_of_mark (by decide) start, split, behind]
    simp [objectPieces, enclosed, Container.opener, Container.closer]
  · cases done

def Yields {α : Type} (shape : Shape ε) (make : List ε → α) (v : List Piece) (a : α) : Prop :=
  ∃ entries, shape.Record v entries ∧ make entries = a

theorem Yields.written {α : Type} {make : List ε → α} {v : List Piece} {a : α}
    (yields : shape.Yields make v a) : Written v := by
  obtain ⟨_, record, -⟩ := yields
  exact record.written

/-- What is read of a record depends on its pieces only. -/
theorem reading_readRecord (scalars : shape.OfScalars) : Reading shape.readRecord shape.Record where
  written := Record.written
  takes := Record.readRecord_eq scalars
  gives := fun done _ => readRecord_gives scalars done

end Shape

/-! ## Lists of values -/

section Lists

variable {α : Type} {reader : Reader α} {gives : List Piece → α → Prop} {first : Bool}
  {s rest : List Char} {values : List α}

theorem readMany_end (next : nextElement first s = .ok (false, rest)) :
    readMany reader first s = .ok ([], rest) := by
  rw [readMany]
  split <;> simp_all

theorem readMany_more (next : nextElement first s = .ok (true, rest)) :
    readMany reader first s =
      match reader.read rest with
      | .error fault => .error fault
      | .ok (a, rest) =>
        (readMany reader false rest).map fun (others, rest) => (a :: others, rest) := by
  conv => lhs; rw [readMany]
  split
  · simp_all
  · simp_all
  · rename_i other
    rw [next] at other
    cases other
    cases reader.read rest <;> rfl

theorem readMany_takes (reading : Reading reader.read gives) {elements : List (List Piece)}
    {us : List Piece} (each : List.Forall₂ gives elements values)
    (split : pieces s = separated first elements ++ .mark ']' :: us) :
    ∃ rest, readMany reader first s = .ok (values, rest) ∧ pieces rest = .mark ']' :: us := by
  induction each generalizing first s with
  | nil =>
    obtain ⟨rest, next, found⟩ := nextElement_end first split
    exact ⟨rest, readMany_end next, found⟩
  | cons given _ ih =>
    rw [separated, List.append_assoc, List.append_assoc] at split
    obtain ⟨mid, next, behind⟩ := nextElement_takes (reading.written given).begins split
    obtain ⟨after, read, found⟩ := reading.takes given behind
    obtain ⟨rest, later, last⟩ := ih found
    refine ⟨rest, ?_, last⟩
    rw [readMany_more next, read]
    dsimp only
    rw [later]
    rfl

theorem readMany_gives (reading : Reading reader.read gives)
    (done : readMany reader first s = .ok (values, rest)) :
    ∃ elements tail, List.Forall₂ gives elements values ∧ rest = ']' :: tail ∧
      pieces s = separated first elements ++ .mark ']' :: pieces tail := by
  fun_induction readMany reader first s generalizing values rest with
  | case1 | case3 => cases done
  | case2 first s start next =>
    cases done
    obtain ⟨tail, same, split⟩ := nextElement_gives_end next
    exact ⟨[], tail, .nil, same, split⟩
  | case4 first s start next a after read ih =>
    obtain ⟨⟨others, final⟩, result, same⟩ := map_eq_ok done
    cases same
    obtain ⟨elements, tail, each, closed, later⟩ := ih result
    obtain ⟨element, given, split⟩ := reading.gives read (stops_of_separated later)
    refine ⟨element :: elements, tail, .cons given each, closed, ?_⟩
    rw [nextElement_gives next, split, later]
    simp [separated]

theorem readList_eq (start : skipSpace s = '[' :: rest) :
    readList reader s = finish closeList afterList (readMany reader true rest) := by
  rw [readList, start]
  rfl

theorem written_of_forall₂ (written : ∀ {v : List Piece} {a : α}, gives v a → Written v)
    {elements : List (List Piece)} (each : List.Forall₂ gives elements values) :
    ∀ element ∈ elements, Written element := by
  induction each with
  | nil => simp
  | cons given _ ih => exact List.forall_mem_cons.2 ⟨written given, ih⟩

/-- A list is read element by element. -/
theorem Reading.readList (reading : Reading reader.read gives) :
    Reading (readList reader) fun v values =>
      ∃ elements, v = listPieces elements ∧ List.Forall₂ gives elements values where
  written := by
    rintro v values ⟨elements, rfl, each⟩
    exact .list (written_of_forall₂ reading.written each)
  takes := by
    rintro v values s us ⟨elements, rfl, each⟩ split
    simp only [listPieces, enclosed, List.cons_append, List.append_assoc] at split
    obtain ⟨tail, start, found⟩ := start_of_mark split
    obtain ⟨inner, content, behind⟩ := readMany_takes reading each found
    obtain ⟨rest, closed, last⟩ := closeList_takes behind
    exact ⟨rest, by rw [readList_eq start, finish_of_ok content closed], last⟩
  gives := by
    intro s values rest done _
    unfold Json.readList at done
    split at done
    · rename_i tail start
      obtain ⟨inner, content, closed⟩ := finish_eq_ok done
      obtain ⟨elements, last, each, rfl, split⟩ := readMany_gives reading content
      have behind := closeList_gives closed
      rw [pieces_of_mark (by decide) (skipSpace_cons (by decide))] at behind
      refine ⟨listPieces elements, ⟨elements, rfl, each⟩, ?_⟩
      rw [pieces_of_mark (by decide) start, split, behind]
      simp [listPieces, enclosed, Container.opener, Container.closer]
    · cases done

end Lists

end CodeRows.Json
