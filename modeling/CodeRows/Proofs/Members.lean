import CodeRows.Proofs.ReadBack
import Mathlib.Data.List.Nodup

/-! # Members in any order and under any name

Which entries an object gives is settled by its members one by one (`Shape.Judged`,
`Shape.reads_iff`), so it does not change when members are reordered, renamed within the names of
their fields or joined by others (`Shape.Variant`).  A record is filled slot by slot
(`Shape.Fills`): each field holds what its member gives, and a field without a member what it held
before. -/

set_option autoImplicit false

namespace CodeRows.Json

/-! ## The names of fields -/

def Field.names {ε : Type} (field : Field ε) : List String := field.name :: field.aliases

namespace Shape

variable {ε : Type} {shape : Shape ε}

def Unambiguous (shape : Shape ε) : Prop := (shape.fields.flatMap Field.names).Nodup

theorem Unambiguous.index_eq (distinct : shape.Unambiguous) {i j : Nat} {field other : Field ε}
    {key : String} (first : shape.fields[i]? = some field) (second : shape.fields[j]? = some other)
    (names : key ∈ field.names) (otherNames : key ∈ other.names) : i = j := by
  have disjoint := List.pairwise_iff_getElem.1 (List.nodup_flatMap.1 distinct).2
  obtain ⟨iBound, rfl⟩ := List.getElem?_eq_some_iff.1 first
  obtain ⟨jBound, rfl⟩ := List.getElem?_eq_some_iff.1 second
  rcases Nat.lt_trichotomy i j with before | same | behind
  · exact absurd otherNames (disjoint i j iBound jBound before names)
  · exact same
  · exact absurd names (disjoint j i jBound iBound behind otherNames)

theorem field?_eq_none_iff {key : String} :
    shape.field? key = none ↔ ∀ field ∈ shape.fields, key ∉ field.names := by
  rw [field?, List.find?_eq_none]
  constructor
  · intro none field member names
    obtain ⟨i, found⟩ := List.mem_iff_getElem?.1 member
    exact none (field, i) (List.mem_zipIdx_iff_getElem?.2 found)
      (by simpa [Field.names] using names)
  · rintro none ⟨field, i⟩ member
    have refused := none field (List.fst_mem_of_mem_zipIdx member)
    simpa [Field.names] using refused

theorem names_of_field? {key : String} {field : Field ε} {index : Nat}
    (found : shape.field? key = some (field, index)) :
    shape.fields[index]? = some field ∧ key ∈ field.names := by
  have accepted := List.find?_some found
  have member := List.mem_of_find?_eq_some found
  refine ⟨List.mem_zipIdx_iff_getElem?.1 member, ?_⟩
  simpa [Field.names] using accepted

theorem field?_eq_some_iff (distinct : shape.Unambiguous) {key : String} {field : Field ε}
    {index : Nat} :
    shape.field? key = some (field, index) ↔
      shape.fields[index]? = some field ∧ key ∈ field.names := by
  refine ⟨names_of_field?, fun ⟨at_, names⟩ => ?_⟩
  cases found : shape.field? key with
  | none => exact absurd names (field?_eq_none_iff.1 found field (List.mem_of_getElem? at_))
  | some other =>
    obtain ⟨other, i⟩ := other
    obtain ⟨otherAt, otherNames⟩ := names_of_field? found
    obtain rfl := distinct.index_eq otherAt at_ otherNames names
    rw [otherAt] at at_
    cases at_
    rfl

/-! ## What the members give, one by one -/

/-- The entries that members give, each member judged by itself. -/
inductive Judged (shape : Shape ε) : List Pair → List (Nat × ε) → Prop where
  | nil : Judged shape [] []
  | unknown {pair : Pair} {pairs : List Pair} {entries : List (Nat × ε)} :
      shape.Unknown pair → Judged shape pairs entries → Judged shape (pair :: pairs) entries
  | entry {pair : Pair} {pairs : List Pair} {entries : List (Nat × ε)} {index : Nat} {entry : ε} :
      shape.Gives pair index entry → Judged shape pairs entries →
        Judged shape (pair :: pairs) ((index, entry) :: entries)

theorem missing?_eq_none_iff {given : List Nat} :
    shape.missing? given = none ↔
      ∀ i < shape.required, i < shape.fields.length → i ∈ given := by
  rw [missing?, Option.map_eq_none_iff, List.find?_eq_none]
  constructor
  · intro all i required bound
    have found : (shape.fields.take shape.required)[i]? = some shape.fields[i] := by
      rw [List.getElem?_take_of_lt required, List.getElem?_eq_getElem bound]
    simpa using all (shape.fields[i], i) (List.mem_zipIdx_iff_getElem?.2 found)
  · rintro all ⟨field, i⟩ member
    obtain ⟨bound, -⟩ := List.getElem?_eq_some_iff.1 (List.mem_zipIdx_iff_getElem?.1 member)
    rw [List.length_take, Nat.lt_min] at bound
    simpa using all i bound.1 bound.2

/-- Members can be read together when each can, no field is given twice and none that is required
is missing. -/
theorem reads_iff {given : List Nat} {pairs : List Pair} {entries : List (Nat × ε)} :
    shape.Reads given pairs entries ↔
      shape.Judged pairs entries ∧ (entries.map Prod.fst).Nodup ∧
        (∀ i ∈ entries.map Prod.fst, i ∉ given) ∧
        ∀ i < shape.required, i < shape.fields.length → i ∈ given ∨ i ∈ entries.map Prod.fst := by
  constructor
  · intro reads
    induction reads with
    | nil complete => exact ⟨.nil, by simp, by simp, by simpa using missing?_eq_none_iff.1 complete⟩
    | unknown unknown _ ih =>
      obtain ⟨judged, others⟩ := ih
      exact ⟨.unknown unknown judged, others⟩
    | entry gives fresh _ ih =>
      obtain ⟨judged, nodup, later, complete⟩ := ih
      refine ⟨.entry gives judged, ?_, ?_, ?_⟩
      · rw [List.map_cons, List.nodup_cons]
        exact ⟨fun again => later _ again List.mem_cons_self, nodup⟩
      · rw [List.map_cons, List.forall_mem_cons]
        exact ⟨fresh, fun i member inGiven => later i member (List.mem_cons_of_mem _ inGiven)⟩
      · intro i required bound
        have found := complete i required bound
        grind
  · rintro ⟨judged, nodup, fresh, complete⟩
    induction judged generalizing given with
    | nil => exact .nil (missing?_eq_none_iff.2 (by simpa using complete))
    | unknown unknown _ ih => exact .unknown unknown (ih nodup fresh complete)
    | entry gives _ ih =>
      obtain ⟨notAgain, nodup⟩ := List.nodup_cons.1 nodup
      obtain ⟨new, fresh⟩ := List.forall_mem_cons.1 fresh
      refine .entry gives new (ih nodup (fun i member inGiven => ?_) fun i required bound => ?_)
      · rcases List.mem_cons.1 inGiven with rfl | before
        · exact notAgain member
        · exact fresh i member before
      · have found := complete i required bound
        grind

theorem Judged.perm {pairs others : List Pair} {entries : List (Nat × ε)}
    (judged : shape.Judged pairs entries) (perm : pairs.Perm others) :
    ∃ again, entries.Perm again ∧ shape.Judged others again := by
  induction perm generalizing entries with
  | nil => exact ⟨entries, .refl _, judged⟩
  | cons pair _ ih =>
    cases judged with
    | unknown unknown judged =>
      obtain ⟨again, same, found⟩ := ih judged
      exact ⟨again, same, .unknown unknown found⟩
    | entry gives judged =>
      obtain ⟨again, same, found⟩ := ih judged
      exact ⟨_, same.cons _, .entry gives found⟩
  | swap first second pairs =>
    -- Entries change places only if both members give one.
    cases judged with
    | unknown unknown judged =>
      cases judged with
      | unknown otherUnknown judged =>
        exact ⟨_, .refl _, .unknown otherUnknown (.unknown unknown judged)⟩
      | entry gives judged => exact ⟨_, .refl _, .entry gives (.unknown unknown judged)⟩
    | entry gives judged =>
      cases judged with
      | unknown unknown judged => exact ⟨_, .refl _, .unknown unknown (.entry gives judged)⟩
      | entry otherGives judged => exact ⟨_, .swap .., .entry otherGives (.entry gives judged)⟩
  | trans _ _ ih otherIh =>
    obtain ⟨mid, same, found⟩ := ih judged
    obtain ⟨again, otherSame, last⟩ := otherIh found
    exact ⟨again, same.trans otherSame, last⟩

theorem Judged.sublist {pairs others : List Pair} {entries : List (Nat × ε)}
    (judged : shape.Judged pairs entries) (sublist : others.Sublist pairs) :
    ∃ some, some.Sublist entries ∧ shape.Judged others some := by
  induction sublist generalizing entries with
  | slnil => exact ⟨entries, .refl _, judged⟩
  | cons pair _ ih =>
    cases judged with
    | unknown _ judged => exact ih judged
    | entry _ judged =>
      obtain ⟨some, part, found⟩ := ih judged
      exact ⟨some, part.cons _, found⟩
  | cons_cons pair _ ih =>
    cases judged with
    | unknown unknown judged =>
      obtain ⟨some, part, found⟩ := ih judged
      exact ⟨some, part, .unknown unknown found⟩
    | entry gives judged =>
      obtain ⟨some, part, found⟩ := ih judged
      exact ⟨_, part.cons_cons _, .entry gives found⟩

theorem Judged.exists_of_mem {pairs : List Pair} {entries : List (Nat × ε)}
    (judged : shape.Judged pairs entries) {index : Nat} {entry : ε}
    (member : (index, entry) ∈ entries) : ∃ pair ∈ pairs, shape.Gives pair index entry := by
  induction judged with
  | nil => cases member
  | unknown _ _ ih =>
    obtain ⟨pair, among, gives⟩ := ih member
    exact ⟨pair, List.mem_cons_of_mem _ among, gives⟩
  | entry gives _ ih =>
    rcases List.mem_cons.1 member with same | later
    · cases same
      exact ⟨_, List.mem_cons_self, gives⟩
    · obtain ⟨pair, among, given⟩ := ih later
      exact ⟨pair, List.mem_cons_of_mem _ among, given⟩

/-- A member whose key names a field gives an entry. -/
theorem Judged.of_names (distinct : shape.Unambiguous) {pair : Pair} {pairs : List Pair}
    {entries : List (Nat × ε)} (judged : shape.Judged (pair :: pairs) entries) {key : String}
    {field : Field ε} {index : Nat} (names : pair.Names key)
    (found : shape.fields[index]? = some field) (accepted : key ∈ field.names) :
    ∃ entry others, entries = (index, entry) :: others ∧ field.reader.Gives pair.value entry ∧
      shape.Judged pairs others := by
  have known := (field?_eq_some_iff distinct).2 ⟨found, accepted⟩
  cases judged with
  | unknown unknown _ =>
    obtain ⟨other, otherNames, none, -⟩ := unknown
    rw [otherNames.unique names, known] at none
    cases none
  | entry gives judged =>
    obtain ⟨other, otherField, otherNames, otherKnown, value⟩ := gives
    rw [otherNames.unique names, known] at otherKnown
    cases otherKnown
    exact ⟨_, _, rfl, value, judged⟩

end Shape

/-! ## Values of members that are added -/

/-- What can stand between the quotes of a string: visible characters other than quotes and
backslashes, escapes of one letter and escapes of four hexadecimal digits. -/
inductive Spelt : List Char → Prop where
  | nil : Spelt []
  | plain {c : Char} {rest : List Char} :
      c ≠ '"' → c ≠ '\\' → 0x20 ≤ c.toNat → Spelt rest → Spelt (c :: rest)
  | letter {c : Char} {rest : List Char} :
      c ∈ ['"', '\\', '/', 'b', 'f', 'n', 'r', 't'] → Spelt rest → Spelt ('\\' :: c :: rest)
  | digits {a b c d : Char} {rest : List Char} :
      (∀ digit ∈ [a, b, c, d], (hexValue? digit).isSome) → Spelt rest →
        Spelt ('\\' :: 'u' :: a :: b :: c :: d :: rest)

theorem Spelt.readChars_eq {inside : List Char} (spelt : Spelt inside) (rest : List Char) :
    ∃ chars, readChars false (inside ++ '"' :: rest) = .ok (chars, rest) := by
  induction spelt with
  | nil => exact ⟨[], by rw [List.nil_append, readChars, if_pos rfl]⟩
  | @plain c tail notQuote notSlash visible _ ih =>
    obtain ⟨chars, done⟩ := ih
    refine ⟨c :: chars, ?_⟩
    rw [List.cons_append, readChars, if_neg notQuote, if_neg notSlash,
      if_neg (Nat.not_lt.2 visible), done]
    rfl
  | @letter c tail simple _ ih =>
    obtain ⟨chars, done⟩ := ih
    have all : List.all ['"', '\\', '/', 'b', 'f', 'n', 'r', 't']
        (fun c => (simpleEscape? c).isSome) = true := by decide
    obtain ⟨d, escape⟩ := Option.isSome_iff_exists.1 (List.all_eq_true.1 all c simple)
    refine ⟨d :: chars, ?_⟩
    have read : readEscape false (c :: (tail ++ '"' :: rest)) = .ok (d, tail ++ '"' :: rest) := by
      rw [readEscape, escape]
    rw [List.cons_append, List.cons_append, readChars_escape read, done]
    rfl
  | @digits a b c d tail hex _ ih =>
    obtain ⟨chars, done⟩ := ih
    simp only [List.forall_mem_cons, Option.isSome_iff_exists] at hex
    obtain ⟨⟨i, hexA⟩, ⟨j, hexB⟩, ⟨k, hexC⟩, ⟨l, hexD⟩, -⟩ := hex
    obtain ⟨e, read⟩ : ∃ e, readEscape false ('u' :: a :: b :: c :: d :: (tail ++ '"' :: rest)) =
        .ok (e, tail ++ '"' :: rest) := by
      refine ⟨Char.ofNat (((i * 16 + j) * 16 + k) * 16 + l), ?_⟩
      rw [readEscape]
      dsimp only [simpleEscape?]
      rw [if_pos rfl, numericEscape, hexWord, hexWord?, hexA, hexB, hexC, hexD]
      rfl
    refine ⟨e :: chars, ?_⟩
    simp only [List.cons_append]
    rw [readChars_escape read, done]
    rfl

inductive Plain : List Piece → Prop where
  | null : Plain [.word "null".toList]
  | boolean (value : Bool) : Plain [.word (writeBool value)]
  | integer (negative : Bool) (magnitude : Nat) : Plain [.word (signed negative magnitude)]
  | string {inside : List Char} : Spelt inside → Plain [.string inside]

theorem sound_signed (negative : Bool) (n : Nat) : (Piece.word (signed negative n)).Sound := by
  obtain ⟨c, rest, same, numeric⟩ := signed_eq_cons negative n
  have letter := isLetter_minus_or_digit numeric
  have spelt := readSpelling_signed .badNumber negative n
  apply skipPiece_eq_ok_iff.2
  rw [Piece.chars, same, skipSpace_cons (not_isSpace_of_isLetter letter), skipScalar, if_neg,
    if_neg, if_neg, if_neg, if_pos numeric, ← same, spelt]
  · rfl
  all_goals
    rintro rfl
    exact absurd numeric (by decide)

theorem Plain.value {v : List Piece} (plain : Plain v) : Value Piece.Sound v := by
  cases plain with
  | null => exact .scalar rfl rfl
  | boolean value => cases value <;> exact .scalar rfl rfl
  | integer negative n => exact .scalar rfl (sound_signed negative n)
  | string spelt =>
    obtain ⟨chars, done⟩ := spelt.readChars_eq []
    exact .scalar rfl (sound_of_readChars done)

/-! ## The same members in another form -/

namespace Shape

variable {ε : Type} {shape : Shape ε}

/-- Members that come in another order or under other names of their fields, or with others that
no field accepts. -/
inductive Variant (shape : Shape ε) : List Pair → List Pair → Prop where
  | reordered {pairs others : List Pair} : pairs.Perm others → Variant shape pairs others
  | renamed {pair other : Pair} {pairs : List Pair} {field : Field ε} {key otherKey : String} :
      field ∈ shape.fields → key ∈ field.names → otherKey ∈ field.names → pair.Names key →
        other.Names otherKey → pair.value = other.value →
          Variant shape (pair :: pairs) (other :: pairs)
  | added {pair : Pair} {pairs : List Pair} {key : String} :
      pair.Names key → (∀ field ∈ shape.fields, key ∉ field.names) → Plain pair.value →
        Variant shape pairs (pair :: pairs)
  | trans {pairs mid others : List Pair} :
      Variant shape pairs mid → Variant shape mid others → Variant shape pairs others

theorem Variant.written {pairs others : List Pair} (variant : shape.Variant pairs others)
    (written : ∀ pair ∈ pairs, Written pair.value) : ∀ pair ∈ others, Written pair.value := by
  induction variant with
  | reordered perm => exact fun pair member => written pair (perm.mem_iff.2 member)
  | renamed _ _ _ _ _ same =>
    obtain ⟨first, later⟩ := List.forall_mem_cons.1 written
    exact List.forall_mem_cons.2 ⟨same ▸ first, later⟩
  | added _ _ plain => exact List.forall_mem_cons.2 ⟨plain.value.written, written⟩
  | trans _ _ ih otherIh => exact otherIh (ih written)

theorem Judged.renamed (distinct : shape.Unambiguous) {pair other : Pair} {pairs : List Pair}
    {field : Field ε} {key otherKey : String} {entries : List (Nat × ε)}
    (member : field ∈ shape.fields) (accepted : key ∈ field.names)
    (otherAccepted : otherKey ∈ field.names) (names : pair.Names key)
    (otherNames : other.Names otherKey) (same : pair.value = other.value)
    (judged : shape.Judged (pair :: pairs) entries) : shape.Judged (other :: pairs) entries := by
  obtain ⟨index, found⟩ := List.mem_iff_getElem?.1 member
  obtain ⟨entry, others, rfl, value, later⟩ := judged.of_names distinct names found accepted
  rw [same] at value
  exact .entry ⟨otherKey, field, otherNames, (field?_eq_some_iff distinct).2 ⟨found, otherAccepted⟩,
    value⟩ later

theorem Judged.of_added {pair : Pair} {pairs : List Pair} {key : String} {entries : List (Nat × ε)}
    (names : pair.Names key) (none : shape.field? key = none)
    (judged : shape.Judged (pair :: pairs) entries) : shape.Judged pairs entries := by
  cases judged with
  | unknown _ judged => exact judged
  | entry gives _ =>
    obtain ⟨other, _, otherNames, found, -⟩ := gives
    rw [otherNames.unique names, none] at found
    cases found

/-- A variant gives the same entries, up to their order. -/
theorem Variant.judged (distinct : shape.Unambiguous) {pairs others : List Pair}
    (variant : shape.Variant pairs others) :
    (∀ entries, shape.Judged pairs entries →
        ∃ again, entries.Perm again ∧ shape.Judged others again) ∧
      ∀ entries, shape.Judged others entries →
        ∃ again, entries.Perm again ∧ shape.Judged pairs again := by
  induction variant with
  | reordered perm =>
    exact ⟨fun _ judged => judged.perm perm, fun _ judged => judged.perm perm.symm⟩
  | renamed member accepted otherAccepted names otherNames same =>
    exact ⟨fun _ judged => ⟨_, .refl _,
        judged.renamed distinct member accepted otherAccepted names otherNames same⟩,
      fun _ judged => ⟨_, .refl _,
        judged.renamed distinct member otherAccepted accepted otherNames names same.symm⟩⟩
  | @added pair pairs key names foreign plain =>
    have none := field?_eq_none_iff.2 foreign
    exact ⟨fun _ judged => ⟨_, .refl _, .unknown ⟨key, names, none, plain.value⟩ judged⟩,
      fun _ judged => ⟨_, .refl _, judged.of_added names none⟩⟩
  | trans _ _ ih otherIh =>
    constructor
    · intro entries judged
      obtain ⟨mid, same, found⟩ := ih.1 entries judged
      obtain ⟨again, otherSame, last⟩ := otherIh.1 mid found
      exact ⟨again, same.trans otherSame, last⟩
    · intro entries judged
      obtain ⟨mid, same, found⟩ := otherIh.2 entries judged
      obtain ⟨again, otherSame, last⟩ := ih.2 mid found
      exact ⟨again, same.trans otherSame, last⟩

theorem Reads.of_perm {given : List Nat} {pairs others : List Pair} {entries again : List (Nat × ε)}
    (reads : shape.Reads given pairs entries) (perm : entries.Perm again)
    (judged : shape.Judged others again) : shape.Reads given others again := by
  obtain ⟨-, nodup, fresh, complete⟩ := reads_iff.1 reads
  have indices := perm.map Prod.fst
  refine reads_iff.2 ⟨judged, indices.nodup_iff.1 nodup, fun i member => ?_,
    fun i required bound => ?_⟩
  · exact fresh i (indices.mem_iff.2 member)
  · rw [← indices.mem_iff]
    exact complete i required bound

/-! ## Records filled slot by slot -/

/-- Entries go to the slots of their fields; `view` lists what the slots of a record hold. -/
structure Fills {α : Type} (shape : Shape ε) (assign : α → ε → α) (slot : ε → Nat)
    (view : α → List ε) : Prop where
  unambiguous : shape.Unambiguous
  slot_eq : ∀ {index : Nat} {field : Field ε} {v : List Piece} {entry : ε},
    shape.fields[index]? = some field → field.reader.Gives v entry → slot entry = index
  view_assign : ∀ (a : α) (entry : ε) (i : Nat),
    (view (assign a entry))[i]? = if slot entry = i then some entry else (view a)[i]?
  ext : Function.Injective view

section Filling

variable {α : Type} {assign : α → ε → α} {slot : ε → Nat} {view : α → List ε}

theorem Fills.slots (fills : shape.Fills assign slot view) {pairs : List Pair}
    {entries : List (Nat × ε)} (judged : shape.Judged pairs entries) :
    (entries.map Prod.snd).map slot = entries.map Prod.fst := by
  induction judged with
  | nil => rfl
  | unknown _ _ ih => exact ih
  | entry gives _ ih =>
    obtain ⟨key, field, -, found, value⟩ := gives
    simp only [List.map_cons, ih, fills.slot_eq (names_of_field? found).1 value]

theorem Fills.view_foldl_absent (fills : shape.Fills assign slot view) {entries : List ε} {i : Nat}
    (absent : ∀ entry ∈ entries, slot entry ≠ i) (a : α) :
    (view (entries.foldl assign a))[i]? = (view a)[i]? := by
  induction entries generalizing a with
  | nil => rfl
  | cons entry entries ih =>
    obtain ⟨other, later⟩ := List.forall_mem_cons.1 absent
    rw [List.foldl_cons, ih later, fills.view_assign, if_neg other]

theorem Fills.view_foldl_mem (fills : shape.Fills assign slot view) {entries : List ε} {entry : ε}
    (nodup : (entries.map slot).Nodup) (member : entry ∈ entries) (a : α) :
    (view (entries.foldl assign a))[slot entry]? = some entry := by
  induction entries generalizing a with
  | nil => cases member
  | cons first entries ih =>
    rw [List.map_cons, List.nodup_cons] at nodup
    rw [List.foldl_cons]
    rcases List.mem_cons.1 member with rfl | later
    · have absent : ∀ other ∈ entries, slot other ≠ slot entry :=
        fun other among same => nodup.1 (List.mem_map.2 ⟨other, among, same⟩)
      rw [fills.view_foldl_absent absent, fills.view_assign, if_pos rfl]
    · exact ih nodup.2 later _

/-- Entries of different slots can be put in in any order. -/
theorem Fills.foldl_perm (fills : shape.Fills assign slot view) {entries others : List ε}
    (nodup : (entries.map slot).Nodup) (perm : entries.Perm others) (a : α) :
    entries.foldl assign a = others.foldl assign a := by
  have otherNodup := (perm.map slot).nodup_iff.1 nodup
  -- Slot by slot: one entry goes there, the same in both lists, or none does.
  apply fills.ext
  apply List.ext_getElem?
  intro i
  by_cases present : ∃ entry ∈ entries, slot entry = i
  · obtain ⟨entry, member, rfl⟩ := present
    rw [fills.view_foldl_mem nodup member, fills.view_foldl_mem otherNodup (perm.mem_iff.1 member)]
  · have absent : ∀ entry ∈ entries, slot entry ≠ i :=
      fun entry member same => present ⟨entry, member, same⟩
    rw [fills.view_foldl_absent absent,
      fills.view_foldl_absent fun entry member => absent entry (perm.mem_iff.2 member)]

end Filling

end Shape

/-! ## Objects -/

structure HasMembers (v : List Piece) (pairs : List Pair) : Prop where
  eq : v = objectPieces pairs
  written : ∀ pair ∈ pairs, Written pair.value

namespace Shape

variable {ε : Type} {shape : Shape ε}

theorem record_iff_of_hasMembers {v : List Piece} {pairs : List Pair} (object : HasMembers v pairs)
    {entries : List ε} :
    shape.Record v entries ↔
      ∃ indexed, shape.Reads [] pairs indexed ∧ indexed.map Prod.snd = entries := by
  obtain ⟨rfl, written⟩ := object
  constructor
  · intro record
    -- The pieces are those of no other object, and of no list.
    generalize same : objectPieces pairs = v at record
    cases record with
    | @object others indexed reads =>
      rw [← eq_of_objectPieces_eq written reads.written same] at reads
      exact ⟨indexed, reads, rfl⟩
    | list _ => exact absurd (List.cons.inj same).1 (by decide)
  · rintro ⟨indexed, reads, rfl⟩
    exact .object reads

def Omits (pairs : List Pair) (field : Field ε) : Prop :=
  ∀ pair ∈ pairs, ∀ key ∈ field.names, ¬ pair.Names key

def Repeats (shape : Shape ε) (pairs : List Pair) : Prop :=
  ∃ field ∈ shape.fields, ∃ (first second : Pair) (key otherKey : String),
    [first, second].Sublist pairs ∧ first.Names key ∧ second.Names otherKey ∧
      key ∈ field.names ∧ otherKey ∈ field.names

/-- Values that are the same, or objects with the same members in another form. -/
inductive Alike (shape : Shape ε) : List Piece → List Piece → Prop where
  | same {v : List Piece} : Written v → Alike shape v v
  | object {v w : List Piece} {pairs others : List Pair} :
      HasMembers v pairs → w = objectPieces others → shape.Variant pairs others → Alike shape v w

theorem Alike.written {v w : List Piece} (alike : shape.Alike v w) : Written v ∧ Written w := by
  cases alike with
  | same written => exact ⟨written, written⟩
  | object object same variant =>
    obtain ⟨rfl, written⟩ := object
    rw [same]
    exact ⟨.object (fun _ _ => trivial) written,
      .object (fun _ _ => trivial) (variant.written written)⟩

section Filling

variable {α : Type} {assign : α → ε → α} {slot : ε → Nat} {view : α → List ε} {start a : α}
  {v w : List Piece} {pairs others : List Pair}

theorem not_record_of_repeats (distinct : shape.Unambiguous) (object : HasMembers v pairs)
    (repeats : shape.Repeats pairs) (entries : List ε) : ¬ shape.Record v entries := by
  intro record
  obtain ⟨indexed, reads, -⟩ := (record_iff_of_hasMembers object).1 record
  obtain ⟨judged, nodup, -⟩ := reads_iff.1 reads
  obtain ⟨field, member, first, second, key, otherKey, sublist, names, otherNames, accepted,
    otherAccepted⟩ := repeats
  obtain ⟨index, found⟩ := List.mem_iff_getElem?.1 member
  -- Both members would give an entry, each with the index of the field.
  obtain ⟨some, part, both⟩ := judged.sublist sublist
  obtain ⟨entry, _, rfl, -, rest⟩ := both.of_names distinct names found accepted
  obtain ⟨other, _, rfl, -, -⟩ := rest.of_names distinct otherNames found otherAccepted
  have twice := nodup.sublist (part.map Prod.fst)
  simp at twice

theorem Fills.yields_of_judged (fills : shape.Fills assign slot view) (object : HasMembers v pairs)
    (other : HasMembers w others)
    (judged : ∀ entries, shape.Judged pairs entries →
      ∃ again, entries.Perm again ∧ shape.Judged others again)
    (yields : shape.Yields (List.foldl assign start) v a) :
    shape.Yields (List.foldl assign start) w a := by
  obtain ⟨_, record, rfl⟩ := yields
  obtain ⟨indexed, reads, rfl⟩ := (record_iff_of_hasMembers object).1 record
  obtain ⟨found, nodup, -⟩ := reads_iff.1 reads
  obtain ⟨again, perm, otherFound⟩ := judged indexed found
  refine ⟨again.map Prod.snd,
    (record_iff_of_hasMembers other).2 ⟨again, reads.of_perm perm otherFound, rfl⟩, ?_⟩
  rw [← fills.slots found] at nodup
  exact (fills.foldl_perm nodup (perm.map Prod.snd) start).symm

theorem Fills.yields_iff (fills : shape.Fills assign slot view) (alike : shape.Alike v w) :
    shape.Yields (List.foldl assign start) v a ↔ shape.Yields (List.foldl assign start) w a := by
  cases alike with
  | same _ => exact Iff.rfl
  | @object _ _ others object same variant =>
    have other : HasMembers w others := ⟨same, variant.written object.written⟩
    obtain ⟨onto, back⟩ := variant.judged fills.unambiguous
    exact ⟨fills.yields_of_judged object other onto, fills.yields_of_judged other object back⟩

theorem Fills.view_of_omits (fills : shape.Fills assign slot view) (object : HasMembers v pairs)
    (yields : shape.Yields (List.foldl assign start) v a) {i : Nat} {field : Field ε}
    (found : shape.fields[i]? = some field) (omits : Omits pairs field) :
    (view a)[i]? = (view start)[i]? := by
  obtain ⟨_, record, rfl⟩ := yields
  obtain ⟨indexed, reads, rfl⟩ := (record_iff_of_hasMembers object).1 record
  obtain ⟨judged, -⟩ := reads_iff.1 reads
  apply fills.view_foldl_absent
  intro entry member same
  obtain ⟨⟨index, _⟩, among, rfl⟩ := List.mem_map.1 member
  obtain ⟨pair, inPairs, key, other, names, known, value⟩ := judged.exists_of_mem among
  obtain ⟨otherFound, accepted⟩ := names_of_field? known
  obtain rfl : index = i := by rw [← same, fills.slot_eq otherFound value]
  rw [found] at otherFound
  cases otherFound
  exact omits pair inPairs key accepted names

end Filling

end Shape

end CodeRows.Json

namespace CodeRows

open Json

namespace Settings

def Entry.slot : Entry → Nat
  | lineNumbers _ => 0
  | highlighting _ => 1
  | firstNumber _ => 2
  | gutterWidth _ => 3
  | lastRowOnly _ => 4

def entries (settings : Settings) : List Entry :=
  [.lineNumbers settings.lineNumbers, .highlighting settings.highlighting,
    .firstNumber settings.firstNumber, .gutterWidth settings.gutterWidth,
    .lastRowOnly settings.lastRowOnly]

theorem fills_shape : shape.Fills assign Entry.slot entries where
  unambiguous := by
    rw [Shape.Unambiguous]
    decide
  slot_eq := by
    rintro index field v entry found ⟨p, -, -, done⟩
    rcases index with _ | _ | _ | _ | _ | index <;> cases found <;>
      obtain ⟨a, -, rfl⟩ := map_fst_eq_ok_iff.1 done <;> rfl
  view_assign := by
    intro settings entry i
    rcases i with _ | _ | _ | _ | _ | i <;> cases entry <;> rfl
  ext := by
    intro a b same
    cases a
    cases b
    simpa [entries] using same

/-- What is read is a value, whatever blanks stand between its pieces. -/
theorem laid_of_ofJson {s : String} {settings : Settings} (done : ofJson s = .ok settings) :
    ∃ v, Written v ∧ Laid v s.toList := by
  obtain ⟨yields, -⟩ := ofJson_eq_ok_iff.1 done
  exact ⟨_, yields.written, laid_pieces yields.written.closed⟩

theorem ofJson_iff_of_alike {s t : String} {v w : List Piece} (alike : shape.Alike v w)
    (laid : Laid v s.toList) (otherLaid : Laid w t.toList) (settings : Settings) :
    ofJson s = .ok settings ↔ ofJson t = .ok settings := by
  rw [ofJson_eq_ok_iff, ofJson_eq_ok_iff, laid.pieces_eq, otherLaid.pieces_eq]
  exact and_congr_left' (fills_shape.yields_iff alike)

theorem ofJson_of_omits {s : String} {v : List Piece} {pairs : List Pair} {settings : Settings}
    (object : HasMembers v pairs) (laid : Laid v s.toList) (done : ofJson s = .ok settings)
    {i : Nat} {field : Json.Field Entry} (found : shape.fields[i]? = some field)
    (omits : Shape.Omits pairs field) :
    settings.entries[i]? = (entries {})[i]? := by
  obtain ⟨yields, -⟩ := ofJson_eq_ok_iff.1 done
  rw [laid.pieces_eq] at yields
  exact fills_shape.view_of_omits object yields found omits

theorem ofJson_of_repeats {s : String} {v : List Piece} {pairs : List Pair}
    (object : HasMembers v pairs) (laid : Laid v s.toList) (repeats : shape.Repeats pairs) :
    ∃ cause line column, ofJson s = .error (.json cause line column) := by
  have reading := Shape.reading_readRecord ofScalars_shape
  cases whole : readAll shape.readRecord s with
  | ok entries =>
    rw [reading.readAll_eq_ok_iff, laid.pieces_eq] at whole
    exact absurd whole (Shape.not_record_of_repeats fills_shape.unambiguous object repeats entries)
  | error fault =>
    obtain ⟨cause, line, column⟩ := fault
    exact ⟨cause, line, column, by rw [ofJson, whole]⟩

end Settings

namespace Snippet

def Entry.slot : Entry → Nat
  | text _ => 0
  | kind _ => 1

def entries (snippet : Snippet) : List Entry := [.text snippet.text, .kind snippet.kind]

theorem fills_shape : shape.Fills assign Entry.slot entries where
  unambiguous := by
    rw [Shape.Unambiguous]
    decide
  slot_eq := by
    rintro index field v entry found ⟨p, -, -, done⟩
    rcases index with _ | _ | index <;> cases found <;>
      obtain ⟨a, -, rfl⟩ := map_fst_eq_ok_iff.1 done <;> rfl
  view_assign := by
    intro snippet entry i
    rcases i with _ | _ | i <;> cases entry <;> rfl
  ext := by
    intro a b same
    cases a
    cases b
    simpa [entries] using same

theorem laid_of_listOfJson {s : String} {snippets : List Snippet}
    (done : listOfJson s = .ok snippets) :
    ∃ vs, (∀ v ∈ vs, Written v) ∧ Laid (listPieces vs) s.toList := by
  obtain ⟨vs, split, each⟩ := listOfJson_eq_ok_iff.1 done
  have written := written_of_forall₂ Shape.Yields.written each
  have list : Written (pieces s.toList) := split ▸ .list written
  exact ⟨vs, written, split ▸ laid_pieces list.closed⟩

theorem listOfJson_iff_of_laid {s : String} {vs : List (List Piece)} {snippets : List Snippet}
    (written : ∀ v ∈ vs, Written v) (laid : Laid (listPieces vs) s.toList) :
    listOfJson s = .ok snippets ↔ List.Forall₂ (shape.Yields ofEntries) vs snippets := by
  rw [listOfJson_eq_ok_iff, laid.pieces_eq]
  constructor
  · rintro ⟨elements, same, each⟩
    rw [eq_of_listPieces_eq written (written_of_forall₂ Shape.Yields.written each) same]
    exact each
  · exact fun each => ⟨vs, rfl, each⟩

theorem forall₂_yields_of_alike {vs ws : List (List Piece)} (alike : List.Forall₂ shape.Alike vs ws)
    {snippets : List Snippet} :
    List.Forall₂ (shape.Yields ofEntries) vs snippets ↔
      List.Forall₂ (shape.Yields ofEntries) ws snippets := by
  induction alike generalizing snippets with
  | nil => exact Iff.rfl
  | @cons v w vs ws first _ ih =>
    have same : ∀ snippet, shape.Yields ofEntries v snippet ↔ shape.Yields ofEntries w snippet :=
      fun _ => fills_shape.yields_iff first
    simp only [List.forall₂_cons_left_iff, same, ih]

theorem listOfJson_iff_of_alike {s t : String} {vs ws : List (List Piece)}
    (alike : List.Forall₂ shape.Alike vs ws) (laid : Laid (listPieces vs) s.toList)
    (otherLaid : Laid (listPieces ws) t.toList) (snippets : List Snippet) :
    listOfJson s = .ok snippets ↔ listOfJson t = .ok snippets := by
  have written := written_of_forall₂ (fun alike => alike.written.1) alike
  have otherWritten := written_of_forall₂ (fun alike => alike.written.2) alike.flip
  rw [listOfJson_iff_of_laid written laid, listOfJson_iff_of_laid otherWritten otherLaid,
    forall₂_yields_of_alike alike]

/-- What an element of the list stands for is found at its index. -/
theorem exists_yields_of_getElem? {vs : List (List Piece)} {snippets : List Snippet}
    (each : List.Forall₂ (shape.Yields ofEntries) vs snippets) {i : Nat} {v : List Piece}
    (found : vs[i]? = some v) :
    ∃ snippet, snippets[i]? = some snippet ∧ shape.Yields ofEntries v snippet := by
  obtain ⟨bound, rfl⟩ := List.getElem?_eq_some_iff.1 found
  have otherBound : i < snippets.length := each.length_eq ▸ bound
  exact ⟨_, List.getElem?_eq_getElem otherBound, each.get bound otherBound⟩

theorem listOfJson_of_omits {s : String} {vs : List (List Piece)} {snippets : List Snippet}
    (written : ∀ v ∈ vs, Written v) (laid : Laid (listPieces vs) s.toList)
    (done : listOfJson s = .ok snippets) {i : Nat} {v : List Piece} {pairs : List Pair}
    (found : vs[i]? = some v) (object : HasMembers v pairs)
    (omits : ∀ pair ∈ pairs, ¬ pair.Names "kind" ∧ ¬ pair.Names "type") :
    ∃ snippet, snippets[i]? = some snippet ∧ snippet.kind = none := by
  have each := (listOfJson_iff_of_laid written laid).1 done
  obtain ⟨snippet, same, yields⟩ := exists_yields_of_getElem? each found
  refine ⟨snippet, same, ?_⟩
  have noKind : Shape.Omits pairs ⟨"kind", ["type"], Reader.textOrNull.map Entry.kind⟩ := by
    intro pair member key names
    simp only [Field.names, List.mem_cons, List.not_mem_nil, or_false] at names
    rcases names with rfl | rfl
    · exact (omits pair member).1
    · exact (omits pair member).2
  have view : snippet.entries[1]? = (entries ⟨"", none⟩)[1]? :=
    fills_shape.view_of_omits object yields rfl noKind
  simpa [entries] using view

theorem listOfJson_of_repeats {s : String} {vs : List (List Piece)}
    (written : ∀ v ∈ vs, Written v) (laid : Laid (listPieces vs) s.toList) {v : List Piece}
    {pairs : List Pair} (member : v ∈ vs) (object : HasMembers v pairs)
    (repeats : shape.Repeats pairs) :
    ∃ cause line column, listOfJson s = .error (.json cause line column) := by
  cases done : listOfJson s with
  | ok snippets =>
    have each := (listOfJson_iff_of_laid written laid).1 done
    obtain ⟨i, found⟩ := List.mem_iff_getElem?.1 member
    obtain ⟨_, -, entries, record, -⟩ := exists_yields_of_getElem? each found
    exact absurd record (Shape.not_record_of_repeats fills_shape.unambiguous object repeats entries)
  | error fault =>
    rw [listOfJson] at done
    split at done
    · cases done
    · cases done
      exact ⟨_, _, _, rfl⟩

end Snippet

/-- Neither the order of the members of an object, nor which name of a field is used, nor members
that no field accepts, nor blanks make a difference to what is read; a field without a member has
its standard value, and an object that gives a field twice is refused.  Every text that is read at
all is laid out of a value. -/
theorem objects_read_by_members :
    (Settings.shape.fields.map Field.names = [["useLineNumbers", "lineNumBool"],
      ["useSyntaxHighlighting", "syntaxHighlightingBool"], ["lineNumberStart", "lineNumStart"],
      ["firstColumnWidth", "cellWidth"], ["restrictInsertToEnd"]] ∧
      Snippet.shape.fields.map Field.names = [["text"], ["kind", "type"]]) ∧
    (∀ {s : String} {settings : Settings}, Settings.ofJson s = .ok settings →
      ∃ v, Written v ∧ Laid v s.toList) ∧
    (∀ {s : String} {snippets : List Snippet}, Snippet.listOfJson s = .ok snippets →
      ∃ vs, (∀ v ∈ vs, Written v) ∧ Laid (listPieces vs) s.toList) ∧
    (∀ {s t : String} {v w : List Piece}, Settings.shape.Alike v w →
      Laid v s.toList → Laid w t.toList →
        ∀ settings, Settings.ofJson s = .ok settings ↔ Settings.ofJson t = .ok settings) ∧
    (∀ {s t : String} {vs ws : List (List Piece)}, List.Forall₂ Snippet.shape.Alike vs ws →
      Laid (listPieces vs) s.toList → Laid (listPieces ws) t.toList →
        ∀ snippets, Snippet.listOfJson s = .ok snippets ↔ Snippet.listOfJson t = .ok snippets) ∧
    (∀ {s : String} {v : List Piece} {pairs : List Pair} {settings : Settings}, HasMembers v pairs →
      Laid v s.toList → Settings.ofJson s = .ok settings →
        ∀ {i : Nat} {field : Json.Field Settings.Entry}, Settings.shape.fields[i]? = some field →
          Shape.Omits pairs field → settings.entries[i]? = (Settings.entries {})[i]?) ∧
    (∀ {s : String} {vs : List (List Piece)} {snippets : List Snippet}, (∀ v ∈ vs, Written v) →
      Laid (listPieces vs) s.toList → Snippet.listOfJson s = .ok snippets →
        ∀ {i : Nat} {v : List Piece} {pairs : List Pair}, vs[i]? = some v → HasMembers v pairs →
          (∀ pair ∈ pairs, ¬ pair.Names "kind" ∧ ¬ pair.Names "type") →
            ∃ snippet, snippets[i]? = some snippet ∧ snippet.kind = none) ∧
    (∀ {s : String} {v : List Piece} {pairs : List Pair}, HasMembers v pairs → Laid v s.toList →
      Settings.shape.Repeats pairs →
        ∃ cause line column, Settings.ofJson s = .error (.json cause line column)) ∧
    ∀ {s : String} {vs : List (List Piece)}, (∀ v ∈ vs, Written v) → Laid (listPieces vs) s.toList →
      ∀ {v : List Piece} {pairs : List Pair}, v ∈ vs → HasMembers v pairs →
        Snippet.shape.Repeats pairs →
          ∃ cause line column, Snippet.listOfJson s = .error (.json cause line column) :=
  ⟨⟨rfl, rfl⟩, Settings.laid_of_ofJson, Snippet.laid_of_listOfJson, Settings.ofJson_iff_of_alike,
    Snippet.listOfJson_iff_of_alike, Settings.ofJson_of_omits, Snippet.listOfJson_of_omits,
    Settings.ofJson_of_repeats, Snippet.listOfJson_of_repeats⟩

/-- A number under its second name, behind a note and among blanks. -/
theorem objects_read_by_members_lineNumStart :
    Settings.ofJson "\x7b\"lineNumberStart\":7\x7d" = .ok { firstNumber := 7 } ∧
      Settings.ofJson " \x7b\"note\":null, \"lineNumStart\" : 7 \x7d" = .ok { firstNumber := 7 } ∧
      ∃ cause line column, Settings.ofJson "\x7b\"lineNumberStart\":7,\"lineNumStart\":7\x7d" =
        .error (.json cause line column) := by
  have plain : Settings.ofJson "\x7b\"lineNumberStart\":7\x7d" = .ok { firstNumber := 7 } := by
    decide +kernel
  have value : Written [.word ['7']] := .scalar rfl trivial
  have names : Pair.Names ⟨"lineNumberStart".toList, [.word ['7']]⟩ "lineNumberStart" := by
    rw [Pair.Names]
    decide +kernel
  have otherNames : Pair.Names ⟨"lineNumStart".toList, [.word ['7']]⟩ "lineNumStart" := by
    rw [Pair.Names]
    decide +kernel
  have note : Pair.Names ⟨"note".toList, [.word "null".toList]⟩ "note" := by
    rw [Pair.Names]
    decide +kernel
  have key : splitString ("lineNumberStart".toList ++ ['"']) =
      some ("lineNumberStart".toList, []) := by decide +kernel
  have otherKey : splitString ("lineNumStart".toList ++ ['"']) =
      some ("lineNumStart".toList, []) := by decide +kernel
  have noteKey : splitString ("note".toList ++ ['"']) = some ("note".toList, []) := by
    decide +kernel
  have number : ⟨"lineNumberStart", ["lineNumStart"], Reader.int64.map .firstNumber⟩ ∈
      Settings.shape.fields := by simp [Settings.shape]
  have run : IsRun ['7'] := ⟨by decide, List.all_eq_true.1 rfl⟩
  have null : IsRun "null".toList := ⟨by decide, List.all_eq_true.1 rfl⟩
  obtain ⟨-, -, -, alike, -, -, -, repeats, -⟩ := objects_read_by_members
  refine ⟨plain, ?_, ?_⟩
  · refine (alike (.object ⟨rfl, List.forall_mem_singleton.2 value⟩ rfl
      (.trans (.renamed number (by decide) (by decide) names otherNames rfl)
        (.added note (by decide) .null))) ?_ ?_ _).1 plain
    · exact .mark rfl <| .string key <| .mark rfl <| .word run (stops_cons rfl) <| .mark rfl .nil
    · exact .blank rfl <| .mark rfl <| .string noteKey <| .mark rfl <|
        .word null (stops_cons rfl) <| .mark rfl <| .blank rfl <| .string otherKey <| .blank rfl <|
        .mark rfl <| .blank rfl <| .word run (stops_cons rfl) <| .blank rfl <| .mark rfl .nil
  · refine repeats ⟨rfl, List.forall_mem_cons.2 ⟨value, List.forall_mem_singleton.2 value⟩⟩ ?_
      ⟨_, number, _, _, _, _, .refl _, names, otherNames, by decide, by decide⟩
    exact .mark rfl <| .string key <| .mark rfl <| .word run (stops_cons rfl) <| .mark rfl <|
      .string otherKey <| .mark rfl <| .word run (stops_cons rfl) <| .mark rfl .nil

/-- The kind first and under its second name, and a member that is skipped. -/
example : Snippet.listOfJson "[\x7b\"type\":\"kw\", \"line\":-7, \"text\":\"let\"\x7d]" =
    .ok [⟨"let", some "kw"⟩] := by
  decide +kernel

end CodeRows
