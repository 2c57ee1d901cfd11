import CodeRows.Json.Settings
import CodeRows.Json.Snippet
import CodeRows.Proofs.Records
import Mathlib.Data.List.TakeWhile

/-! # What is written reads back

Strings, truth values and integers are read back as they were written (`readChars_escaped`,
`readBool_writeBool`, `readInt64_intChars`).  The pieces of an object or a list that is written are
those of its parts (`pieces_writeObject`, `pieces_writeList`), so that snippets come back as they
were, and settings if their width does. -/

set_option autoImplicit false

namespace CodeRows.Json

open Numeric (natChars intChars)

/-! ## Strings -/

/-- What stands between the quotes of a text. -/
def escaped (text : String) : List Char := text.toList.flatMap escapeChar

theorem writeString_eq (text : String) :
    writeString text = (Piece.string (escaped text)).chars := rfl

theorem hexValue?_digitChar {n : Nat} (digit : n < 16) : hexValue? (Nat.digitChar n) = some n := by
  have all : ∀ m < 16, hexValue? (Nat.digitChar m) = some m := by decide
  exact all n digit

theorem hexWord_control {n : Nat} (control : n < 0x20) (rest : List Char) :
    hexWord ('0' :: '0' :: Nat.digitChar (n / 16) :: Nat.digitChar (n % 16) :: rest) =
      .ok (n, rest) := by
  have zero : hexValue? '0' = some 0 := rfl
  have upper := hexValue?_digitChar (show n / 16 < 16 by omega)
  have lower := hexValue?_digitChar (show n % 16 < 16 by omega)
  have whole : ((0 * 16 + 0) * 16 + n / 16) * 16 + n % 16 = n := by omega
  rw [hexWord, hexWord?, zero, upper, lower]
  dsimp only
  rw [whole]

theorem readEscape_control {c : Char} (control : c.toNat < 0x20) (rest : List Char) :
    readEscape true ('u' :: '0' :: '0' :: Nat.digitChar (c.toNat / 16) ::
      Nat.digitChar (c.toNat % 16) :: rest) = .ok (c, rest) := by
  have notTrailing : isTrailingSurrogate c.toNat = false := by
    simp [isTrailingSurrogate]
    omega
  have notLeading : isLeadingSurrogate c.toNat = false := by
    simp [isLeadingSurrogate]
    omega
  have numeric : simpleEscape? 'u' = none := rfl
  rw [readEscape, numeric]
  dsimp only
  rw [if_pos rfl, numericEscape, hexWord_control control]
  dsimp only [bind, Except.bind]
  rw [if_neg (by decide), if_neg (by simp [notTrailing]), if_neg (by simp [notLeading]),
    Char.ofNat_toNat]

theorem readChars_escapeChar (c : Char) (rest : List Char) :
    readChars true (escapeChar c ++ rest) =
      (readChars true rest).map fun (chars, after) => (c :: chars, after) := by
  unfold escapeChar
  split
  iterate 7 exact readChars_escape rfl
  rename_i notQuote notSlash _ _ _ _ _
  split
  · rename_i control
    exact readChars_escape (readEscape_control control rest)
  · rename_i visible
    rw [List.singleton_append, readChars, if_neg notQuote, if_neg notSlash, if_neg visible]

theorem readChars_escaped (text : String) (rest : List Char) :
    readChars true (escaped text ++ '"' :: rest) = .ok (text.toList, rest) := by
  rw [escaped]
  induction text.toList with
  | nil => rw [List.flatMap_nil, List.nil_append, readChars, if_pos rfl]
  | cons c chars ih =>
    rw [List.flatMap_cons, List.append_assoc, readChars_escapeChar, ih]
    rfl

theorem readString_escaped (text : String) (rest : List Char) :
    readString (escaped text ++ '"' :: rest) = .ok (text, rest) := by
  rw [readString, readChars_escaped]
  dsimp only [Except.map]
  rw [String.ofList_toList]

theorem inner_escaped_text (text : String) : Inner (escaped text) := by
  obtain ⟨inside, same, inner, -⟩ := takes_of_readChars (readChars_escaped text [])
  rw [List.append_cancel_right same]
  exact inner

theorem readText_writeString (text : String) : readText (writeString text) = .ok (text, []) := by
  rw [writeString_eq, Piece.chars, readText_quote (skipSpace_cons (by decide)), readString_escaped]

theorem readTextOrNull_writeString (text : String) :
    readTextOrNull (writeString text) = .ok (some text, []) := by
  have start : skipSpace (writeString text) = writeString text := skipSpace_cons (by decide)
  have notNull : ∀ rest, skipSpace (writeString text) ≠ 'n' :: rest := by
    intro rest same
    rw [start, writeString_eq] at same
    exact absurd (List.cons.inj same).1 (by decide)
  rw [readTextOrNull_text notNull, start, readText_writeString]
  rfl

/-! ## Words and numbers -/

theorem readBool_writeBool (value : Bool) : readBool (writeBool value) = .ok (value, []) := by
  cases value <;> rfl

theorem isDigit_natChars {n : Nat} : ∀ c ∈ natChars n, c.isDigit = true :=
  fun _ => Nat.isDigit_of_mem_toDigits (by decide) (by decide)

theorem eq_zero_of_natChars {n : Nat} {rest : List Char} (leading : natChars n = '0' :: rest) :
    n = 0 := by
  induction n using Nat.strongRecOn generalizing rest with
  | _ n ih =>
    rw [natChars] at leading
    by_cases small : n < 10
    · rw [Nat.toDigits_of_lt_base small] at leading
      have all : ∀ m < 10, Nat.digitChar m = '0' → m = 0 := by decide
      exact all n small (List.cons.inj leading).1
    · rw [Nat.toDigits_of_base_le (by decide) (by omega)] at leading
      cases front : Nat.toDigits 10 (n / 10) with
      | nil => exact absurd front Nat.toDigits_ne_nil
      | cons c digits =>
        rw [front] at leading
        obtain ⟨rfl, -⟩ := List.cons.inj leading
        have none := ih (n / 10) (by omega) front
        omega

theorem readDigits_natChars (atEnd : Cause) (n : Nat) :
    readDigits atEnd (natChars n) = .ok (natChars n, []) := by
  have digits : ∀ c ∈ natChars n, c.isDigit = true := isDigit_natChars
  cases front : natChars n with
  | nil => exact absurd front Nat.toDigits_ne_nil
  | cons c rest =>
    rw [front] at digits
    rw [readDigits, if_pos (digits c (by simp)), List.takeWhile_eq_self_iff.2 digits,
      List.dropWhile_eq_nil_iff.2 digits]

theorem readWhole_natChars (atEnd : Cause) (n : Nat) :
    readWhole atEnd (natChars n) = .ok (natChars n, []) := by
  by_cases zero : n = 0
  · rw [zero]
    rfl
  · rw [readWhole_of_ne_zero fun rest leading => zero (eq_zero_of_natChars leading),
      readDigits_natChars]

def signed (negative : Bool) (n : Nat) : List Char :=
  if negative then '-' :: natChars n else natChars n

theorem intChars_eq (i : Int) : intChars i = signed (decide (i < 0)) i.natAbs := by
  simp [intChars, signed]

theorem signed_eq_cons (negative : Bool) (n : Nat) :
    ∃ c rest, signed negative n = c :: rest ∧ (c = '-' ∨ c.isDigit = true) := by
  cases negative with
  | true => exact ⟨'-', _, rfl, .inl rfl⟩
  | false =>
    cases front : natChars n with
    | nil => exact absurd front Nat.toDigits_ne_nil
    | cons c rest =>
      exact ⟨c, rest, front, .inr (isDigit_natChars c (front ▸ List.mem_cons_self))⟩

theorem readMinus_signed (negative : Bool) (n : Nat) :
    readMinus (signed negative n) = (negative, natChars n) := by
  cases negative with
  | true => rfl
  | false =>
    rw [signed, if_neg (by decide)]
    cases front : natChars n with
    | nil => rfl
    | cons c rest =>
      have digit := isDigit_natChars c (front ▸ List.mem_cons_self)
      rw [readMinus]
      rintro tail same
      rw [(List.cons.inj same).1] at digit
      exact absurd digit (by decide)

theorem readSpelling_signed (atEnd : Cause) (negative : Bool) (n : Nat) :
    readSpelling atEnd (signed negative n) = .ok (⟨negative, natChars n, none, none⟩, []) := by
  rw [readSpelling, readMinus_signed]
  dsimp only
  rw [readWhole_natChars]
  rfl

theorem le_ofDigitChars (digits : List Char) (n : Nat) : n ≤ Nat.ofDigitChars 10 digits n := by
  induction digits generalizing n with
  | nil => exact Nat.le_of_eq Nat.ofDigitChars_nil.symm
  | cons c digits ih =>
    rw [Nat.ofDigitChars_cons]
    exact Nat.le_trans (by omega) (ih _)

theorem gather_eq {limit n : Nat} {digits : List Char}
    (fits : Nat.ofDigitChars 10 digits n ≤ limit) :
    gather limit n digits = (Nat.ofDigitChars 10 digits n, []) := by
  induction digits generalizing n with
  | nil => rw [gather, Nat.ofDigitChars_nil]
  | cons c digits ih =>
    have value : n * 10 + Numeric.digitValue c = 10 * n + (c.toNat - '0'.toNat) := by
      rw [Numeric.digitValue, Nat.mul_comm]
    rw [Nat.ofDigitChars_cons] at fits ⊢
    rw [gather, value, if_pos (Nat.le_trans (le_ofDigitChars digits _) fits), ih fits]

theorem gather_natChars {limit n : Nat} (fits : n ≤ limit) :
    gather limit 0 (natChars n) = (n, []) := by
  have value : Nat.ofDigitChars 10 (natChars n) 0 = n := Nat.ofDigitChars_ten_toDigits
  rw [gather_eq (by rw [value]; exact fits), value]

theorem value_natChars {n : Nat} (fits : n ≤ significandLimit) (negative : Bool)
    (rest : List Char) :
    Spelling.value ⟨negative, natChars n, none, none⟩ rest = .ok (plainNumber negative n) := by
  have scaled : Spelling.scaled ⟨negative, natChars n, none, none⟩ = ⟨n, 0⟩ := by
    rw [Spelling.scaled, gather_natChars fits]
    rfl
  rw [Spelling.value, scaled]
  rfl

theorem plainNumber_natAbs {i : Int} (least : -0x8000000000000000 ≤ i) :
    plainNumber (decide (i < 0)) i.natAbs = .integer i := by
  rw [plainNumber]
  by_cases negative : i < 0
  · rw [if_neg (by simp [negative]), if_neg (by omega)]
    congr 1
    omega
  · rw [if_pos (by simp [negative])]
    congr 1
    omega

/-- Integers of 64 bits, with or without sign, are read back exactly. -/
theorem readNumber_intChars {i : Int} (least : -0x8000000000000000 ≤ i)
    (greatest : i ≤ significandLimit) : readNumber (intChars i) = .ok (.integer i, []) := by
  have fits : i.natAbs ≤ significandLimit := by
    rw [significandLimit, Binary64.maxWord] at greatest ⊢
    omega
  rw [readNumber, intChars_eq, readSpelling_signed]
  dsimp only [bind, Except.bind]
  rw [value_natChars fits, plainNumber_natAbs least]

theorem readAnyNumber_intChars (expected : String) (i : Int) :
    readAnyNumber expected (intChars i) = readNumber (intChars i) := by
  rw [intChars_eq]
  obtain ⟨c, rest, same, numeric⟩ := signed_eq_cons (decide (i < 0)) i.natAbs
  rw [same, readAnyNumber_eq (skipSpace_cons _) numeric]
  exact not_isSpace_of_isLetter (isLetter_minus_or_digit numeric)

theorem readInt64_intChars (i : Int64) : readInt64 (intChars i.toInt) = .ok (i, []) := by
  have least := i.le_toInt
  have greatest := i.toInt_lt
  have limit : significandLimit = 0xffffffffffffffff := rfl
  have top : Int64.maxValue.toInt = 0x7fffffffffffffff := rfl
  -- Both ends of the range are integers still: the least one is not yet a real number.
  rw [readInt64_eq_ok_iff]
  refine ⟨.integer i.toInt, ?_, i.toInt, rfl, by omega, Int64.ofInt_toInt i⟩
  rw [readAnyNumber_intChars, readNumber_intChars (by omega) (by omega)]

/-! ## Containers -/

theorem mem_separated {p : Piece} {first : Bool} {parts : List (List Piece)}
    (member : p ∈ separated first parts) : p = .mark ',' ∨ ∃ part ∈ parts, p ∈ part := by
  induction parts generalizing first with
  | nil => cases member
  | cons part parts ih =>
    rw [separated, List.mem_append, List.mem_append] at member
    rcases member with inLead | inPart | later
    · cases first with
      | true => cases inLead
      | false => exact .inl (List.mem_singleton.1 inLead)
    · exact .inr ⟨part, by simp, inPart⟩
    · rcases ih later with comma | ⟨other, among, inOther⟩
      · exact .inl comma
      · exact .inr ⟨other, by simp [among], inOther⟩

theorem mem_enclosed {p : Piece} {container : Container} {parts : List (List Piece)}
    (member : p ∈ enclosed container parts) : (∃ c, p = .mark c) ∨ ∃ part ∈ parts, p ∈ part := by
  rw [enclosed, List.mem_cons, List.mem_append, List.mem_singleton] at member
  rcases member with opener | inside | closer
  · exact .inl ⟨_, opener⟩
  · exact (mem_separated inside).imp_left fun comma => ⟨_, comma⟩
  · exact .inl ⟨_, closer⟩

/-- No string is left open in a value. -/
theorem Value.closed {v : List Piece} (value : Written v) (raw : List Char) :
    .unclosed raw ∉ v := by
  induction value with
  | scalar isScalar _ =>
    intro member
    rw [← List.mem_singleton.1 member] at isScalar
    cases isScalar
  | list _ ih =>
    intro member
    obtain ⟨c, same⟩ | ⟨element, among, inElement⟩ := mem_enclosed member
    · cases same
    · exact ih element among inElement
  | object _ _ ih =>
    intro member
    obtain ⟨c, same⟩ | ⟨part, among, inPart⟩ := mem_enclosed member
    · cases same
    · obtain ⟨pair, inPairs, rfl⟩ := List.mem_map.1 among
      simp only [Pair.pieces, List.mem_cons, reduceCtorEq, false_or] at inPart
      exact ih pair inPairs inPart

theorem pieces_joinParts {parts : List (List Char)}
    (closed : ∀ part ∈ parts, ∀ raw, .unclosed raw ∉ pieces part) {c : Char}
    (mark : isMark c = true) (rest : List Char) :
    pieces (joinParts parts ++ c :: rest) =
      separated true (parts.map pieces) ++ .mark c :: pieces rest := by
  have start : ∀ {c : Char} (_ : isMark c = true) (rest : List Char),
      pieces (c :: rest) = .mark c :: pieces rest :=
    fun mark _ => pieces_of_mark mark (skipSpace_cons (not_isSpace_of_isMark mark))
  fun_induction joinParts parts with
  | case1 => exact start mark rest
  | case2 part =>
    rw [pieces_append (closed part (by simp)) (stops_cons (not_isLetter_of_isMark mark)),
      start mark]
    simp [separated, lead]
  | case3 part next parts ih =>
    obtain ⟨closedPart, later⟩ := List.forall_mem_cons.1 closed
    rw [List.append_assoc, List.cons_append,
      pieces_append closedPart (stops_cons (not_isLetter_of_isMark (by decide))),
      start (by decide), ih later]
    simp [separated, lead]

theorem pieces_writeList {elements : List (List Char)}
    (written : ∀ element ∈ elements, Written (pieces element)) :
    pieces (writeList elements) = listPieces (elements.map pieces) := by
  have start : skipSpace (writeList elements) = '[' :: (joinParts elements ++ [']']) :=
    skipSpace_cons (by decide)
  rw [pieces_of_mark (by decide) start,
    pieces_joinParts (fun element member => (written element member).closed) (by decide),
    pieces_nil]
  rfl

def writtenPair (member : String × List Char) : Pair := ⟨escaped member.1, pieces member.2⟩

theorem pieces_writeMember (member : String × List Char) :
    pieces (writeMember member) = (writtenPair member).pieces := by
  have split : writeMember member = '"' :: (escaped member.1 ++ '"' :: ':' :: member.2) := by
    simp [writeMember, writeString, escaped]
  have start : skipSpace (writeMember member) = writeMember member := by
    rw [split]
    exact skipSpace_cons (by decide)
  rw [split] at start
  rw [split, pieces_of_string start ((inner_escaped_text member.1).splitString_eq _),
    pieces_of_mark (by decide) (skipSpace_cons (by decide))]
  rfl

theorem pieces_writeObject {members : List (String × List Char)}
    (written : ∀ member ∈ members, Written (pieces member.2)) :
    pieces (writeObject members) = objectPieces (members.map writtenPair) := by
  have start : skipSpace (writeObject members) =
      '\x7b' :: (joinParts (members.map writeMember) ++ ['\x7d']) := skipSpace_cons (by decide)
  have closed : ∀ part ∈ members.map writeMember, ∀ raw, .unclosed raw ∉ pieces part := by
    intro part among raw inPart
    obtain ⟨member, inMembers, rfl⟩ := List.mem_map.1 among
    rw [pieces_writeMember] at inPart
    simp only [Pair.pieces, writtenPair, List.mem_cons, reduceCtorEq, false_or] at inPart
    exact (written member inMembers).closed raw inPart
  have parts :
      (members.map writeMember).map pieces = (members.map writtenPair).map Pair.pieces := by
    rw [List.map_map, List.map_map]
    exact List.map_congr_left fun member _ => pieces_writeMember member
  rw [pieces_of_mark (by decide) start, pieces_joinParts closed (by decide), pieces_nil, parts]
  rfl

/-! ## Members that are written -/

theorem Scalar.map {α β : Type} {reader : Reader α} (f : α → β) (scalar : Scalar reader.read) :
    Scalar (reader.map f).read :=
  .of_iff (fun _ _ _ => map_fst_eq_ok_iff) scalar

/-- A text that is read to its end is one piece. -/
theorem Scalar.gives_pieces {α : Type} {reader : Reader α} (scalar : Scalar reader.read)
    {chars : List Char} {a : α} (done : reader.read chars = .ok (a, [])) :
    reader.Gives (pieces chars) a := by
  obtain ⟨p, isScalar, value, split⟩ := scalar.gives done stops_nil
  rw [pieces_nil] at split
  exact ⟨p, split, isScalar, value⟩

theorem Shape.gives_writtenPair {ε α : Type} {shape : Shape ε} (scalars : shape.OfScalars)
    (key : String) (reader : Reader α) (f : α → ε) {name : String} {aliases : List String}
    {index : Nat} {chars : List Char} {a : α}
    (found : shape.field? key = some (⟨name, aliases, reader.map f⟩, index))
    (done : reader.read chars = .ok (a, [])) :
    shape.Gives (writtenPair (key, chars)) index (f a) :=
  ⟨key, _, readString_escaped key [], found,
    (scalars _ (mem_fields_of_field? found)).gives_pieces (map_fst_eq_ok_iff.2 ⟨a, done, rfl⟩)⟩

theorem Shape.record_writeObject {ε : Type} {shape : Shape ε} {members : List (String × List Char)}
    {entries : List (Nat × ε)} (reads : shape.Reads [] (members.map writtenPair) entries) :
    shape.Record (pieces (writeObject members)) (entries.map Prod.snd) := by
  have written : ∀ member ∈ members, Written (pieces member.2) :=
    fun member among => reads.written (writtenPair member) (List.mem_map_of_mem among)
  rw [pieces_writeObject written]
  exact .object reads

end CodeRows.Json

/-! ## Snippets -/

namespace CodeRows.Snippet

open Json

theorem ofScalars_shape : shape.OfScalars := by
  intro field member
  simp only [shape, List.mem_cons, List.not_mem_nil, or_false] at member
  rcases member with rfl | rfl
  · exact Scalar.map Entry.text scalar_readText
  · exact Scalar.map Entry.kind scalar_readTextOrNull

theorem listOfJson_eq_ok_iff {text : String} {snippets : List Snippet} :
    listOfJson text = .ok snippets ↔
      ∃ elements, pieces text.toList = listPieces elements ∧
        List.Forall₂ (shape.Yields ofEntries) elements snippets := by
  have record : Reading shape.reader.read shape.Record := Shape.reading_readRecord ofScalars_shape
  have reading : Reading (shape.reader.map ofEntries).read (shape.Yields ofEntries) :=
    record.map ofEntries
  rw [← reading.readList.readAll_eq_ok_iff, listOfJson]
  split <;> simp_all

theorem yields_jsonChars (snippet : Snippet) :
    shape.Yields ofEntries (pieces snippet.jsonChars) snippet := by
  obtain ⟨text, kind⟩ := snippet
  have textGiven : shape.Gives (writtenPair ("text", writeString text)) 0 (.text text) :=
    Shape.gives_writtenPair ofScalars_shape "text" .text .text rfl (readText_writeString text)
  cases kind with
  | none =>
    have reads : shape.Reads [] _ [(0, Entry.text text)] := .entry textGiven (by simp) (.nil rfl)
    exact ⟨_, Shape.record_writeObject reads, rfl⟩
  | some kind =>
    have kindGiven : shape.Gives (writtenPair ("kind", writeString kind)) 1 (.kind (some kind)) :=
      Shape.gives_writtenPair ofScalars_shape "kind" .textOrNull .kind rfl
        (readTextOrNull_writeString kind)
    have reads : shape.Reads [] _ [(0, Entry.text text), (1, Entry.kind (some kind))] :=
      .entry textGiven (by simp) (.entry kindGiven (by simp) (.nil rfl))
    exact ⟨_, Shape.record_writeObject reads, rfl⟩

/-- Snippets come back from their JSON text exactly as they were. -/
theorem listOfJson_listToJson (snippets : List Snippet) :
    listOfJson (listToJson snippets) = .ok snippets := by
  have written : ∀ element ∈ snippets.map jsonChars, Written (pieces element) := by
    intro element member
    obtain ⟨snippet, -, rfl⟩ := List.mem_map.1 member
    exact (yields_jsonChars snippet).written
  rw [listOfJson_eq_ok_iff, listToJson, String.toList_ofList, pieces_writeList written]
  refine ⟨_, rfl, ?_⟩
  rw [List.map_map, List.forall₂_map_left_iff, List.forall₂_same]
  exact fun snippet _ => yields_jsonChars snippet

end CodeRows.Snippet

/-! ## Settings -/

namespace CodeRows.Binary64

theorem isFinite_of_isZero {x : Binary64} (zero : x.isZero = true) : x.isFinite = true := by
  have low : x.word % 0x8000000000000000 = 0 := of_decide_eq_true zero
  have field : x.exponentField ≠ maxField := by
    rw [exponentField, maxField, exponentPlace]
    omega
  simpa [isFinite] using field

theorem isFinite_of_equals {x y : Binary64} (same : x.equals y = true)
    (finite : y.isFinite = true) : x.isFinite = true := by
  simp only [equals, Bool.and_eq_true, Bool.or_eq_true, beq_iff_eq] at same
  obtain ⟨-, rfl | ⟨zero, -⟩⟩ := same
  · exact finite
  · exact isFinite_of_isZero zero

end CodeRows.Binary64

namespace CodeRows.Settings

open Json

theorem ofScalars_shape : shape.OfScalars := by
  intro field member
  simp only [shape, List.mem_cons, List.not_mem_nil, or_false] at member
  rcases member with rfl | rfl | rfl | rfl | rfl
  · exact Scalar.map Entry.lineNumbers scalar_readBool
  · exact Scalar.map Entry.highlighting scalar_readBool
  · exact Scalar.map Entry.firstNumber scalar_readInt64
  · exact Scalar.map Entry.gutterWidth scalar_readBinary64
  · exact Scalar.map Entry.lastRowOnly scalar_readBool

theorem ofJson_eq_ok_iff {text : String} {settings : Settings} :
    ofJson text = .ok settings ↔
      shape.Yields ofEntries (pieces text.toList) settings ∧
        settings.gutterWidth.isFinite = true := by
  have reading := Shape.reading_readRecord ofScalars_shape
  simp only [Shape.Yields, ← reading.readAll_eq_ok_iff, ofJson]
  cases readAll shape.readRecord text with
  | error fault => simp
  | ok entries =>
    simp only [validate, Except.ok.injEq, exists_eq_left']
    split <;> rename_i finite
    · constructor
      · intro same
        cases same
        exact ⟨rfl, finite⟩
      · rintro ⟨rfl, -⟩
        rfl
    · constructor
      · intro same
        cases same
      · rintro ⟨rfl, finite'⟩
        exact absurd finite' finite

theorem yields_jsonChars (settings : Settings) {width : Binary64}
    (printed : readBinary64 (Json.number.chars settings.gutterWidth) = .ok (width, [])) :
    shape.Yields ofEntries (pieces settings.jsonChars) { settings with gutterWidth := width } := by
  obtain ⟨lineNumbers, highlighting, firstNumber, gutterWidth, lastRowOnly⟩ := settings
  have given {α : Type} := @Shape.gives_writtenPair Entry α shape ofScalars_shape
  have reads : shape.Reads [] _ [(0, .lineNumbers lineNumbers), (1, .highlighting highlighting),
      (2, .firstNumber firstNumber), (3, .gutterWidth width), (4, .lastRowOnly lastRowOnly)] :=
    .entry (given "useLineNumbers" .bool .lineNumbers rfl (readBool_writeBool _)) (by decide) <|
    .entry (given "useSyntaxHighlighting" .bool .highlighting rfl (readBool_writeBool _))
      (by decide) <|
    .entry (given "lineNumberStart" .int64 .firstNumber rfl (readInt64_intChars _)) (by decide) <|
    .entry (given "firstColumnWidth" .binary64 .gutterWidth rfl printed) (by decide) <|
    .entry (given "restrictInsertToEnd" .bool .lastRowOnly rfl (readBool_writeBool _))
      (by decide) <|
    .nil rfl
  exact ⟨_, Shape.record_writeObject reads, rfl⟩

/-- Settings come back from their JSON text if the text of their width reads as the same number. -/
theorem ofJson_toJson (settings : Settings) (width : Binary64)
    (finite : settings.gutterWidth.isFinite = true)
    (printed : readBinary64 (Json.number.chars settings.gutterWidth) = .ok (width, []))
    (same : width.equals settings.gutterWidth = true) :
    ofJson settings.toJson = .ok { settings with gutterWidth := width } ∧
      agrees { settings with gutterWidth := width } settings = true := by
  constructor
  · rw [ofJson_eq_ok_iff, toJson, String.toList_ofList]
    exact ⟨yields_jsonChars settings printed, Binary64.isFinite_of_equals same finite⟩
  · simp [agrees, same]

/-- The least number and a width of two and a half. -/
theorem ofJson_toJson_leastNumber :
    Binary64.isFinite ⟨0x4004000000000000⟩ = true ∧
      readBinary64 (Json.number.chars ⟨0x4004000000000000⟩) = .ok (⟨0x4004000000000000⟩, []) ∧
      Binary64.equals ⟨0x4004000000000000⟩ ⟨0x4004000000000000⟩ = true ∧
      ofJson (toJson { firstNumber := Int64.minValue, gutterWidth := ⟨0x4004000000000000⟩ }) =
        .ok { firstNumber := Int64.minValue, gutterWidth := ⟨0x4004000000000000⟩ } := by
  have finite : Binary64.isFinite ⟨0x4004000000000000⟩ = true := by decide
  have printed : readBinary64 (Json.number.chars ⟨0x4004000000000000⟩) =
      .ok (⟨0x4004000000000000⟩, []) := by decide +kernel
  have same : Binary64.equals ⟨0x4004000000000000⟩ ⟨0x4004000000000000⟩ = true := by decide
  exact ⟨finite, printed, same,
    (ofJson_toJson { firstNumber := Int64.minValue, gutterWidth := ⟨0x4004000000000000⟩ } _ finite
      printed same).1⟩

end CodeRows.Settings
