import CodeRows.Proofs.Painted

/-! # Normal class lists

A class list spreads words over a text: blanks of any kind stand between the words and may stand
around them (`Text.Spread`).  Splitting finds exactly these words (`Text.wordLists_eq_iff`), so
only the set of the tags that they name counts.  A tag set comes back from its own class list
exactly when each of its host classes has a name that a class list can give; the sets that come
from class lists are of this kind, and writing them out again gives the normal form of a list. -/

set_option autoImplicit false

namespace CodeRows

/-! ## Words spread over a text -/

namespace Text

structure IsWord (word : List Char) : Prop where
  nonempty : word ≠ []
  unbroken : ∀ c ∈ word, isBlank c = false

/-- The text consists of the words in their order, with blanks between and around them. -/
inductive Spread : List (List Char) → List Char → Prop where
  | nil : Spread [] []
  | blank {c : Char} {words : List (List Char)} {rest : List Char} :
      isBlank c = true → Spread words rest → Spread words (c :: rest)
  | last {word : List Char} : IsWord word → Spread [word] word
  | word {c : Char} {word : List Char} {words : List (List Char)} {rest : List Char} :
      IsWord word → isBlank c = true → Spread words rest →
        Spread (word :: words) (word ++ c :: rest)

theorem consWord_of_isWord {word : List Char} (isWord : IsWord word) (words : List (List Char)) :
    consWord word words = word :: words := by
  rw [consWord, if_neg]
  simpa using isWord.nonempty

theorem splitFirst_append {word rest : List Char} (unbroken : ∀ c ∈ word, isBlank c = false) :
    splitFirst (word ++ rest) = (word ++ (splitFirst rest).1, (splitFirst rest).2) := by
  induction word with
  | nil => rfl
  | cons c word ih =>
    obtain ⟨letter, later⟩ := List.forall_mem_cons.1 unbroken
    rw [List.cons_append, splitFirst_cons, letter, ih later]
    rfl

theorem wordLists_blank {c : Char} (blank : isBlank c = true) (rest : List Char) :
    wordLists (c :: rest) = wordLists rest := by
  rw [wordLists, splitFirst_cons, if_pos blank]
  rfl

theorem wordLists_of_spread {words : List (List Char)} {text : List Char}
    (spread : Spread words text) : wordLists text = words := by
  induction spread with
  | nil => rfl
  | blank blank _ ih => rw [wordLists_blank blank, ih]
  | @last word isWord =>
    have split : splitFirst (word ++ []) = _ := splitFirst_append isWord.unbroken
    rw [List.append_nil] at split
    rw [wordLists, split, splitFirst, List.append_nil, consWord_of_isWord isWord]
  | word isWord blank _ ih =>
    rw [wordLists, splitFirst_append isWord.unbroken, splitFirst_cons, if_pos blank,
      List.append_nil, consWord_of_isWord isWord, ← ih]
    rfl

/-- The run that is being read comes first; it grows until a blank ends it. -/
theorem spread_consWord_splitFirst (run text : List Char)
    (unbroken : ∀ c ∈ run, isBlank c = false) :
    Spread (consWord (run ++ (splitFirst text).1) (splitFirst text).2) (run ++ text) := by
  induction text generalizing run with
  | nil =>
    rw [splitFirst, List.append_nil]
    by_cases empty : run = []
    · rw [empty]; exact .nil
    · have isWord : IsWord run := ⟨empty, unbroken⟩
      rw [consWord_of_isWord isWord]
      exact .last isWord
  | cons c rest ih =>
    rw [splitFirst_cons]
    split
    · rename_i blank
      have later := ih [] (by simp)
      rw [List.append_nil]
      by_cases empty : run = []
      · rw [empty]; exact .blank blank later
      · have isWord : IsWord run := ⟨empty, unbroken⟩
        rw [consWord_of_isWord isWord]
        exact .word isWord blank later
    · rename_i letter
      have longer := ih (run ++ [c]) (by
        simpa [or_imp, forall_and, letter] using unbroken)
      simpa using longer

/-- Splitting gives the words that are spread over a text, and no others. -/
theorem wordLists_eq_iff {words : List (List Char)} {text : List Char} :
    wordLists text = words ↔ Spread words text := by
  refine ⟨fun same => ?_, wordLists_of_spread⟩
  rw [← same]
  exact spread_consWord_splitFirst [] text (by simp)

theorem spread_intercalate (words : List (List Char)) (areWords : ∀ word ∈ words, IsWord word) :
    Spread words ([' '].intercalate words) := by
  induction words with
  | nil => exact .nil
  | cons word words ih =>
    obtain ⟨isWord, others⟩ := List.forall_mem_cons.1 areWords
    cases words with
    | nil => simpa [List.intercalate] using Spread.last isWord
    | cons next words =>
      have later := Spread.word (c := ' ') isWord (by decide) (ih others)
      simpa [List.intercalate] using later

theorem words_eq_iff {names : List String} {text : String} :
    words text = names ↔ Spread (names.map String.toList) text.toList := by
  rw [← wordLists_eq_iff, words]
  refine ⟨fun same => ?_, fun same => ?_⟩
  · rw [← same, List.map_map, show String.toList ∘ String.ofList = id from
      funext fun _ => String.toList_ofList, List.map_id]
  · rw [same, List.map_map, show String.ofList ∘ String.toList = id from
      funext fun _ => String.ofList_toList, List.map_id]

/-- Words joined by single spaces are found again. -/
theorem words_intercalate {names : List String} (areWords : ∀ name ∈ names, IsWord name.toList) :
    words (" ".intercalate names) = names := by
  rw [words_eq_iff, String.toList_intercalate]
  exact spread_intercalate (names.map String.toList) (by simpa using areWords)

end Text

/-! ## Tags of a class list -/

theorem Tag.isWord_className {tag : Tag}
    (hostClass : ∀ name, tag = .custom name → HostClass name) :
    Text.IsWord tag.className.toList := by
  cases tag with
  | custom name =>
    have ok := hostClass name rfl
    exact ⟨by simpa [className] using ok.nonempty, ok.unbroken⟩
  | _ =>
    exact ⟨by decide, fun c member =>
      Bool.eq_false_iff.2 (List.any_eq_false.1 (by decide) c member)⟩

namespace TagSet

/-- The class list with the same tags in vocabulary order, each named once by its full name. -/
def normalize (classes : String) : String := (parse classes).classList

theorem parse_classList_of_hostClass {tags : TagSet}
    (hostClass : ∀ name, Tag.custom name ∈ tags → Tag.HostClass name) :
    parse tags.classList = tags := by
  have areWords : ∀ name ∈ tags.classNames, Text.IsWord name.toList := by
    intro name member
    obtain ⟨tag, inTags, rfl⟩ := List.mem_map.1 member
    apply Tag.isWord_className
    rintro other rfl
    exact hostClass other inTags
  rw [parse, classList, Text.words_intercalate areWords,
    map_ofClassName_classNames fun name member => (hostClass name member).unreserved,
    OrderedSet.ofList_elems]

theorem parse_normalize (classes : String) : parse (normalize classes) = parse classes :=
  parse_classList_of_hostClass fun _ => hostClass_of_mem_parse

theorem normalize_eq_iff {classes other : String} :
    normalize classes = normalize other ↔ parse classes = parse other := by
  refine ⟨fun same => ?_, fun same => ?_⟩
  · rw [← parse_normalize classes, same, parse_normalize]
  · rw [normalize, same, normalize]

theorem parse_eq_of_spread {names : List String} {text : String}
    (spread : Text.Spread (names.map String.toList) text.toList) :
    parse text = OrderedSet.ofList (names.map Tag.ofClassName) := by
  rw [parse, Text.words_eq_iff.2 spread]

/-- A tag set comes back from its class list, names joined by single spaces, exactly when each of
its host classes has a name that is not empty, holds no blank and is not reserved.  So reading,
writing and reading a class list is reading it, and normalizing twice is normalizing once.  Two
texts have one normal form exactly when their words name the same tags, whatever the order of the
words, their number, their spelling and the blanks between them; and every text is words spread
between blanks. -/
theorem classList_comes_back :
    (∀ tags : TagSet, parse tags.classList = tags ↔
      ∀ name, Tag.custom name ∈ tags → Tag.HostClass name) ∧
    (∀ classes : String, parse (parse classes).classList = parse classes) ∧
    (∀ classes : String, normalize (normalize classes) = normalize classes) ∧
    (∀ (names others : List String) (text other : String),
      Text.Spread (names.map String.toList) text.toList →
      Text.Spread (others.map String.toList) other.toList →
      (normalize text = normalize other ↔
        ∀ tag, tag ∈ names.map Tag.ofClassName ↔ tag ∈ others.map Tag.ofClassName)) ∧
    ∀ text : String, ∃ names : List String,
      Text.Spread (names.map String.toList) text.toList := by
  refine ⟨fun tags => ⟨fun same name member => ?_, parse_classList_of_hostClass⟩, parse_normalize,
    fun classes => ?_, fun names others text other spread otherSpread => ?_, fun text => ?_⟩
  · rw [← same] at member
    exact hostClass_of_mem_parse member
  · exact normalize_eq_iff.2 (parse_normalize classes)
  · rw [normalize_eq_iff, parse_eq_of_spread spread, parse_eq_of_spread otherSpread,
      OrderedSet.ext_mem_iff]
    simp only [OrderedSet.mem_ofList]
  · exact ⟨Text.words text, Text.words_eq_iff.1 rfl⟩

/-- Blanks, repeated words, order and short spellings do not show in the normal form. -/
example : normalize "  kw lineNum\tcode kw\u2003lineNumber " = "code lineNumber kw" := by
  decide +kernel

end TagSet

end CodeRows
