import CodeRows.Token
import Mathlib.Data.List.Nodup

/-! # Names of host classes

A class list is cut at blanks, and a word outside the vocabulary becomes a class of the host's own.
So the name of such a class is a word, and not one of those that stand for a tag of the vocabulary
(`TagSet.hostClass_of_mem_parse`).  For tag sets in which every host class has such a name, the
class names determine the tags (`TagSet.map_ofClassName_classNames`); `custom "code"`, which no
class list gives, would print as `code` does. -/

set_option autoImplicit false

namespace CodeRows

/-! ## Words -/

namespace Text

theorem mem_consWord {word other : List Char} {words : List (List Char)} :
    other ∈ consWord word words ↔ (other = word ∧ word ≠ []) ∨ other ∈ words := by
  cases word with
  | nil => simp [consWord]
  | cons c rest => simp [consWord]

theorem splitFirst_cons (c : Char) (rest : List Char) :
    splitFirst (c :: rest) =
      if isBlank c then ([], consWord (splitFirst rest).1 (splitFirst rest).2)
      else (c :: (splitFirst rest).1, (splitFirst rest).2) := rfl

theorem unbroken_splitFirst (chars : List Char) :
    (∀ c ∈ (splitFirst chars).1, isBlank c = false) ∧
      ∀ word ∈ (splitFirst chars).2, word ≠ [] ∧ ∀ c ∈ word, isBlank c = false := by
  induction chars with
  | nil => simp [splitFirst]
  | cons c rest ih =>
    obtain ⟨first, later⟩ := ih
    rw [splitFirst_cons]
    split
    · refine ⟨by simp, fun word member => ?_⟩
      rcases mem_consWord.1 member with ⟨rfl, nonempty⟩ | inRest
      · exact ⟨nonempty, first⟩
      · exact later word inRest
    · rename_i letter
      refine ⟨?_, later⟩
      simpa [letter] using first

theorem unbroken_of_mem_words {text word : String} (member : word ∈ words text) :
    word ≠ "" ∧ ∀ c ∈ word.toList, isBlank c = false := by
  obtain ⟨chars, inLists, rfl⟩ := List.mem_map.1 member
  obtain ⟨first, later⟩ := unbroken_splitFirst text.toList
  rw [String.toList_ofList, ne_eq, String.ofList_eq_empty_iff]
  rcases mem_consWord.1 inLists with ⟨rfl, nonempty⟩ | inRest
  · exact ⟨nonempty, first⟩
  · exact later chars inRest

end Text

/-! ## Names that stand for a tag -/

namespace Tag

/-- The class names of the vocabulary, with the short spellings. -/
def reserved : List String :=
  ["code", "lineNumber", "lineNum", "comment", "openBracket", "openBrack", "closeBracket",
    "closeBrack", "openParen", "closeParen", "noHighlighting", "selected", "related"]

theorem ofClassName_eq_custom_iff {name other : String} :
    ofClassName name = .custom other ↔ name = other ∧ name ∉ reserved := by
  unfold ofClassName
  split <;> simp_all [reserved]

structure HostClass (name : String) : Prop where
  nonempty : name ≠ ""
  unbroken : ∀ c ∈ name.toList, Text.isBlank c = false
  unreserved : name ∉ reserved

theorem ofClassName_className {tag : Tag}
    (unreserved : ∀ name, tag = .custom name → name ∉ reserved) :
    ofClassName tag.className = tag := by
  cases tag with
  | custom name => exact ofClassName_eq_custom_iff.2 ⟨rfl, unreserved name rfl⟩
  | _ => rfl

end Tag

namespace TagSet

theorem hostClass_of_mem_parse {classes name : String}
    (member : Tag.custom name ∈ TagSet.parse classes) : Tag.HostClass name := by
  rw [parse, OrderedSet.mem_ofList, List.mem_map] at member
  obtain ⟨word, inWords, custom⟩ := member
  obtain ⟨rfl, unreserved⟩ := Tag.ofClassName_eq_custom_iff.1 custom
  obtain ⟨nonempty, unbroken⟩ := Text.unbroken_of_mem_words inWords
  exact ⟨nonempty, unbroken, unreserved⟩

/-! ## Reading class names back -/

theorem map_ofClassName_classNames {tags : TagSet}
    (unreserved : ∀ name, Tag.custom name ∈ tags → name ∉ Tag.reserved) :
    tags.classNames.map Tag.ofClassName = tags.elems := by
  rw [classNames, List.map_map, List.map_congr_left (g := id), List.map_id]
  intro tag member
  apply Tag.ofClassName_className
  rintro name rfl
  exact unreserved name member

theorem nodup_classNames {tags : TagSet}
    (unreserved : ∀ name, Tag.custom name ∈ tags → name ∉ Tag.reserved) :
    tags.classNames.Nodup := by
  apply List.Nodup.of_map Tag.ofClassName
  rw [map_ofClassName_classNames unreserved]
  exact tags.nodup

end TagSet

end CodeRows
