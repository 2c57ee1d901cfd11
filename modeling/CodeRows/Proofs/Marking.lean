import CodeRows.Pointer
import CodeRows.Proofs.Bare

/-! # Marking what is related

Marking and unmarking change tags only, and of these only `related`, so the related tokens are the
same before and after.  When the pointer leaves a token, the set found again is therefore the one
that was marked on entering; the visit as a whole takes the marking off the tokens of that set,
including those that carried it before. -/

set_option autoImplicit false

namespace CodeRows

/-! ## All of a listing but its tags -/

def Token.untagged (token : Token) : Token := ⟨token.text, ∅⟩

def Row.untagged (row : Row) : Row := { row with tokens := row.tokens.map Token.untagged }

namespace Listing

def untagged (listing : Listing) : Listing := { listing with rows := listing.rows.map Row.untagged }

/-! ## Changing the tokens of a set -/

theorem bare_mapTokensIn (listing : Listing) (tokens : Highlight) {f : Token → Token}
    (keeps : ∀ token, (f token).bare = token.bare) :
    (listing.mapTokensIn tokens f).bare = listing.bare := by
  refine congrArg (Listing.mk · 0) (map_mapIdx_of_keeps Row.bare ?_ listing.rows)
  intro index row
  exact congrArg (Row.mk none · false) (Row.map_tokens_mapIn Token.bare row tokens index keeps)

theorem untagged_mapTokensIn (listing : Listing) (tokens : Highlight) {f : Token → Token}
    (keeps : ∀ token, (f token).text = token.text) :
    (listing.mapTokensIn tokens f).untagged = listing.untagged := by
  have keepsUntagged : ∀ token, (f token).untagged = token.untagged := fun token =>
    congrArg (Token.mk · ∅) (keeps token)
  refine congrArg (Listing.mk · listing.selected) (map_mapIdx_of_keeps Row.untagged ?_ listing.rows)
  intro index row
  exact congrArg (Row.mk row.number · row.isSelected)
    (Row.map_tokens_mapIn Token.untagged row tokens index keepsUntagged)

theorem mapTokensIn_eq_self {listing : Listing} {tokens : Highlight} {f : Token → Token}
    (fixed : ∀ q ∈ tokens, ∀ token, listing.token? q = some token → f token = token) :
    listing.mapTokensIn tokens f = listing := by
  refine congrArg (Listing.mk · listing.selected) (List.mapIdx_eq_iff.2 ?_)
  intro index
  cases found : listing.rows[index]? with
  | none => rfl
  | some row =>
    refine congrArg some (congrArg (Row.mk row.number · row.isSelected) ?_)
    refine (List.mapIdx_eq_iff.2 ?_).symm
    intro column
    cases foundToken : row.tokens[column]? with
    | none => rfl
    | some token =>
      refine congrArg some ?_
      split
      · rename_i member
        refine (fixed ⟨index, column⟩ (OrderedSet.contains_iff.1 member) token ?_).symm
        rw [token?, row?, found]
        exact foundToken
      · rfl

/-! ## Marking and unmarking -/

theorem isSome_token?_mark (listing : Listing) (tokens : Highlight) (p : Position) :
    ((listing.mark tokens).token? p).isSome = (listing.token? p).isSome := by
  rw [mark, token?_mapTokensIn, Option.isSome_map]

theorem hasTag_unmark_iff {listing : Listing} {tokens : Highlight} {q : Position} {tag : Tag} :
    (listing.unmark tokens).hasTag q tag = true ↔
      listing.hasTag q tag = true ∧ ¬(tag = .related ∧ q ∈ tokens) := by
  simp only [hasTag, unmark, token?_mapTokensIn]
  cases listing.token? q with
  | none => simp
  | some token => by_cases member : q ∈ tokens <;> simp [member]

theorem related_mark (listing : Listing) (tokens : Highlight) (p : Position) :
    (listing.mark tokens).related p = listing.related p := by
  have same : (listing.mark tokens).bare = listing.bare :=
    bare_mapTokensIn listing tokens (Token.bare_addTag rfl)
  rw [← related_bare, same, related_bare]

/-- Unmarking makes it irrelevant what was marked just before. -/
theorem unmark_mark (listing : Listing) (tokens : Highlight) :
    (listing.mark tokens).unmark tokens = listing.unmark tokens := by
  rw [mark, unmark, mapTokensIn_mapTokensIn, unmark]
  congr 1
  funext token
  exact Token.removeTag_addTag token .related

theorem unmark_eq_self_iff {listing : Listing} {tokens : Highlight} :
    listing.unmark tokens = listing ↔ ∀ q ∈ tokens, listing.hasTag q .related = false := by
  constructor
  · intro same q member
    rw [Bool.eq_false_iff]
    intro carried
    rw [← same] at carried
    exact (hasTag_unmark_iff.1 carried).2 ⟨rfl, member⟩
  · intro unmarked
    refine mapTokensIn_eq_self ?_
    intro q member token found
    have absent := unmarked q member
    rw [hasTag, found, Option.any_some, Bool.eq_false_iff, ne_eq, Token.hasTag_iff] at absent
    exact Token.removeTag_eq_self_iff.2 absent

/-- A visit of the pointer to a token reports the same related tokens on entering and on leaving.
It leaves everything as it was but for the marking, which is off the related tokens afterwards;
so it leaves no trace exactly when none of them was marked before. -/
theorem point_enter_leave (listing : Listing) (p : Position)
    (occupied : (listing.token? p).isSome = true) :
    ∃ entered left,
      listing.point (.enter p) = (entered, .highlighted (listing.related p)) ∧
      entered.point (.leave p) = (left, .cleared (listing.related p)) ∧
      left.untagged = listing.untagged ∧
      (∀ q tag, left.hasTag q tag = true ↔
        listing.hasTag q tag = true ∧ ¬(tag = .related ∧ q ∈ listing.related p)) ∧
      (left = listing ↔ ∀ q ∈ listing.related p, listing.hasTag q .related = false) := by
  refine ⟨listing.mark (listing.related p), listing.unmark (listing.related p), ?_, ?_, ?_, ?_, ?_⟩
  · rw [point, if_pos occupied]
  · rw [point, if_pos ((isSome_token?_mark _ _ _).trans occupied), related_mark, unmark_mark]
  · exact untagged_mapTokensIn listing _ fun token => Token.text_removeTag token .related
  · intro q tag
    exact hasTag_unmark_iff
  · exact unmark_eq_self_iff

/-- A slot that another visit had marked loses its mark when the pointer visits its neighbour. -/
theorem point_enter_leave_marked :
    ∃ entered left,
      (Listing.blank.mark (OrderedSet.ofList [⟨0, 1⟩])).point (.enter ⟨0, 0⟩) =
        (entered, .highlighted (OrderedSet.ofList [⟨0, 0⟩, ⟨0, 1⟩])) ∧
      entered.point (.leave ⟨0, 0⟩) = (left, .cleared (OrderedSet.ofList [⟨0, 0⟩, ⟨0, 1⟩])) ∧
      left ≠ Listing.blank.mark (OrderedSet.ofList [⟨0, 1⟩]) := by
  have related : (Listing.blank.mark (OrderedSet.ofList [⟨0, 1⟩])).related ⟨0, 0⟩ =
      OrderedSet.ofList [⟨0, 0⟩, ⟨0, 1⟩] := by
    decide
  obtain ⟨entered, left, enters, leaves, -, -, restored⟩ :=
    point_enter_leave (Listing.blank.mark (OrderedSet.ofList [⟨0, 1⟩])) ⟨0, 0⟩ (by decide)
  rw [related] at enters leaves restored
  refine ⟨entered, left, enters, leaves, fun same => ?_⟩
  have unmarked := restored.1 same ⟨0, 1⟩ (by decide)
  revert unmarked
  decide

end Listing

end CodeRows
