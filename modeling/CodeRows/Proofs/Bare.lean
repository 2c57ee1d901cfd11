import CodeRows.Proofs.Lookup
import Mathlib.Data.List.Forall2

/-! # What relating looks at

Which tokens are related is decided by the seven tags that give a listing its structure and by
whether a text is `(`.  A listing that has lost everything else is bare, and relating gives the
same set on a listing and on its bare form (`Listing.related_bare`).  Two listings whose tokens play
the same parts have the same bare form, and therefore cannot be told apart by the pointer
(`Listing.related_sees_only_structure`). -/

set_option autoImplicit false

namespace CodeRows

/-! ## Bare tokens and rows -/

def Tag.isStructural : Tag → Bool
  | code | lineNumber | comment | openBracket | closeBracket | openParen | closeParen => true
  | noHighlighting | selected | related | custom _ => false

namespace Token

def bare (token : Token) : Token :=
  ⟨if token.text = "(" then "(" else "", token.tags.filter Tag.isStructural⟩

theorem hasTag_bare {tag : Tag} (structural : tag.isStructural = true) (token : Token) :
    token.bare.hasTag tag = token.hasTag tag := by
  rw [Bool.eq_iff_iff, hasTag_iff, hasTag_iff, bare, OrderedSet.mem_filter]
  exact and_iff_left structural

theorem coversRow_bare (token : Token) : token.bare.tags.coversRow = token.tags.coversRow := by
  have structural : ∀ tag : Tag, (tag.isStructural && tag.coversRow) = tag.coversRow := by
    intro tag
    cases tag <;> rfl
  simp only [TagSet.coversRow, OrderedSet.any, bare, OrderedSet.filter, List.any_filter, structural]

theorem step_bare {deeper shallower : Tag} (deepens : deeper.isStructural = true)
    (rises : shallower.isStructural = true) (token : Token) :
    token.bare.step deeper shallower = token.step deeper shallower := by
  simp only [step, hasTag_bare deepens, hasTag_bare rises]

theorem text_bare_eq_iff (token : Token) : token.bare.text = "(" ↔ token.text = "(" := by
  by_cases opens : token.text = "(" <;> simp [bare, opens]

/-- Tokens with the same structural tags are the same to relating, if both or neither are `(`. -/
theorem bare_eq_of {a b : Token} (sameText : a.text = "(" ↔ b.text = "(")
    (sameTags : ∀ tag : Tag, tag.isStructural = true → (tag ∈ a.tags ↔ tag ∈ b.tags)) :
    a.bare = b.bare := by
  refine ext_tags ?_ fun tag => ?_
  · simp only [bare, sameText]
  · simp only [bare, OrderedSet.mem_filter]
    exact and_congr_left (sameTags tag)

theorem bare_addTag {tag : Tag} (unstructural : tag.isStructural = false) (token : Token) :
    (token.addTag tag).bare = token.bare := by
  refine bare_eq_of Iff.rfl fun other structural => ?_
  rw [mem_tags_addTag]
  refine or_iff_right ?_
  rintro rfl
  rw [unstructural] at structural
  cases structural

theorem bare_removeTag {tag : Tag} (unstructural : tag.isStructural = false) (token : Token) :
    (token.removeTag tag).bare = token.bare := by
  refine bare_eq_of Iff.rfl fun other structural => ?_
  rw [mem_tags_removeTag]
  refine and_iff_left ?_
  rintro rfl
  rw [unstructural] at structural
  cases structural

end Token

namespace Row

def bare (row : Row) : Row := ⟨none, row.tokens.map Token.bare, false⟩

theorem step_bare {deeper shallower : Tag} (deepens : deeper.isStructural = true)
    (rises : shallower.isStructural = true) (row : Row) :
    row.bare.step deeper shallower = row.step deeper shallower := by
  simp only [step, marker?, bare, List.getLast?_map]
  cases row.tokens.getLast? with
  | none => rfl
  | some token => exact Token.step_bare deepens rises token

end Row

/-! ## Bare listings -/

namespace Listing

/-- What relating sees of a listing. -/
def bare (listing : Listing) : Listing := ⟨listing.rows.map Row.bare, 0⟩

@[simp] theorem row?_bare (listing : Listing) (index : Nat) :
    listing.bare.row? index = (listing.row? index).map Row.bare :=
  List.getElem?_map

@[simp] theorem token?_bare (listing : Listing) (p : Position) :
    listing.bare.token? p = (listing.token? p).map Token.bare := by
  simp only [token?, row?_bare]
  cases listing.row? p.row with
  | none => rfl
  | some row => exact List.getElem?_map

theorem hasTag_bare (listing : Listing) (p : Position) {tag : Tag}
    (structural : tag.isStructural = true) : listing.bare.hasTag p tag = listing.hasTag p tag := by
  simp only [hasTag, token?_bare]
  cases listing.token? p with
  | none => rfl
  | some token => exact Token.hasTag_bare structural token

theorem marker?_bare (listing : Listing) (index : Nat) :
    listing.bare.marker? index = listing.marker? index := by
  simp only [marker?, row?_bare]
  cases listing.row? index with
  | none => rfl
  | some row => simp [Row.bare]

theorem taggedInRow_bare (listing : Listing) (index : Nat) {tag : Tag}
    (structural : tag.isStructural = true) :
    listing.bare.taggedInRow index tag = listing.taggedInRow index tag := by
  simp only [taggedInRow, row?_bare]
  cases listing.row? index with
  | none => rfl
  | some row =>
    simp only [Option.map_some, Row.bare, List.zipIdx_map, List.filterMap_map]
    congr 1
    funext entry
    simp only [Function.comp_apply, Prod.map, Token.hasTag_bare structural, id]

theorem codeOfRows_bare (listing : Listing) (first last : Nat) :
    listing.bare.codeOfRows first last = listing.codeOfRows first last := by
  have code : ∀ index, listing.bare.taggedInRow index .code = listing.taggedInRow index .code :=
    fun index => taggedInRow_bare listing index rfl
  simp only [codeOfRows, code]

theorem blockBelow_bare (listing : Listing) (row : Nat) :
    listing.bare.blockBelow row = listing.blockBelow row := by
  have height : listing.bare.blockHeight row = listing.blockHeight row := by
    simp only [blockHeight, bare, ← List.map_drop, List.map_map]
    congr 2
    funext other
    exact Row.step_bare rfl rfl other
  simp only [blockBelow, height, codeOfRows_bare]

theorem blockAbove_bare (listing : Listing) (row : Nat) :
    listing.bare.blockAbove row = listing.blockAbove row := by
  have depth : listing.bare.blockDepth row = listing.blockDepth row := by
    simp only [blockDepth, bare, ← List.map_take, ← List.map_reverse, List.map_map]
    congr 2
    funext other
    exact Row.step_bare rfl rfl other
  simp only [blockAbove, depth, codeOfRows_bare]

theorem tokensOfRow_bare (listing : Listing) (row : Nat) :
    listing.bare.tokensOfRow row = (listing.tokensOfRow row).map Token.bare := by
  simp only [tokensOfRow, row?_bare]
  cases listing.row? row <;> rfl

theorem groupRight_bare (listing : Listing) (p : Position) :
    listing.bare.groupRight p = listing.groupRight p := by
  have width : listing.bare.groupWidthRight p = listing.groupWidthRight p := by
    simp only [groupWidthRight, tokensOfRow_bare, ← List.map_drop, List.map_map]
    congr 2
    funext token
    exact Token.step_bare rfl rfl token
  simp only [groupRight, width]

theorem groupLeft_bare (listing : Listing) (p : Position) :
    listing.bare.groupLeft p = listing.groupLeft p := by
  have width : listing.bare.groupWidthLeft p = listing.groupWidthLeft p := by
    simp only [groupWidthLeft, tokensOfRow_bare, ← List.map_take, ← List.map_reverse, List.map_map]
    congr 2
    funext token
    exact Token.step_bare rfl rfl token
  simp only [groupLeft, width]

theorem headerTarget_bare (listing : Listing) (p : Position) :
    listing.bare.headerTarget p = listing.headerTarget p := by
  have opens : ∀ q, listing.bare.hasTag q .openBracket = listing.hasTag q .openBracket :=
    fun q => hasTag_bare listing q rfl
  simp only [headerTarget, marker?_bare, opens]

theorem callTarget_bare (listing : Listing) (p : Position) :
    listing.bare.callTarget p = listing.callTarget p := by
  simp only [callTarget, token?_bare]
  cases listing.token? p.right with
  | none => rfl
  | some token => simp only [Option.map_some, Token.text_bare_eq_iff]

theorem relatedInRow_bare (listing : Listing) (p : Position) :
    listing.bare.relatedInRow p = listing.relatedInRow p := by
  have opens : ∀ q, listing.bare.hasTag q .openParen = listing.hasTag q .openParen :=
    fun q => hasTag_bare listing q rfl
  have closes : ∀ q, listing.bare.hasTag q .closeParen = listing.hasTag q .closeParen :=
    fun q => hasTag_bare listing q rfl
  simp only [relatedInRow, callTarget_bare, opens, closes, groupRight_bare, groupLeft_bare]

theorem related_bare (listing : Listing) (p : Position) :
    listing.bare.related p = listing.related p := by
  have opens : ∀ q, listing.bare.hasTag q .openBracket = listing.hasTag q .openBracket :=
    fun q => hasTag_bare listing q rfl
  have closes : ∀ q, listing.bare.hasTag q .closeBracket = listing.hasTag q .closeBracket :=
    fun q => hasTag_bare listing q rfl
  simp only [related, token?_bare]
  cases listing.token? p with
  | none => rfl
  | some token =>
    simp only [Option.map_some, Token.coversRow_bare, codeOfRows_bare, headerTarget_bare, opens,
      closes, blockBelow_bare, blockAbove_bare, relatedInRow_bare]

end Listing

/-! ## Listings of the same structure -/

theorem map_eq_of_forall₂ {α β : Type} {view : α → β} {items others : List α}
    (same : List.Forall₂ (fun item other => view item = view other) items others) :
    items.map view = others.map view := by
  rw [← List.forall₂_eq_eq_eq, List.forall₂_map_left_iff, List.forall₂_map_right_iff]
  exact same

def Tag.structural : List Tag :=
  [.code, .lineNumber, .comment, .openBracket, .closeBracket, .openParen, .closeParen]

theorem Tag.mem_structural {tag : Tag} (counts : tag.isStructural = true) : tag ∈ structural := by
  cases tag with
  | code | lineNumber | comment | openBracket | closeBracket | openParen | closeParen => decide
  | noHighlighting | selected | related | custom _ => cases counts

/-- The tokens carry the same structural tags, and both or neither of them are `(`. -/
def Token.SamePart (token other : Token) : Prop :=
  (token.text = "(" ↔ other.text = "(") ∧
    ∀ tag ∈ Tag.structural, tag ∈ token.tags ↔ tag ∈ other.tags

instance (token other : Token) : Decidable (token.SamePart other) :=
  inferInstanceAs (Decidable (_ ∧ _))

namespace Listing

/-- As many rows and as many tokens in each, and position by position tokens that play the same
part. -/
def SameStructure (listing other : Listing) : Prop :=
  List.Forall₂ (fun row counterpart => List.Forall₂ Token.SamePart row.tokens counterpart.tokens)
    listing.rows other.rows

instance (listing other : Listing) : Decidable (listing.SameStructure other) :=
  inferInstanceAs (Decidable (List.Forall₂ _ _ _))

theorem SameStructure.bare_eq {listing other : Listing} (same : listing.SameStructure other) :
    listing.bare = other.bare := by
  refine congrArg (Listing.mk · 0) (map_eq_of_forall₂ (same.imp fun row counterpart tokens => ?_))
  refine congrArg (Row.mk none · false) (map_eq_of_forall₂ (tokens.imp fun a b parts => ?_))
  obtain ⟨text, tags⟩ := parts
  exact Token.bare_eq_of text fun tag structural => tags tag (Tag.mem_structural structural)

/-- Relating gives the same tokens in two listings of the same structure, whatever else their tokens
show or carry, however the rows are numbered and whichever is selected. -/
theorem related_sees_only_structure {listing other : Listing} (same : listing.SameStructure other)
    (p : Position) : listing.related p = other.related p := by
  rw [← related_bare, same.bare_eq, related_bare]

/-- A call with other names, markings, classes, number and selection is the same call. -/
theorem related_sees_only_structure_call :
    let call : Listing := ⟨[⟨some 1,
      [⟨"f", OrderedSet.ofList [.code]⟩, ⟨"(", OrderedSet.ofList [.code, .openParen]⟩,
        ⟨"x", OrderedSet.ofList [.code]⟩, ⟨")", OrderedSet.ofList [.code, .closeParen]⟩], true⟩], 0⟩
    let other : Listing := ⟨[⟨none,
      [⟨"print", OrderedSet.ofList [.code, .related, .custom "name"]⟩,
        ⟨"(", OrderedSet.ofList [.code, .openParen, .selected]⟩,
        ⟨"", OrderedSet.ofList [.code, .noHighlighting]⟩,
        ⟨"]", OrderedSet.ofList [.code, .closeParen]⟩], false⟩], 7⟩
    call.SameStructure other ∧ call ≠ other ∧ call.related ⟨0, 0⟩ = other.related ⟨0, 0⟩ ∧
      other.related ⟨0, 0⟩ = columnsOfRow 0 0 3 := by
  intro call other
  have same : call.SameStructure other := by decide
  exact ⟨same, by decide, related_sees_only_structure same ⟨0, 0⟩, by decide⟩

end Listing

end CodeRows
