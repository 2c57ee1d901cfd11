import CodeRows.Proofs.Related

/-! # Which rule decides

Of the rules that relate tokens the first that applies decides.  `Listing.Decides` lists the four
outcomes with their conditions: the row, the block below, the block above, and whatever a token
stands for within its row.  A token takes part in each of them, though it may have been treated as
another token first, with one exception: in front of a `(` that is no delimiter it is treated as
the `(`, which then stands for itself alone (`Listing.GivesWay`). -/

set_option autoImplicit false

namespace CodeRows

theorem TagSet.coversRow_iff {tags : TagSet} :
    tags.coversRow = true ↔ Tag.comment ∈ tags ∨ Tag.lineNumber ∈ tags := by
  simp only [coversRow, OrderedSet.any, List.any_eq_true, Tag.coversRow, Bool.or_eq_true,
    beq_iff_eq, OrderedSet.mem_def]
  constructor
  · intro ⟨tag, member, covers⟩
    rcases covers with comment | number
    · exact Or.inl (comment ▸ member)
    · exact Or.inr (number ▸ member)
  · intro carried
    rcases carried with comment | number
    · exact ⟨_, comment, Or.inl rfl⟩
    · exact ⟨_, number, Or.inr rfl⟩

namespace Listing

section Targets
variable {listing : Listing} {p : Position}

theorem row_of_marker? {index : Nat} {marker : Position}
    (found : listing.marker? index = some marker) : marker.row = index := by
  rw [marker?] at found
  split at found
  · split at found
    · cases found
    · cases found
      rfl
  · cases found

theorem headerTarget_cases (listing : Listing) (p : Position) :
    listing.headerTarget p = p ∨
      listing.hasTag (listing.headerTarget p) .openBracket = true ∧
        (listing.headerTarget p).row = p.row + 1 := by
  rw [headerTarget]
  split
  · cases found : listing.marker? (p.row + 1) with
    | none => exact Or.inl rfl
    | some marker =>
      dsimp only
      split
      · rename_i opens
        exact Or.inr ⟨opens, row_of_marker? found⟩
      · exact Or.inl rfl
  · exact Or.inl rfl

theorem headerTarget_near (listing : Listing) (p : Position) :
    p.row ≤ (listing.headerTarget p).row ∧ (listing.headerTarget p).row ≤ p.row + 1 := by
  rcases listing.headerTarget_cases p with same | ⟨-, below⟩
  · rw [same]
    omega
  · omega

theorem headerTarget_eq_self
    (unopened : listing.hasTag (listing.headerTarget p) .openBracket = false) :
    listing.headerTarget p = p := by
  rcases listing.headerTarget_cases p with same | ⟨opens, -⟩
  · exact same
  · rw [opens] at unopened
    cases unopened

theorem callTarget_cases (listing : Listing) (p : Position) :
    listing.callTarget p = p ∨
      listing.callTarget p = p.right ∧
        ∃ next, listing.token? p.right = some next ∧ next.text = "(" := by
  rw [callTarget]
  cases found : listing.token? p.right with
  | none => exact Or.inl rfl
  | some next =>
    by_cases paren : next.text = "("
    · exact Or.inr ⟨if_pos paren, next, rfl, paren⟩
    · exact Or.inl (if_neg paren)

theorem callTarget_near (listing : Listing) (p : Position) :
    p.row = (listing.callTarget p).row ∧ p.column ≤ (listing.callTarget p).column ∧
      (listing.callTarget p).column ≤ p.column + 1 := by
  rcases listing.callTarget_cases p with same | ⟨moved, -⟩
  · simp [same]
  · simp [moved, Position.right]

theorem callTarget_of_paren {next : Token} (found : listing.token? p.right = some next)
    (paren : next.text = "(") : listing.callTarget p = p.right := by
  simp only [callTarget, found, if_pos paren]

end Targets

/-! ## The outcomes -/

inductive Decides (listing : Listing) (p : Position) : Highlight → Prop where
  | row {token : Token} (found : listing.token? p = some token)
      (covers : token.tags.coversRow = true) : Decides listing p (listing.codeOfRows p.row p.row)
  | opening {token : Token} (found : listing.token? p = some token)
      (plain : token.tags.coversRow = false)
      (opens : listing.hasTag (listing.headerTarget p) .openBracket = true) :
      Decides listing p (listing.blockBelow (listing.headerTarget p).row)
  | closing {token : Token} (found : listing.token? p = some token)
      (plain : token.tags.coversRow = false)
      (unopened : listing.hasTag (listing.headerTarget p) .openBracket = false)
      (closes : listing.hasTag p .closeBracket = true) :
      Decides listing p (listing.blockAbove p.row)
  | within {token : Token} (found : listing.token? p = some token)
      (plain : token.tags.coversRow = false)
      (unopened : listing.hasTag (listing.headerTarget p) .openBracket = false)
      (unclosed : listing.hasTag p .closeBracket = false) :
      Decides listing p (listing.relatedInRow p)

theorem related_eq_of_decides {listing : Listing} {p : Position} {tokens : Highlight}
    (decided : listing.Decides p tokens) : listing.related p = tokens := by
  cases decided with
  | row found covers => simp [related, found, covers]
  | opening found plain opens => simp [related, found, plain, opens]
  | closing found plain unopened closes =>
    have same := headerTarget_eq_self unopened
    rw [same] at unopened
    simp [related, found, plain, same, unopened, closes]
  | within found plain unopened unclosed =>
    have same := headerTarget_eq_self unopened
    rw [same] at unopened
    simp [related, found, plain, same, unopened, unclosed]

theorem decides_related {listing : Listing} {p : Position}
    (occupied : (listing.token? p).isSome = true) : listing.Decides p (listing.related p) := by
  obtain ⟨token, found⟩ := Option.isSome_iff_exists.1 occupied
  suffices decided : ∃ tokens, listing.Decides p tokens by
    obtain ⟨tokens, decided⟩ := decided
    rwa [related_eq_of_decides decided]
  cases covers : token.tags.coversRow with
  | true => exact ⟨_, .row found covers⟩
  | false =>
    cases opens : listing.hasTag (listing.headerTarget p) .openBracket with
    | true => exact ⟨_, .opening found covers opens⟩
    | false =>
      cases closes : listing.hasTag p .closeBracket with
      | true => exact ⟨_, .closing found covers opens closes⟩
      | false => exact ⟨_, .within found covers opens closes⟩

/-! ## The token under the pointer -/

/-- The token comes before a `(` that is no delimiter, and no rule before that for calls applies:
it is neither a comment nor a gutter slot, and what it is treated as neither opens nor closes a
block. -/
structure GivesWay (listing : Listing) (p : Position) : Prop where
  plain : ∀ token, listing.token? p = some token →
    Tag.comment ∉ token.tags ∧ Tag.lineNumber ∉ token.tags
  unopened : listing.hasTag (listing.headerTarget p) .openBracket = false
  unclosed : listing.hasTag (listing.headerTarget p) .closeBracket = false
  paren : ∃ next, listing.token? p.right = some next ∧ next.text = "(" ∧
    Tag.openParen ∉ next.tags ∧ Tag.closeParen ∉ next.tags

section Hovered
variable {listing : Listing} {p : Position}

/-- Both rules for groups take in the delimiter and the token before it. -/
theorem mem_groups_of_near (listing : Listing) {p q : Position} (sameRow : q.row = p.row)
    (before : q.column ≤ p.column) (near : p.column ≤ q.column + 1) :
    q ∈ listing.groupRight p ∧ q ∈ listing.groupLeft p := by
  rw [groupRight, groupLeft, mem_columnsOfRow, mem_columnsOfRow]
  omega

theorem callTarget_mem_relatedInRow (listing : Listing) (p : Position) :
    listing.callTarget p ∈ listing.relatedInRow p := by
  obtain ⟨inRight, inLeft⟩ :=
    listing.mem_groups_of_near rfl (Nat.le_refl (listing.callTarget p).column) (Nat.le_succ _)
  rw [relatedInRow]
  split
  · exact inRight
  · split
    · exact inLeft
    · simp

theorem relatedInRow_of_plain_paren {next : Token} (found : listing.token? p.right = some next)
    (paren : next.text = "(") (unopened : Tag.openParen ∉ next.tags)
    (unclosed : Tag.closeParen ∉ next.tags) :
    listing.relatedInRow p = OrderedSet.ofList [p.right] := by
  simp [relatedInRow, callTarget_of_paren found paren, hasTag, found, unopened, unclosed]

theorem mem_relatedInRow_self
    (delimits : ∀ next, listing.token? p.right = some next → next.text = "(" →
      Tag.openParen ∈ next.tags ∨ Tag.closeParen ∈ next.tags) : p ∈ listing.relatedInRow p := by
  obtain ⟨sameRow, before, near⟩ := listing.callTarget_near p
  obtain ⟨inRight, inLeft⟩ := listing.mem_groups_of_near sameRow before near
  rw [relatedInRow]
  split
  · exact inRight
  · split
    · exact inLeft
    · rename_i unopened unclosed
      rcases listing.callTarget_cases p with same | ⟨moved, next, found, paren⟩
      · simp [same]
      · simp only [moved, hasTag, found, Option.any_some, Token.hasTag_iff] at unopened unclosed
        rcases delimits next found paren with opens | closes
        · exact absurd opens unopened
        · exact absurd closes unclosed

theorem GivesWay.related_eq (givesWay : listing.GivesWay p)
    (occupied : (listing.token? p).isSome = true) :
    listing.related p = OrderedSet.ofList [p.right] := by
  obtain ⟨token, found⟩ := Option.isSome_iff_exists.1 occupied
  obtain ⟨next, foundNext, paren, unopened, unclosed⟩ := givesWay.paren
  have plain : token.tags.coversRow = false := by
    rw [Bool.eq_false_iff, ne_eq, TagSet.coversRow_iff, not_or]
    exact givesWay.plain token found
  have closesNot : listing.hasTag p .closeBracket = false := by
    have target := givesWay.unclosed
    rwa [headerTarget_eq_self givesWay.unopened] at target
  rw [related_eq_of_decides (.within found plain givesWay.unopened closesNot)]
  exact relatedInRow_of_plain_paren foundNext paren unopened unclosed

theorem mem_related_self (coded : listing.AllCode) (occupied : (listing.token? p).isSome = true)
    (stays : ¬listing.GivesWay p) : p ∈ listing.related p := by
  have code := coded.hasTag occupied
  have decided := decides_related occupied
  generalize listing.related p = tokens at decided ⊢
  cases decided with
  | row found covers => exact mem_codeOfRows.2 ⟨⟨Nat.le_refl _, Nat.le_refl _⟩, code⟩
  | opening found plain opens =>
    have near := listing.headerTarget_near p
    refine mem_codeOfRows.2 ⟨?_, code⟩
    omega
  | closing found plain unopened closes =>
    refine mem_codeOfRows.2 ⟨?_, code⟩
    omega
  | within found plain unopened unclosed =>
    apply mem_relatedInRow_self
    intro next foundNext paren
    by_contra neither
    rw [not_or] at neither
    refine stays ⟨?_, unopened, ?_, next, foundNext, paren, neither⟩
    · intro token same
      rw [found, Option.some.injEq] at same
      rw [← same, ← not_or, ← TagSet.coversRow_iff, plain]
      exact Bool.false_ne_true
    · rw [headerTarget_eq_self unopened]
      exact unclosed

end Hovered

end Listing

namespace Session

/-- Where there is no token nothing is related, and only tokens that are there ever are.  In the
course of a session a token has related tokens and is one of them, unless it gives way to a `(`
that is no delimiter, and then that one alone is related. -/
theorem related_sound_and_covering :
    (∀ (listing : Listing) (p : Position),
      (listing.token? p = none → listing.related p = ∅) ∧
      ∀ q ∈ listing.related p, (listing.token? q).isSome = true) ∧
    ∀ (settings : Settings) (history : List Command) (p : Position),
      let listing := ((new settings).run history).listing
      (listing.token? p).isSome = true →
        (∃ q, q ∈ listing.related p) ∧
        (p ∈ listing.related p ↔ ¬listing.GivesWay p) ∧
        (listing.GivesWay p → listing.related p = OrderedSet.ofList [p.right]) := by
  constructor
  · intro listing p
    refine ⟨?_, fun q member => Listing.isSome_token?_of_mem_related member⟩
    intro vacant
    simp only [Listing.related, vacant]
  · intro settings history p listing occupied
    have coded : listing.AllCode := allCode_run settings history
    refine ⟨Listing.exists_mem_related coded occupied, ⟨?_, ?_⟩, ?_⟩
    · intro member givesWay
      rw [givesWay.related_eq occupied, OrderedSet.mem_ofList, List.mem_singleton] at member
      have columns := congrArg Position.column member
      simp [Position.right] at columns
    · exact Listing.mem_related_self coded occupied
    · intro givesWay
      exact givesWay.related_eq occupied

/-- A name before a `(` that the host did not tag. -/
theorem related_sound_and_covering_untagged :
    let listing := ((new {}).run [.insert 0 [⟨"f", none⟩, ⟨"(", none⟩]]).listing
    listing.GivesWay ⟨0, 2⟩ ∧ listing.related ⟨0, 2⟩ = OrderedSet.ofList [⟨0, 3⟩] ∧
      (⟨0, 2⟩ : Position) ∉ listing.related ⟨0, 2⟩ ∧
      (⟨0, 3⟩ : Position) ∈ listing.related ⟨0, 3⟩ := by
  intro listing
  have covers := related_sound_and_covering.2 {} [.insert 0 [⟨"f", none⟩, ⟨"(", none⟩]]
  have givesWay : listing.GivesWay ⟨0, 2⟩ := by
    refine ⟨?_, by decide, by decide, ⟨"(", OrderedSet.ofList [.code]⟩, by decide, rfl,
      by decide, by decide⟩
    intro token found
    have name : listing.token? ⟨0, 2⟩ = some ⟨"f", OrderedSet.ofList [.code]⟩ := by decide
    rw [name, Option.some.injEq] at found
    rw [← found]
    decide
  obtain ⟨-, self, alone⟩ := covers ⟨0, 2⟩ (by decide)
  obtain ⟨-, selfParen, -⟩ := covers ⟨0, 3⟩ (by decide)
  refine ⟨givesWay, alone givesWay, fun member => self.1 member givesWay, selfParen.2 ?_⟩
  intro other
  obtain ⟨next, found, -⟩ := other.paren
  have vacant : listing.token? ⟨0, 4⟩ = none := by decide
  rw [show (⟨0, 3⟩ : Position).right = ⟨0, 4⟩ from rfl, vacant] at found
  cases found

end Session

end CodeRows
