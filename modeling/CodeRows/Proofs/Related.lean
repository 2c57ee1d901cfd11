import CodeRows.Proofs.Layout
import CodeRows.Proofs.Walk

/-! # Which tokens are related

Only tokens that are there are related to anything (`Listing.isSome_token?_of_mem_related`).  In a
listing whose tokens are all code, every token has some that are related to it
(`Listing.exists_mem_related`); the listing of a session is of that kind after every run, since
rows are laid out so. -/

set_option autoImplicit false

namespace CodeRows

namespace Listing

/-! ## Finding by tag -/

theorem mem_taggedInRow {listing : Listing} {index : Nat} {tag : Tag} {q : Position} :
    q ∈ listing.taggedInRow index tag ↔ q.row = index ∧ listing.hasTag q tag = true := by
  obtain ⟨row, column⟩ := q
  rw [taggedInRow, hasTag, token?]
  constructor
  · intro member
    cases found : listing.row? index with
    | none => simp [found] at member
    | some line =>
      simp only [found, List.mem_filterMap, Prod.exists, List.mem_zipIdx_iff_getElem?,
        Option.ite_none_right_eq_some, Option.some.injEq, Position.mk.injEq] at member
      obtain ⟨token, place, foundToken, carried, rfl, rfl⟩ := member
      refine ⟨rfl, ?_⟩
      rw [found, Option.bind_some, Row.token?, foundToken]
      exact carried
  · rintro ⟨rfl, carried⟩
    obtain ⟨token, foundToken, carried⟩ := (Option.any_eq_true _ _).1 carried
    obtain ⟨line, found, foundToken⟩ := Option.bind_eq_some_iff.1 foundToken
    simp only [found, List.mem_filterMap, Prod.exists, List.mem_zipIdx_iff_getElem?]
    exact ⟨token, column, foundToken, if_pos carried⟩

theorem row_lt_rowCount {listing : Listing} {q : Position}
    (occupied : (listing.token? q).isSome = true) : q.row < listing.rowCount := by
  obtain ⟨token, found⟩ := Option.isSome_iff_exists.1 occupied
  obtain ⟨row, foundRow, -⟩ := Option.bind_eq_some_iff.1 found
  exact (List.getElem?_eq_some_iff.1 foundRow).1

theorem mem_tagged {listing : Listing} {tag : Tag} {q : Position} :
    q ∈ listing.tagged tag ↔ listing.hasTag q tag = true := by
  simp only [tagged, List.mem_flatMap, mem_taggedInRow, List.mem_range]
  constructor
  · rintro ⟨index, -, -, carried⟩
    exact carried
  · intro carried
    exact ⟨q.row, row_lt_rowCount (isSome_token?_of_hasTag carried), rfl, carried⟩

theorem mem_codeOfRows {listing : Listing} {first last : Nat} {q : Position} :
    q ∈ listing.codeOfRows first last ↔
      (first ≤ q.row ∧ q.row ≤ last) ∧ listing.hasTag q .code = true := by
  simp only [codeOfRows, OrderedSet.mem_ofList, List.mem_flatMap, mem_taggedInRow,
    List.mem_range'_1]
  constructor
  · rintro ⟨index, range, rfl, carried⟩
    exact ⟨by omega, carried⟩
  · rintro ⟨range, carried⟩
    exact ⟨q.row, by omega, rfl, carried⟩

theorem mem_columnsOfRow {row first last : Nat} {q : Position} :
    q ∈ columnsOfRow row first last ↔ q.row = row ∧ first ≤ q.column ∧ q.column ≤ last := by
  obtain ⟨line, column⟩ := q
  simp only [columnsOfRow, OrderedSet.mem_ofList, List.mem_map, List.mem_range'_1,
    Position.mk.injEq]
  constructor
  · rintro ⟨place, range, rfl, rfl⟩
    exact ⟨rfl, by omega⟩
  · rintro ⟨rfl, range⟩
    exact ⟨column, by omega, rfl, rfl⟩

/-! ## Related tokens are there -/

theorem isSome_token?_iff {listing : Listing} {q : Position} :
    (listing.token? q).isSome = true ↔ q.column < (listing.tokensOfRow q.row).length := by
  rw [token?, tokensOfRow]
  cases listing.row? q.row with
  | none => simp
  | some row => simp [Row.token?]

theorem isSome_token?_of_mem_groupRight {listing : Listing} {p q : Position}
    (occupied : (listing.token? p).isSome = true) (member : q ∈ listing.groupRight p) :
    (listing.token? q).isSome = true := by
  obtain ⟨sameRow, -, right⟩ := mem_columnsOfRow.1 member
  have width : listing.groupWidthRight p ≤ _ := Nesting.reach_le_length _ _
  rw [List.length_map, List.length_drop] at width
  rw [isSome_token?_iff] at occupied ⊢
  rw [sameRow]
  omega

theorem isSome_token?_of_mem_groupLeft {listing : Listing} {p q : Position}
    (occupied : (listing.token? p).isSome = true) (member : q ∈ listing.groupLeft p) :
    (listing.token? q).isSome = true := by
  obtain ⟨sameRow, -, right⟩ := mem_columnsOfRow.1 member
  rw [isSome_token?_iff] at occupied ⊢
  rw [sameRow]
  omega

theorem isSome_token?_callTarget {listing : Listing} {p : Position}
    (occupied : (listing.token? p).isSome = true) :
    (listing.token? (listing.callTarget p)).isSome = true := by
  rw [callTarget]
  cases found : listing.token? p.right with
  | none => exact occupied
  | some token =>
    dsimp only
    split
    · rw [found]
      rfl
    · exact occupied

theorem isSome_token?_headerTarget {listing : Listing} {p : Position}
    (occupied : (listing.token? p).isSome = true) :
    (listing.token? (listing.headerTarget p)).isSome = true := by
  rw [headerTarget]
  split
  · split
    · split
      · rename_i opens
        exact isSome_token?_of_hasTag opens
      · exact occupied
    · exact occupied
  · exact occupied

theorem isSome_token?_of_mem_relatedInRow {listing : Listing} {p q : Position}
    (occupied : (listing.token? p).isSome = true) (member : q ∈ listing.relatedInRow p) :
    (listing.token? q).isSome = true := by
  have called := isSome_token?_callTarget occupied
  rw [relatedInRow] at member
  split at member
  · exact isSome_token?_of_mem_groupRight called member
  · split at member
    · exact isSome_token?_of_mem_groupLeft called member
    · rw [OrderedSet.mem_ofList, List.mem_singleton] at member
      rw [member]
      exact called

theorem isSome_token?_of_mem_related {listing : Listing} {p q : Position}
    (member : q ∈ listing.related p) : (listing.token? q).isSome = true := by
  have ofCode : ∀ first last, q ∈ listing.codeOfRows first last →
      (listing.token? q).isSome = true := fun first last found =>
    isSome_token?_of_hasTag (mem_codeOfRows.1 found).2
  rw [related] at member
  cases found : listing.token? p with
  | none =>
    rw [found] at member
    exact absurd member (OrderedSet.not_mem_empty q)
  | some token =>
    have occupied : (listing.token? p).isSome = true := by
      rw [found]
      rfl
    simp only [found] at member
    split at member
    · exact ofCode _ _ member
    · split at member
      · exact ofCode _ _ member
      · split at member
        · exact ofCode _ _ member
        · exact isSome_token?_of_mem_relatedInRow (isSome_token?_headerTarget occupied) member

/-! ## Every token is code -/

def AllCode (listing : Listing) : Prop :=
  ∀ line ∈ listing.tagging, ∀ tags ∈ line, Tag.code ∈ tags

theorem AllCode.hasTag {listing : Listing} (coded : listing.AllCode) {q : Position}
    (occupied : (listing.token? q).isSome = true) : listing.hasTag q .code = true := by
  obtain ⟨token, found⟩ := Option.isSome_iff_exists.1 occupied
  rw [Listing.hasTag, found, Option.any_some, Token.hasTag_iff]
  obtain ⟨row, foundRow, foundToken⟩ := Option.bind_eq_some_iff.1 found
  exact coded row.tagging (List.mem_map_of_mem (mem_rows_of_row? foundRow)) token.tags
    (List.mem_map_of_mem (List.mem_of_getElem? foundToken))

/-- A token under the pointer is related to itself or to the token that it stands for. -/
theorem exists_mem_related {listing : Listing} (coded : listing.AllCode) {p : Position}
    (occupied : (listing.token? p).isSome = true) : ∃ q, q ∈ listing.related p := by
  have target := isSome_token?_headerTarget occupied
  have inBlock : ∀ first last, first ≤ (listing.headerTarget p).row →
      (listing.headerTarget p).row ≤ last → ∃ q, q ∈ listing.codeOfRows first last :=
    fun first last above below =>
      ⟨listing.headerTarget p, mem_codeOfRows.2 ⟨⟨above, below⟩, coded.hasTag target⟩⟩
  have inGroup : ∀ row first last, first ≤ last → ∃ q, q ∈ columnsOfRow row first last :=
    fun row first last order => ⟨⟨row, last⟩, mem_columnsOfRow.2 ⟨rfl, order, Nat.le_refl _⟩⟩
  obtain ⟨token, found⟩ := Option.isSome_iff_exists.1 occupied
  simp only [related, found]
  split
  · exact ⟨p, mem_codeOfRows.2 ⟨⟨Nat.le_refl _, Nat.le_refl _⟩, coded.hasTag occupied⟩⟩
  · split
    · exact inBlock _ _ (Nat.sub_le _ _) (Nat.le_add_right _ _)
    · split
      · refine inBlock _ _ ?_ (Nat.le_refl _)
        omega
      · rw [relatedInRow]
        split
        · refine inGroup _ _ _ ?_
          omega
        · split
          · refine inGroup _ _ _ ?_
            omega
          · exact ⟨_, OrderedSet.mem_ofList.2 (List.mem_singleton.2 rfl)⟩

end Listing

theorem Session.allCode_run (settings : Settings) (commands : List Command) :
    ((Session.new settings).run commands).listing.AllCode := by
  intro line member tags carried
  obtain ⟨row, inRows, rfl⟩ := List.mem_map.1 member
  obtain ⟨token, inRow, rfl⟩ := List.mem_map.1 carried
  exact (laidOut_run settings commands row inRows).code token inRow

end CodeRows
