import CodeRows.Proofs.Coverage
import CodeRows.Proofs.Rules
import CodeRows.Proofs.Styling
import CodeRows.Proofs.Visits

/-! # Relating is local

Which tokens are related to one is decided by the rows in which they lie and by the row after these.
A listing that shows the same rows there, perhaps further down, therefore relates the same tokens,
further down by as much (`Listing.Stretch.related`); only at the top of a listing is it not the same
to have rows above.  An insertion leaves the rows above it where they are and moves those below it
by one.  The numbers and the arrow that it rewrites are nothing that relating sees, so the tokens
related to one stay or move with their rows, unless the new row comes among them or right after
them (`Session.related_after_insertion`). -/

set_option autoImplicit false

namespace CodeRows

/-! ## Further down -/

def Position.down (p : Position) (offset : Nat) : Position := { p with row := p.row + offset }

def Highlight.down (tokens : Highlight) (offset : Nat) : Highlight :=
  OrderedSet.ofList (tokens.elems.map (·.down offset))

@[simp] theorem Position.down_zero (p : Position) : p.down 0 = p := rfl

namespace Highlight

theorem mem_down {tokens : Highlight} {offset : Nat} {q : Position} :
    q ∈ tokens.down offset ↔ ∃ p ∈ tokens, p.down offset = q := by
  rw [down, OrderedSet.mem_ofList, List.mem_map]
  rfl

@[simp] theorem down_zero (tokens : Highlight) : tokens.down 0 = tokens := by
  refine OrderedSet.ext_mem fun q => ?_
  simp [mem_down]

theorem down_singleton (p : Position) (offset : Nat) :
    Highlight.down (OrderedSet.ofList [p]) offset = OrderedSet.ofList [p.down offset] := by
  refine OrderedSet.ext_mem fun q => ?_
  simp [mem_down, eq_comm]

end Highlight

namespace Nesting

/-- A walk looks at the steps that it takes and at the one after, if only to find none. -/
theorem reach_congr {depth : Nat} {steps other : List Step}
    (same : ∀ k ≤ reach depth steps, other[k]? = steps[k]?) :
    reach depth other = reach depth steps := by
  induction steps generalizing depth other with
  | nil =>
    cases depth with
    | zero => rw [reach, reach]
    | succ depth =>
      have none := same 0 (Nat.zero_le _)
      cases other with
      | nil => rfl
      | cons step rest => simp at none
  | cons step steps ih =>
    cases depth with
    | zero => rw [reach, reach]
    | succ depth =>
      have first := same 0 (Nat.zero_le _)
      cases other with
      | nil => simp at first
      | cons step' rest =>
        simp only [List.getElem?_cons_zero, Option.some.injEq] at first
        subst first
        rw [reach, reach, ih]
        intro k bound
        have next := same (k + 1) (by rw [reach]; omega)
        simpa only [List.getElem?_cons_succ] using next

end Nesting

namespace Listing

theorem columnsOfRow_down (row first last offset : Nat) :
    columnsOfRow (row + offset) first last = (columnsOfRow row first last).down offset := by
  refine OrderedSet.ext_mem fun q => ?_
  rw [mem_columnsOfRow, Highlight.mem_down]
  constructor
  · intro ⟨place, range⟩
    refine ⟨⟨row, q.column⟩, mem_columnsOfRow.2 ⟨rfl, range⟩, ?_⟩
    rw [Position.down, ← place]
  · intro ⟨p, member, moved⟩
    obtain ⟨place, range⟩ := mem_columnsOfRow.1 member
    rw [← moved, Position.down, place]
    exact ⟨rfl, range⟩

/-! ## The same rows at another place -/

/-- The rows from `first` to `last` stand in `other` as well, `offset` rows further down; where
there are none, there are none in `other`.  Rows at the top stay there. -/
structure Stretch (listing other : Listing) (offset first last : Nat) : Prop where
  rows : ∀ index, first ≤ index → index ≤ last → other.row? (index + offset) = listing.row? index
  top : first = 0 → offset = 0

namespace Stretch

variable {listing other : Listing} {offset first last row : Nat} {p : Position}
  (same : listing.Stretch other offset first last)

include same

theorem token? (above : first ≤ p.row) (below : p.row ≤ last) :
    other.token? (p.down offset) = listing.token? p := by
  rw [Listing.token?, Listing.token?, Position.down, same.rows p.row above below]

theorem hasTag (above : first ≤ p.row) (below : p.row ≤ last) (tag : Tag) :
    other.hasTag (p.down offset) tag = listing.hasTag p tag := by
  rw [Listing.hasTag, Listing.hasTag, same.token? above below]

theorem tokensOfRow (above : first ≤ row) (below : row ≤ last) :
    other.tokensOfRow (row + offset) = listing.tokensOfRow row := by
  rw [Listing.tokensOfRow, Listing.tokensOfRow, same.rows row above below]

theorem codeOfRows {top bottom : Nat} (above : first ≤ top) (below : bottom ≤ last) :
    other.codeOfRows (top + offset) (bottom + offset) =
      (listing.codeOfRows top bottom).down offset := by
  refine OrderedSet.ext_mem fun q => ?_
  rw [mem_codeOfRows, Highlight.mem_down]
  constructor
  · intro ⟨range, code⟩
    have back : (⟨q.row - offset, q.column⟩ : Position).down offset = q := by
      rw [Position.down, Nat.sub_add_cancel (by omega)]
    rw [← back, same.hasTag (by dsimp only; omega) (by dsimp only; omega)] at code
    exact ⟨_, mem_codeOfRows.2 ⟨by dsimp only; omega, code⟩, back⟩
  · intro ⟨p, member, moved⟩
    obtain ⟨range, code⟩ := mem_codeOfRows.1 member
    rw [← moved, same.hasTag (by omega) (by omega), Position.down]
    exact ⟨by dsimp only; omega, code⟩

theorem marker? (above : first ≤ row) (below : row ≤ last) :
    other.marker? (row + offset) = (listing.marker? row).map (·.down offset) := by
  rw [Listing.marker?, Listing.marker?, same.rows row above below]
  cases listing.row? row with
  | none => rfl
  | some line =>
    dsimp only
    split <;> rfl

/-! ### Each rule at the other place -/

theorem headerTarget (above : first ≤ p.row) (below : p.row + 1 ≤ last) :
    other.headerTarget (p.down offset) = (listing.headerTarget p).down offset := by
  have next : (p.down offset).row + 1 = p.row + 1 + offset := Nat.add_right_comm _ _ _
  rw [Listing.headerTarget, Listing.headerTarget, next, same.marker? (by omega) below]
  by_cases content : p.column = Position.contentColumn
  · rw [if_pos content, if_pos (show (p.down offset).column = _ from content)]
    cases found : listing.marker? (p.row + 1) with
    | none => rfl
    | some marker =>
      have place : marker.row = p.row + 1 := row_of_marker? found
      simp only [Option.map_some, same.hasTag (p := marker) (by omega) (by omega)]
      split <;> rfl
  · rw [if_neg content, if_neg (show ¬(p.down offset).column = _ from content)]

theorem hasTag_headerTarget (above : first ≤ p.row) (below : p.row + 1 ≤ last) (tag : Tag) :
    other.hasTag (other.headerTarget (p.down offset)) tag =
      listing.hasTag (listing.headerTarget p) tag := by
  have near := listing.headerTarget_near p
  rw [same.headerTarget above below, same.hasTag (by omega) (by omega)]

theorem blockHeight (above : first ≤ row + 1) (below : row + listing.blockHeight row + 1 ≤ last) :
    other.blockHeight (row + offset) = listing.blockHeight row := by
  apply Nesting.reach_congr
  intro k bound
  have height : k ≤ listing.blockHeight row := bound
  have rows := same.rows (row + 1 + k) (by omega) (by omega)
  rw [row?, row?] at rows
  rw [List.getElem?_map, List.getElem?_map, List.getElem?_drop, List.getElem?_drop, ← rows]
  congr 2
  omega

theorem blockBelow (above : first ≤ row - 1) (below : row + listing.blockHeight row + 1 ≤ last) :
    other.blockBelow (row + offset) = (listing.blockBelow row).down offset := by
  have top := same.top
  have start : row + offset - 1 = row - 1 + offset := by omega
  have stop : row + offset + listing.blockHeight row = row + listing.blockHeight row + offset := by
    omega
  rw [Listing.blockBelow, Listing.blockBelow, same.blockHeight (by omega) below, start, stop]
  exact same.codeOfRows above (by omega)

theorem blockDepth (inside : row < listing.rowCount)
    (above : first ≤ row - listing.blockDepth row - 1) (below : row ≤ last) :
    other.blockDepth (row + offset) = listing.blockDepth row := by
  have top := same.top
  have insideOther : row + offset < other.rowCount := by
    have found := same.rows row (by omega) below
    rw [row?, row?, List.getElem?_eq_getElem inside] at found
    exact (List.getElem?_eq_some_iff.1 found).1
  apply Nesting.reach_congr
  intro k bound
  have depth : k ≤ listing.blockDepth row := bound
  rw [List.getElem?_map, List.getElem?_map]
  congr 1
  by_cases within : k < row
  · have rows := same.rows (row - 1 - k) (by omega) (by omega)
    rw [row?, row?] at rows
    rw [getElem?_reverse_take (Nat.le_of_lt inside) within,
      getElem?_reverse_take (Nat.le_of_lt insideOther) (by omega), ← rows]
    congr 1
    omega
  · -- The walk has run out at the top, and from there nothing is moved.
    have unmoved : offset = 0 := top (by omega)
    rw [List.getElem?_eq_none (by simp; omega), List.getElem?_eq_none (by simp; omega)]

theorem blockAbove (inside : row < listing.rowCount)
    (above : first ≤ row - listing.blockDepth row - 1) (below : row ≤ last) :
    other.blockAbove (row + offset) = (listing.blockAbove row).down offset := by
  have top := same.top
  have start : row + offset - listing.blockDepth row - 1 =
      row - listing.blockDepth row - 1 + offset := by
    omega
  rw [Listing.blockAbove, Listing.blockAbove, same.blockDepth inside above below, start]
  exact same.codeOfRows above below

theorem groups (above : first ≤ p.row) (below : p.row ≤ last) :
    other.groupRight (p.down offset) = (listing.groupRight p).down offset ∧
      other.groupLeft (p.down offset) = (listing.groupLeft p).down offset := by
  have tokens : other.tokensOfRow (p.down offset).row = listing.tokensOfRow p.row :=
    same.tokensOfRow above below
  constructor
  · rw [groupRight, groupRight, groupWidthRight, tokens]
    exact columnsOfRow_down _ _ _ _
  · rw [groupLeft, groupLeft, groupWidthLeft, tokens]
    exact columnsOfRow_down _ _ _ _

theorem callTarget (above : first ≤ p.row) (below : p.row ≤ last) :
    other.callTarget (p.down offset) = (listing.callTarget p).down offset := by
  have next : other.token? (p.down offset).right = listing.token? p.right :=
    same.token? (p := p.right) above below
  rw [Listing.callTarget, Listing.callTarget, next]
  cases listing.token? p.right with
  | none => rfl
  | some token =>
    dsimp only
    split <;> rfl

theorem relatedInRow (above : first ≤ p.row) (below : p.row ≤ last) :
    other.relatedInRow (p.down offset) = (listing.relatedInRow p).down offset := by
  obtain ⟨sameRow, -⟩ := listing.callTarget_near p
  rw [sameRow] at above below
  obtain ⟨right, left⟩ := same.groups above below
  simp only [Listing.relatedInRow, same.callTarget (sameRow ▸ above) (sameRow ▸ below),
    same.hasTag above below, right, left]
  split
  · rfl
  · split
    · rfl
    · exact (Highlight.down_singleton _ _).symm

end Stretch

/-! ## All rules together -/

def Filled (listing : Listing) : Prop :=
  ∀ index < listing.rowCount, ∃ column, listing.hasTag ⟨index, column⟩ .code = true

theorem Filled.bounds {listing : Listing} (filled : listing.Filled) {top bottom first last : Nat}
    (order : top ≤ bottom) (inside : bottom < listing.rowCount)
    (within : ∀ q ∈ listing.codeOfRows top bottom, first ≤ q.row ∧ q.row ≤ last) :
    first ≤ top ∧ bottom ≤ last := by
  obtain ⟨column, code⟩ := filled top (Nat.lt_of_le_of_lt order inside)
  obtain ⟨columnBelow, codeBelow⟩ := filled bottom inside
  have atTop := within _ (mem_codeOfRows.2 ⟨⟨Nat.le_refl _, order⟩, code⟩)
  have atBottom := within _ (mem_codeOfRows.2 ⟨⟨order, Nat.le_refl _⟩, codeBelow⟩)
  exact ⟨atTop.1, atBottom.2⟩

theorem blockHeight_lt {listing : Listing} {row : Nat} (inside : row < listing.rowCount) :
    row + listing.blockHeight row < listing.rowCount := by
  have height : listing.blockHeight row ≤ _ := Nesting.reach_le_length _ _
  rw [List.length_map, List.length_drop, ← rowCount] at height
  omega

theorem Stretch.related {listing other : Listing} {offset first last : Nat}
    (same : listing.Stretch other offset first (last + 1)) (filled : listing.Filled) {p : Position}
    (occupied : (listing.token? p).isSome = true)
    (within : ∀ q ∈ listing.related p, first ≤ q.row ∧ q.row ≤ last) :
    other.related (p.down offset) = (listing.related p).down offset := by
  have inside := row_lt_rowCount occupied
  have decided := decides_related occupied
  generalize listing.related p = tokens at decided within ⊢
  -- A rule relates code of every row that it looked at, the row after the last one excepted, so
  -- the bounds on the related tokens are bounds on what was looked at.
  cases decided with
  | row found covers =>
    obtain ⟨above, below⟩ := filled.bounds (Nat.le_refl _) inside within
    rw [← same.codeOfRows above (by omega)]
    refine related_eq_of_decides (.row ?_ covers)
    rw [same.token? above (by omega), found]
  | opening found plain opens =>
    have near := listing.headerTarget_near p
    have insideTarget := row_lt_rowCount (isSome_token?_headerTarget occupied)
    obtain ⟨above, below⟩ := filled.bounds (by omega) (blockHeight_lt insideTarget) within
    have decidedOther := Decides.opening (p := p.down offset)
      ((same.token? (by omega) (by omega)).trans found) plain
      ((same.hasTag_headerTarget (by omega) (by omega) _).trans opens)
    rw [related_eq_of_decides decidedOther, same.headerTarget (by omega) (by omega)]
    exact same.blockBelow above (by omega)
  | closing found plain unopened closes =>
    obtain ⟨above, below⟩ := filled.bounds (by omega) inside within
    have decidedOther := Decides.closing (p := p.down offset)
      ((same.token? (by omega) (by omega)).trans found) plain
      ((same.hasTag_headerTarget (by omega) (by omega) _).trans unopened)
      ((same.hasTag (by omega) (by omega) _).trans closes)
    rw [related_eq_of_decides decidedOther]
    exact same.blockAbove inside above (by omega)
  | within found plain unopened unclosed =>
    obtain ⟨sameRow, -⟩ := listing.callTarget_near p
    obtain ⟨above, below⟩ := within _ (listing.callTarget_mem_relatedInRow p)
    have decidedOther := Decides.within (p := p.down offset)
      ((same.token? (by omega) (by omega)).trans found) plain
      ((same.hasTag_headerTarget (by omega) (by omega) _).trans unopened)
      ((same.hasTag (by omega) (by omega) _).trans unclosed)
    rw [related_eq_of_decides decidedOther]
    exact same.relatedInRow (by omega) (by omega)

/-! ## Insertion -/

section Insertion
variable {listing : Listing} {p : Position} {first last place : Nat}

theorem related_withRow_of_lt (filled : listing.Filled)
    (occupied : (listing.token? p).isSome = true)
    (within : ∀ q ∈ listing.related p, first ≤ q.row ∧ q.row ≤ last) (below : last + 1 < place)
    (row : Row) : (listing.withRow place row).related p = listing.related p := by
  have stretch : listing.Stretch (listing.withRow place row) 0 0 (last + 1) := by
    refine ⟨?_, fun _ => rfl⟩
    intro index _ bound
    exact row?_withRow_of_lt listing row (by omega)
  have stays := stretch.related filled occupied fun q member =>
    ⟨Nat.zero_le _, (within q member).2⟩
  simpa using stays

theorem related_withRow_of_le (filled : listing.Filled)
    (occupied : (listing.token? p).isSome = true)
    (within : ∀ q ∈ listing.related p, first ≤ q.row ∧ q.row ≤ last) (above : place ≤ first)
    (apart : 0 < first) (row : Row) :
    (listing.withRow place row).related (p.down 1) = (listing.related p).down 1 := by
  have stretch : listing.Stretch (listing.withRow place row) 1 first (last + 1) := by
    refine ⟨?_, by omega⟩
    intro index bound _
    exact row?_withRow_succ_of_le listing row (by omega)
  exact stretch.related filled occupied within

end Insertion

end Listing

theorem Row.bare_setNumber {row : Row} (quiet : row.text? Position.numberColumn ≠ some "(")
    (number : Option Int) : (row.setNumber number).bare = row.bare := by
  refine congrArg (Row.mk none · false) (map_modify_of_keeps_at Token.bare ?_)
  intro token found
  refine Token.bare_eq_of (iff_of_false ?_ ?_) fun tag _ => Iff.rfl
  · cases number with
    | none => exact (by decide : "" ≠ "(")
    | some n => exact Numeric.intText_ne_paren n
  · intro paren
    apply quiet
    rw [text?, token?, ← paren]
    exact congrArg (Option.map (·.text)) found

namespace Workspace

theorem bare_renumber {w : Workspace}
    (quiet : ∀ row ∈ w.listing.rows, row.text? Position.numberColumn ≠ some "(") :
    (renumber w).listing.bare = w.listing.bare := by
  refine congrArg (Listing.mk · 0) (map_mapIdx_of_keeps_at Row.bare ?_)
  intro index row found
  exact Row.bare_setNumber (quiet row (List.mem_of_getElem? found)) _

/-- Of an insertion, relating sees nothing but the new row. -/
theorem bare_insertRow {w w' : Workspace} (single : w.listing.SingleSelection)
    (numbered : w.Numbered) {index : Nat} {snippets : List Snippet}
    (done : w.insertRow index snippets = some w') :
    w'.listing.bare =
      (w.listing.withRow index (Row.ofSnippets snippets w.settings.highlighting)).bare := by
  obtain ⟨⟨fits, -⟩, rfl⟩ := insertRow_eq_some_iff.1 done
  have shown : ∀ row ∈ (w.listing.withRow index
      (Row.ofSnippets snippets w.settings.highlighting)).rows, row.InStep := by
    intro row member
    rcases (List.mem_insertIdx fits).1 member with new | old
    · rw [new]
      exact Row.inStep_ofSnippets _ _
    · exact single.inStep old
  have quiet : ∀ row ∈ (w.listing.withRow index
      (Row.ofSnippets snippets w.settings.highlighting)).rows,
      row.text? Position.numberColumn ≠ some "(" := by
    intro row member
    rcases (List.mem_insertIdx fits).1 member with new | old
    · rw [new]
      exact fun paren => absurd (Option.some.inj paren) (by decide)
    · exact numbered.no_paren row old
  rw [bare_renumber, listing_setListing, Listing.bare_pointTo shown]
  exact Listing.forall_numberText_pointTo (P := (· ≠ some "(")) quiet _

end Workspace

namespace Session

theorem related_insertRow {s : Session} (single : s.listing.SingleSelection)
    (numbered : s.workspace.Numbered) {index : Nat} {snippets : List Snippet}
    (accepted : (s.perform (.insert index snippets)).reply = .applied true) (p : Position) :
    (s.perform (.insert index snippets)).session.listing.related p =
      (s.listing.withRow index (Row.ofSnippets snippets s.settings.highlighting)).related p := by
  have seen := Workspace.bare_insertRow single numbered (accepted_commit accepted)
  rw [← Listing.related_bare, ← Listing.related_bare (s.listing.withRow _ _)]
  exact congrArg (·.related p) seen

theorem filled_run (settings : Settings) (history : List Command) :
    ((new settings).run history).listing.Filled := by
  intro index bound
  obtain ⟨row, found⟩ : ∃ row, ((new settings).run history).listing.row? index = some row :=
    ⟨_, List.getElem?_eq_getElem bound⟩
  have slots := (laidOut_run settings history row (Listing.mem_rows_of_row? found)).slots
  refine ⟨0, (allCode_run settings history).hasTag (Listing.isSome_token?_iff.2 ?_)⟩
  simp only [Listing.tokensOfRow, found, Option.map_some, Option.getD_some]
  omega

/-- The rows of the tokens related to a token have a first and a last one.  A row that is inserted
further down than right after the last leaves the related tokens as they are.  A row that is
inserted at the first or further up, where that is not the top, moves them all down by one. -/
theorem related_after_insertion (settings : Settings) (history : List Command) (p : Position)
    (occupied : (((new settings).run history).listing.token? p).isSome = true) :
    let s := (new settings).run history
    ∃ first last,
      (s.listing.related p).rows.head? = some first ∧
      (s.listing.related p).rows.getLast? = some last ∧
      ∀ index snippets, (s.perform (.insert index snippets)).reply = .applied true →
        let after := (s.perform (.insert index snippets)).session.listing
        (last + 1 < index → after.related p = s.listing.related p) ∧
        (index ≤ first → 0 < first →
          after.related (p.down 1) = (s.listing.related p).down 1) := by
  intro s
  have filled := filled_run settings history
  have single := singleSelection_kept (singleSelection_new settings) history
  have numbered := numbered_run settings history
  obtain ⟨q, member⟩ := Listing.exists_mem_related (allCode_run settings history) occupied
  obtain ⟨first, last, starts, ends, within⟩ := RowSpan.exists_ends member
  refine ⟨first, last, starts, ends, ?_⟩
  intro index snippets accepted after
  have seen := related_insertRow single numbered accepted
  constructor
  · intro below
    exact (seen p).trans (Listing.related_withRow_of_lt filled occupied within below _)
  · intro above apart
    exact (seen _).trans (Listing.related_withRow_of_le filled occupied within above apart _)

/-- A header, a block of three rows and one row above and below; a row is inserted at the end, where
it is out of sight, and at the header, which goes down with its block. -/
theorem related_after_insertion_block :
    let s := (new {}).run [.insert 0 [⟨"end", none⟩], .insert 0 [⟨"\x7d", some "closeBracket"⟩],
      .insert 0 [⟨"\x7b", some "openBracket"⟩], .insert 0 [⟨"loop", none⟩],
      .insert 0 [⟨"start", none⟩]]
    (s.listing.token? ⟨1, 2⟩).isSome = true ∧ (s.listing.related ⟨1, 2⟩).rows = [1, 2, 3] ∧
      (s.perform (.insert 5 [])).session.listing.related ⟨1, 2⟩ = s.listing.related ⟨1, 2⟩ ∧
      (s.perform (.insert 1 [])).session.listing.related ⟨2, 2⟩ =
        (s.listing.related ⟨1, 2⟩).down 1 := by
  intro s
  have occupied : (s.listing.token? ⟨1, 2⟩).isSome = true := by decide
  have rows : (s.listing.related ⟨1, 2⟩).rows = [1, 2, 3] := by decide
  obtain ⟨first, last, starts, ends, moves⟩ := related_after_insertion _ _ _ occupied
  rw [rows] at starts ends
  cases starts
  cases ends
  exact ⟨occupied, rows, (moves 5 [] (by decide)).1 (by decide),
    (moves 1 [] (by decide)).2 (by decide) (by decide)⟩

end Session

end CodeRows
