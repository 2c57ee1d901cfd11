import CodeRows.Proofs.Locality
import CodeRows.Proofs.Matching

/-! # What an opening delimiter stands for

An opening delimiter stands for all from itself to the delimiter that closes it, unless an earlier
rule treats it as another token.  A bracket alone in its row, with another one in the next row, is
the header of the block that the other one opens; and a parenthesis in front of a `(` is the name
of a call.  Of two delimiters that open one right after the other the second is closed first
(`downFrom?_inner`), so the first then lacks its own partner. -/

set_option autoImplicit false

namespace CodeRows

open Nesting

/-! ## Walks that start one level further down -/

theorem Nesting.surface?_of_succ {depth : Nat} {steps : List Step} {n : Nat}
    (surfaced : surface? (depth + 1) steps = some n) :
    ∃ k < n, surface? depth steps = some k := by
  induction steps generalizing depth n with
  | nil => cases surfaced
  | cons step steps ih =>
    obtain ⟨rest, later, rfl⟩ := Option.map_eq_some_iff.1 surfaced
    cases depth with
    | zero => exact ⟨0, Nat.succ_pos rest, rfl⟩
    | succ depth =>
      have deeper : step.depth (depth + 1 + 1) = step.depth (depth + 1) + 1 := by
        cases step <;> rfl
      rw [deeper] at later
      obtain ⟨k, earlier, found⟩ := ih later
      exact ⟨k + 1, Nat.succ_lt_succ earlier, by rw [surface?, found, Option.map_some]⟩

theorem Nesting.Step.of_eq_rise_iff {deepens rises : Bool} :
    Step.of deepens rises = .rise ↔ deepens = false ∧ rises = true := by
  cases deepens <;> cases rises <;> decide

section Next
variable {α : Type} {down : α → Nesting.Step} {items : List α} {first last : Nat} {item : α}

theorem bounds_of_downFrom? (ends : downFrom? down items first = some last) :
    first < last ∧ last < items.length := by
  obtain ⟨n, surfaced, rfl⟩ := Option.map_eq_some_iff.1 ends
  obtain ⟨bound, surface, -⟩ := surface?_eq_some_iff.1 surfaced
  rw [List.length_map, List.length_drop] at bound
  cases n with
  | zero => simp at surface
  | succ n => omega

/-- The walk after its first step. -/
theorem downFrom?_eq_of_next (next : items[first + 1]? = some item) :
    downFrom? down items first =
      (surface? ((down item).depth 1) ((items.drop (first + 1 + 1)).map down)).map
        (first + 1 + ·) := by
  obtain ⟨bound, rfl⟩ := List.getElem?_eq_some_iff.1 next
  rw [downFrom?, List.drop_eq_getElem_cons bound, List.map_cons, surface?, Option.map_map]
  congr 1
  funext n
  simp only [Function.comp_apply]
  omega

/-- What opens second closes first. -/
theorem downFrom?_inner (next : items[first + 1]? = some item) (opening : down item = .deepen)
    (ends : downFrom? down items first = some last) :
    ∃ inner < last, downFrom? down items (first + 1) = some inner := by
  rw [downFrom?_eq_of_next next, opening] at ends
  obtain ⟨n, surfaced, rfl⟩ := Option.map_eq_some_iff.1 ends
  obtain ⟨k, earlier, found⟩ := surface?_of_succ surfaced
  exact ⟨first + 1 + k, Nat.add_lt_add_left earlier _, by rw [downFrom?, found, Option.map_some]⟩

theorem downFrom?_eq_next_iff (next : items[first + 1]? = some item)
    (ends : downFrom? down items first = some last) : last = first + 1 ↔ down item = .rise := by
  rw [downFrom?_eq_of_next next] at ends
  obtain ⟨n, surfaced, rfl⟩ := Option.map_eq_some_iff.1 ends
  obtain ⟨-, surface, above⟩ := surface?_eq_some_iff.1 surfaced
  constructor
  · intro close
    have stays : n = 0 := by omega
    subst stays
    cases kind : down item <;> simp [kind, Step.depth] at surface ⊢
  · intro closing
    simp only [closing, Step.depth, Nat.sub_self, surface?, Option.some.injEq] at surfaced
    omega

end Next

namespace Listing

variable {listing : Listing} {p q : Position}

/-! ## Blocks -/

instance (listing : Listing) : Decidable listing.BracketsApart :=
  decidable_of_iff (∀ index < listing.rowCount, ¬(listing.markerHas index .openBracket = true ∧
    listing.markerHas index .closeBracket = true)) <| by
      refine ⟨fun apart index both => ?_, fun apart index _ => apart index⟩
      obtain ⟨row, found⟩ := exists_row_of_markerHas both.1
      exact apart index (List.getElem?_eq_some_iff.1 found).1 both

/-- The first content token of a row, when the next row opens a block. -/
def HeadsBlock (listing : Listing) (p : Position) : Prop :=
  p.column = Position.contentColumn ∧ listing.markerHas (p.row + 1) .openBracket = true

instance (listing : Listing) (p : Position) : Decidable (listing.HeadsBlock p) :=
  inferInstanceAs (Decidable (_ ∧ _))

theorem HeadsBlock.target (heads : listing.HeadsBlock p) :
    listing.hasTag (listing.headerTarget p) .openBracket = true ∧
      (listing.headerTarget p).row = p.row + 1 := by
  obtain ⟨column, marked⟩ := heads
  obtain ⟨marker, found, opens⟩ := (Option.any_eq_true _ _).1 marked
  have target : listing.headerTarget p = marker := by
    simp only [headerTarget, if_pos column, found, if_pos opens]
  rw [target]
  exact ⟨opens, row_of_marker? found⟩

theorem headerTarget_of_not_headsBlock (headless : ¬listing.HeadsBlock p) :
    listing.headerTarget p = p := by
  rw [headerTarget]
  split
  · rename_i column
    cases found : listing.marker? (p.row + 1) with
    | none => rfl
    | some marker =>
      refine if_neg fun opens => headless ⟨column, ?_⟩
      rw [markerHas, found]
      exact opens
  · rfl

/-- The token is the marker of row `first`, opens a block that row `last` closes, and stands for no
row. -/
structure OpensBlock (listing : Listing) (p : Position) (first last : Nat) : Prop where
  marker : listing.marker? first = some p
  opens : listing.hasTag p .openBracket = true
  comment : listing.hasTag p .comment = false
  lineNumber : listing.hasTag p .lineNumber = false
  ends : listing.blockEnd? first = some last

theorem mem_blockBelow_of_ends {first last : Nat} (ends : listing.blockEnd? first = some last) :
    q ∈ listing.blockBelow first ↔
      (first - 1 ≤ q.row ∧ q.row ≤ last) ∧ listing.hasTag q .code = true := by
  have order := (bounds_of_downFrom? ends).1
  have height : listing.blockHeight first = last - first := reach_of_downFrom? order ends
  have bottom : first + (last - first) = last := by omega
  rw [blockBelow, height, bottom, mem_codeOfRows]

theorem blockEnd?_inner {first last : Nat}
    (opens : listing.markerHas (first + 1) .openBracket = true)
    (ends : listing.blockEnd? first = some last) :
    ∃ inner < last, listing.blockEnd? (first + 1) = some inner := by
  obtain ⟨row, found⟩ := exists_row_of_markerHas opens
  refine downFrom?_inner found ?_ ends
  rw [step_eq_of_row? found, opens]
  rfl

theorem exists_plain_token {tag : Tag} (carried : listing.hasTag p tag = true)
    (comment : listing.hasTag p .comment = false)
    (lineNumber : listing.hasTag p .lineNumber = false) :
    ∃ token, listing.token? p = some token ∧ token.tags.coversRow = false := by
  obtain ⟨token, found, -⟩ := (Option.any_eq_true _ _).1 carried
  refine ⟨token, found, ?_⟩
  rw [Bool.eq_false_iff, ne_eq, TagSet.coversRow_iff]
  simp only [hasTag, found, Option.any_some] at comment lineNumber
  rintro (member | member)
  · rw [Token.hasTag_iff.2 member] at comment
    cases comment
  · rw [Token.hasTag_iff.2 member] at lineNumber
    cases lineNumber

namespace OpensBlock

variable {first last : Nat}

theorem mem_related (block : listing.OpensBlock p first last)
    (headless : ¬listing.HeadsBlock p) :
    q ∈ listing.related p ↔
      (first - 1 ≤ q.row ∧ q.row ≤ last) ∧ listing.hasTag q .code = true := by
  obtain ⟨token, found, plain⟩ := exists_plain_token block.opens block.comment block.lineNumber
  have self := headerTarget_of_not_headsBlock headless
  have decided : listing.Decides p (listing.blockBelow (listing.headerTarget p).row) :=
    .opening found plain (self.symm ▸ block.opens)
  rw [related_eq_of_decides decided, self, row_of_marker? block.marker,
    mem_blockBelow_of_ends block.ends]

theorem mem_related_of_headsBlock (block : listing.OpensBlock p first last)
    (heads : listing.HeadsBlock p) :
    ∃ inner < last, listing.blockEnd? (first + 1) = some inner ∧
      ∀ q, q ∈ listing.related p ↔
        (first ≤ q.row ∧ q.row ≤ inner) ∧ listing.hasTag q .code = true := by
  obtain ⟨token, found, plain⟩ := exists_plain_token block.opens block.comment block.lineNumber
  obtain ⟨opens, below⟩ := heads.target
  have place := row_of_marker? block.marker
  obtain ⟨inner, earlier, ends⟩ := blockEnd?_inner (place ▸ heads.2) block.ends
  refine ⟨inner, earlier, ends, fun q => ?_⟩
  rw [related_eq_of_decides (.opening found plain opens), below, place, mem_blockBelow_of_ends ends,
    Nat.add_sub_cancel]

/-- The block is covered by what its marker stands for, unless the marker is treated as the next
row's; then the last row is missing. -/
theorem covered_iff (block : listing.OpensBlock p first last) (filled : listing.Filled) :
    (∀ q, first ≤ q.row → q.row ≤ last → listing.hasTag q .code = true → q ∈ listing.related p) ↔
      ¬listing.HeadsBlock p := by
  constructor
  · intro covered heads
    obtain ⟨order, inside⟩ := bounds_of_downFrom? block.ends
    obtain ⟨inner, earlier, -, members⟩ := block.mem_related_of_headsBlock heads
    -- The closing row lies below the inner block, and there is a token in it to be missed.
    obtain ⟨column, code⟩ := filled last inside
    have closer := covered ⟨last, column⟩ (Nat.le_of_lt order) (Nat.le_refl _) code
    exact absurd ((members _).1 closer).1.2 (Nat.not_le.2 earlier)
  · intro headless q above below code
    exact (block.mem_related headless).2 ⟨⟨by omega, below⟩, code⟩

end OpensBlock

/-! ## Groups -/

instance (listing : Listing) (row : Nat) : Decidable (listing.ParensApart row) :=
  decidable_of_iff (∀ column < (listing.tokensOfRow row).length,
    ¬(listing.hasTag ⟨row, column⟩ .openParen = true ∧
      listing.hasTag ⟨row, column⟩ .closeParen = true)) <| by
      refine ⟨fun apart column both => ?_, fun apart column _ => apart column⟩
      exact apart column (isSome_token?_iff.1 (isSome_token?_of_hasTag both.1)) both

def NamesCall (listing : Listing) (p : Position) : Prop :=
  (listing.token? p.right).map (·.text) = some "("

instance (listing : Listing) (p : Position) : Decidable (listing.NamesCall p) :=
  inferInstanceAs (Decidable (_ = _))

theorem NamesCall.target (names : listing.NamesCall p) : listing.callTarget p = p.right := by
  obtain ⟨next, found, paren⟩ := Option.map_eq_some_iff.1 names
  exact callTarget_of_paren found paren

/-- The token opens a group of its row that column `last` closes, and no rule before that for calls
applies to it. -/
structure OpensGroup (listing : Listing) (p : Position) (last : Nat) : Prop where
  opens : listing.hasTag p .openParen = true
  comment : listing.hasTag p .comment = false
  lineNumber : listing.hasTag p .lineNumber = false
  openBracket : listing.hasTag p .openBracket = false
  closeBracket : listing.hasTag p .closeBracket = false
  headless : ¬listing.HeadsBlock p
  ends : listing.groupEnd? p = some last

theorem mem_groupRight_of_ends {last : Nat} (ends : listing.groupEnd? p = some last) :
    q ∈ listing.groupRight p ↔ q.row = p.row ∧ p.column - 1 ≤ q.column ∧ q.column ≤ last := by
  have order := (bounds_of_downFrom? ends).1
  have width : listing.groupWidthRight p = last - p.column := reach_of_downFrom? order ends
  have stop : p.column + (last - p.column) = last := by omega
  rw [groupRight, width, stop, mem_columnsOfRow]

theorem step_eq_of_token? {token : Token} (found : listing.token? p = some token)
    (deeper shallower : Tag) :
    token.step deeper shallower =
      Step.of (listing.hasTag p deeper) (listing.hasTag p shallower) := by
  simp only [Token.step, hasTag, found, Option.any_some]

theorem groupEnd?_inner {last : Nat} (opens : listing.hasTag p.right .openParen = true)
    (ends : listing.groupEnd? p = some last) :
    ∃ inner < last, listing.groupEnd? p.right = some inner := by
  obtain ⟨token, found, -⟩ := (Option.any_eq_true _ _).1 opens
  refine downFrom?_inner ((listing.getElem?_tokensOfRow _ _).trans found) ?_ ends
  rw [step_eq_of_token? found, opens]
  rfl

theorem callTarget_of_not_namesCall (nameless : ¬listing.NamesCall p) :
    listing.callTarget p = p := by
  rcases listing.callTarget_cases p with same | ⟨-, next, found, paren⟩
  · exact same
  · exact absurd (Option.map_eq_some_iff.2 ⟨next, found, paren⟩) nameless

namespace OpensGroup

variable {last : Nat}

theorem related_eq (group : listing.OpensGroup p last) :
    listing.related p = listing.relatedInRow p := by
  obtain ⟨token, found, plain⟩ := exists_plain_token group.opens group.comment group.lineNumber
  have self := headerTarget_of_not_headsBlock group.headless
  exact related_eq_of_decides
    (.within found plain (self.symm ▸ group.openBracket) group.closeBracket)

theorem mem_related (group : listing.OpensGroup p last) (nameless : ¬listing.NamesCall p) :
    q ∈ listing.related p ↔ q.row = p.row ∧ p.column - 1 ≤ q.column ∧ q.column ≤ last := by
  rw [group.related_eq, relatedInRow, callTarget_of_not_namesCall nameless, if_pos group.opens,
    mem_groupRight_of_ends group.ends]

theorem related_of_namesCall (group : listing.OpensGroup p last) (names : listing.NamesCall p) :
    listing.related p =
      if listing.hasTag p.right .openParen then listing.groupRight p.right
      else if listing.hasTag p.right .closeParen then listing.groupLeft p.right
      else OrderedSet.ofList [p.right] := by
  rw [group.related_eq, relatedInRow, names.target]

/-- The group ends with the next token exactly when that one only closes. -/
theorem ends_next_iff (group : listing.OpensGroup p last) (names : listing.NamesCall p) :
    last = p.column + 1 ↔
      listing.hasTag p.right .openParen = false ∧ listing.hasTag p.right .closeParen = true := by
  obtain ⟨next, found, -⟩ := Option.map_eq_some_iff.1 names
  rw [downFrom?_eq_next_iff ((listing.getElem?_tokensOfRow _ _).trans found) group.ends,
    step_eq_of_token? found, Step.of_eq_rise_iff]

theorem mem_related_of_namesCall (group : listing.OpensGroup p last)
    (names : listing.NamesCall p) (opens : listing.hasTag p.right .openParen = true) :
    ∃ inner < last, listing.groupEnd? p.right = some inner ∧
      ∀ q, q ∈ listing.related p ↔ q.row = p.row ∧ p.column ≤ q.column ∧ q.column ≤ inner := by
  obtain ⟨inner, earlier, ends⟩ := groupEnd?_inner opens group.ends
  refine ⟨inner, earlier, ends, fun q => ?_⟩
  rw [group.related_of_namesCall names, if_pos opens, mem_groupRight_of_ends ends]
  rfl

theorem related_of_plain_paren (group : listing.OpensGroup p last) (names : listing.NamesCall p)
    (unopened : listing.hasTag p.right .openParen = false) (further : last ≠ p.column + 1) :
    listing.related p = OrderedSet.ofList [p.right] := by
  have unclosed : ¬listing.hasTag p.right .closeParen = true := fun closes =>
    further ((group.ends_next_iff names).2 ⟨unopened, closes⟩)
  rw [group.related_of_namesCall names, unopened, if_neg Bool.false_ne_true, if_neg unclosed]

/-- The group is covered by what its first token stands for, unless that is treated as the next
token and this does not end the group; then the last token is missing, or the first. -/
theorem covered_iff (group : listing.OpensGroup p last) :
    (∀ q, q.row = p.row → p.column ≤ q.column → q.column ≤ last → q ∈ listing.related p) ↔
      ¬listing.NamesCall p ∨ last = p.column + 1 := by
  have order := (bounds_of_downFrom? group.ends).1
  constructor
  · intro covered
    rw [← imp_iff_not_or]
    intro names
    by_contra further
    cases opens : listing.hasTag p.right .openParen with
    | true =>
      obtain ⟨inner, earlier, -, members⟩ := group.mem_related_of_namesCall names opens
      have closer := covered ⟨p.row, last⟩ rfl (Nat.le_of_lt order) (Nat.le_refl _)
      exact absurd ((members _).1 closer).2.2 (Nat.not_le.2 earlier)
    | false =>
      have self := covered p rfl (Nat.le_refl _) (Nat.le_of_lt order)
      rw [group.related_of_plain_paren names opens further, OrderedSet.mem_ofList,
        List.mem_singleton] at self
      exact absurd (congrArg Position.column self) (Nat.ne_of_lt (Nat.lt_succ_self _))
  · intro direct q sameRow right left
    by_cases names : listing.NamesCall p
    · have next := direct.resolve_left (not_not_intro names)
      obtain ⟨opens, closes⟩ := (group.ends_next_iff names).1 next
      rw [group.related_of_namesCall names, opens, closes]
      -- Only two columns are asked for, and the walk back takes in both.
      subst next
      exact (listing.mem_groups_of_near (p := p.right) sameRow left (Nat.succ_le_succ right)).2
    · exact (group.mem_related names).2 ⟨sameRow, by omega, left⟩

end OpensGroup

end Listing

namespace Session

def nestedOpeners : List Command :=
  [.insert 0 [⟨"\x7b", some "openBracket"⟩], .insert 1 [⟨"\x7b", some "openBracket"⟩],
    .insert 2 [⟨"(", some "openParen"⟩, ⟨"(", some "openParen"⟩, ⟨"a", none⟩,
      ⟨")", some "closeParen"⟩, ⟨")", some "closeParen"⟩],
    .insert 3 [⟨"\x7d", some "closeBracket"⟩], .insert 4 [⟨"\x7d", some "closeBracket"⟩]]

/-- In the course of a session a bracket stands for all rows of its block, from its own to the one
that closes it, unless it comes right after the gutter and the next row opens a block; and a
parenthesis for all columns of its group, unless it comes before a `(` that is not its partner.
Where it does not, it stands for what the next delimiter encloses, which ends before its own
partner, or for a `(` that is no delimiter. -/
theorem opener_covers_own_iff (settings : Settings) (history : List Command) :
    let listing := ((new settings).run history).listing
    (∀ p first last, listing.OpensBlock p first last →
      ((∀ q, first ≤ q.row → q.row ≤ last → listing.hasTag q .code = true →
          q ∈ listing.related p) ↔ ¬listing.HeadsBlock p) ∧
      (listing.HeadsBlock p →
        ∃ inner < last, listing.blockEnd? (first + 1) = some inner ∧
          ∀ q, q ∈ listing.related p ↔
            (first ≤ q.row ∧ q.row ≤ inner) ∧ listing.hasTag q .code = true)) ∧
    (∀ p last, listing.OpensGroup p last →
      ((∀ q, q.row = p.row → p.column ≤ q.column → q.column ≤ last → q ∈ listing.related p) ↔
        ¬listing.NamesCall p ∨ last = p.column + 1) ∧
      (listing.NamesCall p → listing.hasTag p.right .openParen = true →
        ∃ inner < last, listing.groupEnd? p.right = some inner ∧
          ∀ q, q ∈ listing.related p ↔
            q.row = p.row ∧ p.column ≤ q.column ∧ q.column ≤ inner) ∧
      (listing.NamesCall p → listing.hasTag p.right .openParen = false → last ≠ p.column + 1 →
        listing.related p = OrderedSet.ofList [p.right])) := by
  intro listing
  constructor
  · intro p first last block
    exact ⟨block.covered_iff (filled_run settings history), block.mem_related_of_headsBlock⟩
  · intro p last group
    exact ⟨group.covered_iff, group.mem_related_of_namesCall, group.related_of_plain_paren⟩

theorem opensBlock_nestedOpeners :
    ((new {}).run nestedOpeners).listing.OpensBlock ⟨0, 2⟩ 0 4 :=
  ⟨by decide, by decide, by decide, by decide, by decide⟩

theorem opensGroup_nestedOpeners :
    ((new {}).run nestedOpeners).listing.OpensGroup ⟨2, 2⟩ 6 :=
  ⟨by decide, by decide, by decide, by decide, by decide, by decide, by decide⟩

/-- The outer bracket stands for the rows down to the inner partner, and the outer parenthesis for
the columns up to it; the inner ones stand for all that is theirs. -/
theorem opener_covers_own_iff_nested :
    let listing := ((new {}).run nestedOpeners).listing
    (∀ q, q ∈ listing.related ⟨0, 2⟩ ↔
      (0 ≤ q.row ∧ q.row ≤ 3) ∧ listing.hasTag q .code = true) ∧
    (∀ q, 1 ≤ q.row → q.row ≤ 3 → listing.hasTag q .code = true →
      q ∈ listing.related ⟨1, 2⟩) ∧
    (∀ q, q ∈ listing.related ⟨2, 2⟩ ↔ q.row = 2 ∧ 2 ≤ q.column ∧ q.column ≤ 5) ∧
    ∀ q, q.row = 2 → 3 ≤ q.column → q.column ≤ 5 → q ∈ listing.related ⟨2, 3⟩ := by
  intro listing
  obtain ⟨blocks, groups⟩ := opener_covers_own_iff {} nestedOpeners
  have innerBlock : listing.OpensBlock ⟨1, 2⟩ 1 3 :=
    ⟨by decide, by decide, by decide, by decide, by decide⟩
  have innerGroup : listing.OpensGroup ⟨2, 3⟩ 5 :=
    ⟨by decide, by decide, by decide, by decide, by decide, by decide, by decide⟩
  obtain ⟨row, -, rowEnds, rows⟩ := (blocks _ _ _ opensBlock_nestedOpeners).2 (by decide)
  obtain ⟨column, -, columnEnds, columns⟩ :=
    (groups _ _ opensGroup_nestedOpeners).2.1 (by decide) (by decide)
  obtain rfl : row = 3 := Option.some.inj (rowEnds.symm.trans innerBlock.ends)
  obtain rfl : column = 5 := Option.some.inj (columnEnds.symm.trans innerGroup.ends)
  refine ⟨rows, ?_, columns, ?_⟩
  · exact (blocks _ _ _ innerBlock).1.2 (by decide)
  · exact (groups _ _ innerGroup).1.2 (Or.inl (by decide))

/-- There the outer delimiters lack their partners, though no token is two delimiters at once. -/
theorem outer_openers_lack_partners :
    let listing := ((new {}).run nestedOpeners).listing
    (listing.BracketsApart ∧ listing.OpensBlock ⟨0, 2⟩ 0 4 ∧
      listing.hasTag ⟨4, 2⟩ .code = true ∧ (⟨4, 2⟩ : Position) ∉ listing.related ⟨0, 2⟩) ∧
    listing.ParensApart 2 ∧ listing.OpensGroup ⟨2, 2⟩ 6 ∧
      (⟨2, 6⟩ : Position) ∉ listing.related ⟨2, 2⟩ := by
  intro listing
  exact ⟨⟨by decide, opensBlock_nestedOpeners, by decide, by decide⟩, by decide,
    opensGroup_nestedOpeners, by decide⟩

end Session

end CodeRows
