import CodeRows.Proofs.Coverage
import CodeRows.Proofs.Sheet
import CodeRows.Proofs.Visits
import Mathlib.Data.List.Induction

/-! # Where the emphasis is

Emphasizing a row takes the emphasis from the row that is selected at that moment, and from no
other.  A selection that moves without its emphasis therefore leaves the emphasis behind, and the
next row to be emphasized is then a second one.  Every other command carries emphasized tokens
along with their rows (`Listing.EmphasisFrom`), so that the emphasis spreads over several rows in
this way only: it is in one row throughout a run exactly when no step strands it
(`Session.emphasis_in_one_row_iff`). -/

set_option autoImplicit false

namespace CodeRows

/-! ## Emphasis after an edit -/

namespace Listing

def EmphasisInOneRow (listing : Listing) : Prop :=
  ∃ row, ∀ q ∈ listing.tagged .selected, q.row = row

/-- Every emphasized token was emphasized before, and those of one row have stayed together. -/
def EmphasisFrom (after before : Listing) : Prop :=
  ∃ place : Nat → Nat, ∀ q ∈ after.tagged .selected,
    ∃ row, ⟨row, q.column⟩ ∈ before.tagged .selected ∧ q.row = place row

theorem EmphasisFrom.inOneRow {after before : Listing} (kept : after.EmphasisFrom before)
    (one : before.EmphasisInOneRow) : after.EmphasisInOneRow := by
  obtain ⟨place, origin⟩ := kept
  obtain ⟨row, only⟩ := one
  refine ⟨place row, fun q member => ?_⟩
  obtain ⟨old, memberOld, moved⟩ := origin q member
  have sameRow : old = row := only _ memberOld
  rw [moved, sameRow]

theorem emphasisFrom_refl (listing : Listing) : listing.EmphasisFrom listing :=
  ⟨id, fun q member => ⟨q.row, member, rfl⟩⟩

theorem EmphasisFrom.congr {after before other : Listing} (kept : after.EmphasisFrom before)
    (same : ∀ q, other.hasTag q .selected = after.hasTag q .selected) :
    other.EmphasisFrom before := by
  obtain ⟨place, origin⟩ := kept
  refine ⟨place, fun q member => origin q ?_⟩
  rw [mem_tagged, ← same]
  exact mem_tagged.1 member

theorem hasTag_of_row?_eq {after before : Listing} {q : Position} {row : Nat} (tag : Tag)
    (same : after.row? q.row = before.row? row) :
    after.hasTag q tag = before.hasTag ⟨row, q.column⟩ tag := by
  rw [hasTag, hasTag, token?, token?, same]

theorem emphasisFrom_withRow {listing : Listing} {index : Nat} {row : Row}
    (plain : ∀ token ∈ row.tokens, token.hasTag .selected = false) :
    (listing.withRow index row).EmphasisFrom listing := by
  refine ⟨fun old => if old < index then old else old + 1, fun q member => ?_⟩
  rw [mem_tagged] at member
  rcases Nat.lt_trichotomy q.row index with less | same | greater
  · rw [hasTag_of_row?_eq .selected (row?_withRow_of_lt listing row less)] at member
    exact ⟨q.row, mem_tagged.2 member, (if_pos less).symm⟩
  · -- The row that was put in has no emphasis to start with.
    obtain ⟨token, found, carried⟩ := (Option.any_eq_true _ _).1 member
    obtain ⟨other, foundRow, foundToken⟩ := Option.bind_eq_some_iff.1 found
    have isNew : other = row := by
      rw [row?, withRow, same, List.getElem?_insertIdx_self] at foundRow
      exact (Option.some.inj (Option.ite_none_right_eq_some.1 foundRow).2).symm
    rw [isNew] at foundToken
    rw [plain token (List.mem_of_getElem? foundToken)] at carried
    cases carried
  · have above : (listing.withRow index row).row? q.row = listing.row? (q.row - 1) :=
      List.getElem?_insertIdx_of_gt greater
    rw [hasTag_of_row?_eq .selected above] at member
    refine ⟨q.row - 1, mem_tagged.2 member, ?_⟩
    have shifted : ¬q.row - 1 < index := by omega
    simp only [if_neg shifted]
    omega

theorem emphasisFrom_withoutRow (listing : Listing) (index : Nat) :
    (listing.withoutRow index).EmphasisFrom listing := by
  refine ⟨fun old => if old < index then old else old - 1, fun q member => ?_⟩
  rw [mem_tagged] at member
  rcases Nat.lt_or_ge q.row index with less | notLess
  · rw [hasTag_of_row?_eq .selected (row?_withoutRow_of_lt listing less)] at member
    exact ⟨q.row, mem_tagged.2 member, (if_pos less).symm⟩
  · have below : (listing.withoutRow index).row? q.row = listing.row? (q.row + 1) :=
      List.getElem?_eraseIdx_of_ge notLess
    rw [hasTag_of_row?_eq .selected below] at member
    refine ⟨q.row + 1, mem_tagged.2 member, ?_⟩
    have shifted : ¬q.row + 1 < index := by omega
    simp only [if_neg shifted, Nat.add_sub_cancel]

theorem hasTag_mapTokensOf_addTag {listing : Listing} {index : Nat} {tag : Tag} {q : Position} :
    (listing.mapTokensOf index (·.addTag tag)).hasTag q tag = true ↔
      (q.row = index ∧ (listing.token? q).isSome = true) ∨ listing.hasTag q tag = true := by
  rw [hasTag, token?_mapTokensOf, hasTag]
  cases listing.token? q with
  | none => simp
  | some token => by_cases same : q.row = index <;> simp [same]

theorem hasTag_mapTokensOf_removeTag {listing : Listing} {index : Nat} {tag : Tag} {q : Position} :
    (listing.mapTokensOf index (·.removeTag tag)).hasTag q tag = true ↔
      listing.hasTag q tag = true ∧ q.row ≠ index := by
  rw [hasTag, token?_mapTokensOf, hasTag]
  cases listing.token? q with
  | none => simp
  | some token => by_cases same : q.row = index <;> simp [same]

theorem isSome_token?_mapTokensOf (listing : Listing) (index : Nat) (f : Token → Token)
    (q : Position) :
    ((listing.mapTokensOf index f).token? q).isSome = (listing.token? q).isSome := by
  rw [token?_mapTokensOf, Option.isSome_map]

theorem SingleSelection.isSome_arrow {listing : Listing} (single : listing.SingleSelection) :
    (listing.token? ⟨listing.selected, Position.arrowColumn⟩).isSome = true := by
  have found : listing.row? listing.selected = some (listing.rows.get ⟨_, single.selected_lt⟩) :=
    List.getElem?_eq_getElem single.selected_lt
  have shown := single.arrow _ _ found
  rw [token?, found, Option.bind_some]
  rw [Row.text?] at shown
  obtain ⟨token, foundToken, -⟩ := Option.map_eq_some_iff.1 shown
  rw [foundToken]
  rfl

theorem emphasisFrom_point (listing : Listing) (signal : Pointer.Signal) :
    (listing.point signal).1.EmphasisFrom listing := by
  rcases listing.point_cases signal with same | ⟨p, marked⟩ | ⟨p, unmarked⟩
  · rw [same]
    exact listing.emphasisFrom_refl
  · rw [marked]
    refine listing.emphasisFrom_refl.congr fun q => ?_
    rw [Bool.eq_iff_iff, hasTag_mark_iff]
    exact or_iff_left fun marking => by cases marking.1
  · rw [unmarked]
    refine listing.emphasisFrom_refl.congr fun q => ?_
    rw [Bool.eq_iff_iff, hasTag_unmark_iff]
    exact and_iff_left fun marking => by cases marking.1

end Listing

theorem Row.hasTag_selected_ofSnippets (snippets : List Snippet) (highlighting : Bool) :
    ∀ token ∈ (Row.ofSnippets snippets highlighting).tokens, token.hasTag .selected = false := by
  intro token member
  rw [Bool.eq_false_iff, ne_eq, Token.hasTag_iff]
  exact Row.free_ofSnippets rfl snippets highlighting _ (List.mem_map_of_mem member)

namespace Workspace

variable {w w' : Workspace}

theorem hasTag_renumber (w : Workspace) (q : Position) (tag : Tag) :
    (renumber w).listing.hasTag q tag = w.listing.hasTag q tag := by
  rw [Listing.hasTag_eq, Listing.hasTag_eq, tagging_renumber]

/-- Neither the arrow nor a number tells where the emphasis is. -/
theorem emphasisFrom_renumber_pointTo {listing : Listing}
    (kept : listing.EmphasisFrom w.listing) (index : Nat) :
    (renumber (w.setListing (listing.pointTo index))).listing.EmphasisFrom w.listing := by
  refine kept.congr fun q => ?_
  rw [hasTag_renumber, listing_setListing, Listing.hasTag_pointTo]

theorem emphasisFrom_insertRow {index : Nat} {snippets : List Snippet}
    (done : w.insertRow index snippets = some w') : w'.listing.EmphasisFrom w.listing := by
  obtain ⟨-, rfl⟩ := insertRow_eq_some_iff.1 done
  apply emphasisFrom_renumber_pointTo
  exact Listing.emphasisFrom_withRow (Row.hasTag_selected_ofSnippets _ _)

theorem emphasisFrom_deleteRow {index : Nat} (done : w.deleteRow index = some w') :
    w'.listing.EmphasisFrom w.listing := by
  obtain ⟨-, rfl⟩ := deleteRow_eq_some_iff.1 done
  apply emphasisFrom_renumber_pointTo
  exact w.listing.emphasisFrom_withoutRow _

theorem emphasisFrom_selectRow {index : Nat} (done : w.selectRow index = some w') :
    w'.listing.EmphasisFrom w.listing := by
  obtain ⟨-, rfl⟩ := selectRow_eq_some_iff.1 done
  exact w.listing.emphasisFrom_refl.congr fun q => w.listing.hasTag_pointTo index q .selected

theorem mem_tagged_emphasizeRow {index : Nat} (done : w.emphasizeRow index = some w')
    (q : Position) :
    q ∈ w'.listing.tagged .selected ↔
      (q.row = index ∧ (w'.listing.token? q).isSome = true) ∨
        (q ∈ w.listing.tagged .selected ∧ q.row ≠ w.listing.selected) := by
  obtain ⟨-, rfl⟩ := emphasizeRow_eq_some_iff.1 done
  rw [listing_setListing, Listing.mem_tagged, Listing.mem_tagged,
    Listing.hasTag_mapTokensOf_addTag, Listing.hasTag_pointTo,
    Listing.hasTag_mapTokensOf_removeTag, Listing.isSome_token?_mapTokensOf]

end Workspace

/-! ## Stranded emphasis -/

namespace Session

/-- The command emphasizes a row while a token in neither that row nor the selected one is
emphasized. -/
def Strands (s : Session) : Command → Prop
  | .emphasize index => (s.perform (.emphasize index)).reply = .applied true ∧
      ∃ q ∈ s.listing.tagged .selected, q.row ≠ s.listing.selected ∧ q.row ≠ index
  | _ => False

instance (s : Session) (command : Command) : Decidable (s.Strands command) :=
  match command with
  | .emphasize _ => inferInstanceAs (Decidable (_ ∧ _))
  | .insert _ _ | .insertJson _ _ | .delete _ | .select _ | .point _ | .subscribe _ | .listen _ =>
    .isFalse id

theorem emphasisFrom_commit {s : Session} {edited : Option Workspace}
    (change : Workspace → Option (ChangeKind × RowSpan))
    (kept : ∀ w, edited = some w → w.listing.EmphasisFrom s.listing) :
    (s.commit edited change).session.listing.EmphasisFrom s.listing := by
  rw [listing_commit]
  cases edited with
  | none => exact s.listing.emphasisFrom_refl
  | some w => exact kept w rfl

/-- The emphasized tokens are those of the row just emphasized, unless others are stranded. -/
theorem emphasized_exactly_iff {s : Session} {index : Nat}
    (accepted : (s.perform (.emphasize index)).reply = .applied true) :
    (∀ q, q ∈ (s.perform (.emphasize index)).session.listing.tagged .selected ↔
      q.row = index ∧
        ((s.perform (.emphasize index)).session.listing.token? q).isSome = true) ↔
    ¬s.Strands (.emphasize index) := by
  have emphasized := Workspace.mem_tagged_emphasizeRow (accepted_commit accepted)
  constructor
  · rintro exactly ⟨-, q, before, unselected, other⟩
    have after := (emphasized q).2 (Or.inr ⟨before, unselected⟩)
    exact other ((exactly q).1 after).1
  · intro safe q
    constructor
    · intro after
      refine ⟨?_, Listing.isSome_token?_of_hasTag (Listing.mem_tagged.1 after)⟩
      rcases (emphasized q).1 after with ⟨inside, -⟩ | ⟨before, unselected⟩
      · exact inside
      · by_contra other
        exact safe ⟨accepted, q, before, unselected, other⟩
    · intro inside
      exact (emphasized q).2 (Or.inl inside)

theorem inOneRow_emphasize_iff {s : Session} (single : s.listing.SingleSelection) {index : Nat}
    (accepted : (s.perform (.emphasize index)).reply = .applied true) :
    (s.perform (.emphasize index)).session.listing.EmphasisInOneRow ↔
      ¬s.Strands (.emphasize index) := by
  have done := accepted_commit accepted
  have emphasized := Workspace.mem_tagged_emphasizeRow done
  constructor
  · rintro ⟨row, only⟩ ⟨-, q, before, unselected, other⟩
    -- The row just emphasized has at least its arrow slot, so it is the one row there is.
    have chosen : (s.perform (.emphasize index)).session.listing.selected = index := by
      obtain ⟨-, result⟩ := Workspace.emphasizeRow_eq_some_iff.1 done
      exact (congrArg (·.listing.selected) result).symm
    have arrow := (singleSelection_perform single (.emphasize index)).isSome_arrow
    rw [chosen] at arrow
    have isRow : index = row := only _ ((emphasized _).2 (Or.inl ⟨rfl, arrow⟩))
    exact other ((only q ((emphasized q).2 (Or.inr ⟨before, unselected⟩))).trans isRow.symm)
  · intro safe
    exact ⟨index, fun q member => (((emphasized_exactly_iff accepted).2 safe q).1 member).1⟩

/-- Only a command that strands emphasis spreads it over several rows. -/
theorem inOneRow_perform_iff {s : Session} (single : s.listing.SingleSelection)
    (one : s.listing.EmphasisInOneRow) (command : Command) :
    (s.perform command).session.listing.EmphasisInOneRow ↔ ¬s.Strands command := by
  have carried : ∀ {after : Listing}, after.EmphasisFrom s.listing →
      (after.EmphasisInOneRow ↔ ¬False) := fun kept => iff_of_true (kept.inOneRow one) id
  cases command with
  | insert index snippets =>
    exact carried (emphasisFrom_commit _ fun w done => Workspace.emphasisFrom_insertRow done)
  | insertJson index text =>
    apply carried
    rw [perform, insertRowJson]
    split
    · exact emphasisFrom_commit _ fun w done => Workspace.emphasisFrom_insertRow done
    · exact s.listing.emphasisFrom_refl
  | delete index =>
    exact carried (emphasisFrom_commit _ fun w done => Workspace.emphasisFrom_deleteRow done)
  | select index =>
    exact carried (emphasisFrom_commit _ fun w done => Workspace.emphasisFrom_selectRow done)
  | emphasize index =>
    cases done : s.workspace.emphasizeRow index with
    | none =>
      have refused : s.perform (.emphasize index) = ⟨s, .applied false, []⟩ := by
        rw [perform, emphasizeRow, done]
        rfl
      rw [refused]
      refine iff_of_true one ?_
      rintro ⟨accepted, -⟩
      rw [refused] at accepted
      cases accepted
    | some w =>
      apply inOneRow_emphasize_iff single
      rw [perform, emphasizeRow, reply_commit, done]
      rfl
  | point signal =>
    apply carried
    rw [perform, listing_point]
    exact s.listing.emphasisFrom_point signal
  | subscribe name => exact carried s.listing.emphasisFrom_refl
  | listen name => exact carried s.listing.emphasisFrom_refl

/-! ## Runs -/

theorem inOneRow_new (settings : Settings) : (new settings).listing.EmphasisInOneRow := by
  have nowhere : Listing.blank.tagged .selected = [] := by decide
  refine ⟨0, fun q member => ?_⟩
  rw [Listing.mem_tagged, listing, new, Workspace.new, Workspace.hasTag_renumber,
    ← Listing.mem_tagged, nowhere] at member
  cases member

/-- The emphasis is in one row throughout a run exactly when no step of the run strands it.
Emphasizing a row adds all its tokens to those that were emphasized and takes away those of the
row that was selected; so the tokens of the row are then the only ones exactly when none is
stranded. -/
theorem emphasis_in_one_row_iff (settings : Settings) (history : List Command) :
    ((∀ earlier, earlier <+: history →
        ((new settings).run earlier).listing.EmphasisInOneRow) ↔
      ∀ earlier command, earlier ++ [command] <+: history →
        ¬((new settings).run earlier).Strands command) ∧
    let s := (new settings).run history
    ∀ index, (s.perform (.emphasize index)).reply = .applied true →
      let after := (s.perform (.emphasize index)).session.listing
      (∀ q, q ∈ after.tagged .selected ↔
        (q.row = index ∧ (after.token? q).isSome = true) ∨
          (q ∈ s.listing.tagged .selected ∧ q.row ≠ s.listing.selected)) ∧
      ((∀ q, q ∈ after.tagged .selected ↔ q.row = index ∧ (after.token? q).isSome = true) ↔
        ¬s.Strands (.emphasize index)) := by
  have single : ∀ earlier, ((new settings).run earlier).listing.SingleSelection :=
    singleSelection_kept (singleSelection_new settings)
  refine ⟨⟨?_, ?_⟩, ?_⟩
  · intro throughout earlier command step
    have after := throughout _ step
    rw [run_concat] at after
    have before := throughout earlier ((List.prefix_append earlier [command]).trans step)
    exact (inOneRow_perform_iff (single earlier) before command).1 after
  · intro safe earlier
    -- From each prefix to the next one, which is a step longer.
    induction earlier using List.reverseRecOn with
    | nil => exact fun _ => inOneRow_new settings
    | append_singleton earlier command ih =>
      intro step
      have before := ih ((List.prefix_append earlier [command]).trans step)
      rw [run_concat]
      exact (inOneRow_perform_iff (single earlier) before command).2 (safe earlier command step)
  · intro s index accepted after
    exact ⟨Workspace.mem_tagged_emphasizeRow (accepted_commit accepted),
      emphasized_exactly_iff accepted⟩

/-- A row is put in above the emphasized one, and the selection stays with the latter; so the
emphasis moves on to the last row as a whole.  It does not if the selection leaves first. -/
theorem emphasis_in_one_row_iff_insertion :
    let history : List Command := [.insert 0 [⟨"a", none⟩], .emphasize 0, .insert 0 []]
    let kept := (((new {}).run history).perform (.emphasize 2)).session.listing
    let spread := (((new {}).run (history ++ [.select 0])).perform (.emphasize 2)).session.listing
    (∀ q, q ∈ kept.tagged .selected ↔ q.row = 2 ∧ (kept.token? q).isSome = true) ∧
      ¬∀ q, q ∈ spread.tagged .selected ↔ q.row = 2 ∧ (spread.token? q).isSome = true := by
  intro history kept spread
  obtain ⟨-, exactly⟩ := ((emphasis_in_one_row_iff {} history).2 2 (by decide))
  obtain ⟨-, inexactly⟩ :=
    ((emphasis_in_one_row_iff {} (history ++ [.select 0])).2 2 (by decide))
  exact ⟨exactly.2 (by decide), fun all => inexactly.1 all (by decide)⟩

/-- A plain selection leaves the emphasis of the first row behind. -/
theorem emphasis_left_behind :
    let history : List Command := [.insert 0 [], .emphasize 0, .select 1]
    let step := ((new {}).run history).perform (.emphasize 1)
    step.reply = .applied true ∧ ¬step.session.listing.EmphasisInOneRow ∧
      step.session.listing.tagged .selected = [⟨0, 0⟩, ⟨0, 1⟩, ⟨1, 0⟩, ⟨1, 1⟩] := by
  intro history step
  have both : step.session.listing.tagged .selected = [⟨0, 0⟩, ⟨0, 1⟩, ⟨1, 0⟩, ⟨1, 1⟩] := by
    decide
  refine ⟨by decide, ?_, both⟩
  rintro ⟨row, only⟩
  rw [both] at only
  have first : 0 = row := only ⟨0, 0⟩ (by decide)
  have second : 1 = row := only ⟨1, 0⟩ (by decide)
  omega

end Session

end CodeRows
