import CodeRows.Proofs.Report
import Mathlib.Data.Nat.PSub

/-! # Sessions in machine words

Here the commands are carried out once more, with indices, depths and versions in words of 64
bits: a sum that does not fit, a difference below zero and an insertion or removal out of range
are traps.  The arithmetic is spelled out as a machine meets it, cursor by cursor; where a
difference is meant to stop at zero, or to be nothing below it, there is no trap.  The numbers in a
command may be anything; a session that is not too large never runs into a trap and does just what
it does with unbounded numbers (`Session.perform_never_traps`). -/

set_option autoImplicit false

namespace CodeRows

namespace Machine

inductive Trap where
  | overflow
  | underflow
  | outOfRange
deriving DecidableEq, Repr

def add (a b : Nat) : Except Trap Nat :=
  if a + b < 2 ^ 64 then .ok (a + b) else .error .overflow

def sub (a b : Nat) : Except Trap Nat :=
  if b ≤ a then .ok (a - b) else .error .underflow

def insertAt {α : Type} (items : List α) (index : Nat) (item : α) : Except Trap (List α) :=
  if index ≤ items.length then .ok (items.insertIdx index item) else .error .outOfRange

def removeAt {α : Type} (items : List α) (index : Nat) : Except Trap (List α) :=
  if index < items.length then .ok (items.eraseIdx index) else .error .outOfRange

theorem add_of_lt {a b : Nat} (fits : a + b < 2 ^ 64) : add a b = .ok (a + b) := if_pos fits

theorem sub_of_le {a b : Nat} (fits : b ≤ a) : sub a b = .ok (a - b) := if_pos fits

theorem insertAt_of_le {α : Type} {items : List α} {index : Nat} (item : α)
    (fits : index ≤ items.length) : insertAt items index item = .ok (items.insertIdx index item) :=
  if_pos fits

theorem removeAt_of_lt {α : Type} {items : List α} {index : Nat} (fits : index < items.length) :
    removeAt items index = .ok (items.eraseIdx index) :=
  if_pos fits

theorem ok_bind {α β : Type} (a : α) (f : α → Except Trap β) : (Except.ok a >>= f) = f a := rfl

end Machine

open Machine

/-! ## Walks -/

namespace Nesting

def Step.depthChecked : Step → Nat → Except Trap Nat
  | .deepen, depth => add depth 1
  | .rise, depth => sub depth 1
  | .level, depth => .ok depth

/-- Take the steps from the given depth, moving a cursor along; where the cursor ends. -/
def walk {α : Type} (advance : α → Except Trap α) : List Step → Nat → α → Except Trap α
  | [], _, cursor => .ok cursor
  | _ :: _, 0, cursor => .ok cursor
  | step :: steps, depth + 1, cursor => do
    let deeper ← step.depthChecked (depth + 1)
    let next ← advance cursor
    walk advance steps deeper next

def forward (steps : Nat → List Step) (start : Nat) : Except Trap Nat := do
  let first ← add start 1
  let stop ← walk (add · 1) (steps first) 1 first
  sub stop 1

/-- The item where a walk back from `start` stands when it is over; nothing in front of the
first. -/
def backward (steps : List Step) (start : Nat) : Except Trap (Option Nat) :=
  walk (fun cursor => .ok (cursor.bind Nat.ppred)) steps 1 (Nat.ppred start)

theorem Step.depthChecked_eq (step : Step) {depth : Nat} (room : depth + 2 < 2 ^ 64) :
    step.depthChecked (depth + 1) = .ok (step.depth (depth + 1)) := by
  cases step with
  | deepen => exact add_of_lt room
  | rise => exact sub_of_le (Nat.le_add_left 1 depth)
  | level => rfl

theorem Step.depth_le (step : Step) (depth : Nat) : step.depth depth ≤ depth + 1 := by
  cases step <;> simp only [Step.depth] <;> omega

/-- The depth grows by at most one with each step, so that it fits as long as the depth at the
start and the number of steps do together. -/
theorem walk_eq {α : Type} {advance : α → Except Trap α} (place : Nat → α) (steps : List Step)
    {depth : Nat} (room : depth + steps.length < 2 ^ 64)
    (moves : ∀ k < steps.length, advance (place k) = .ok (place (k + 1))) :
    walk advance steps depth (place 0) = .ok (place (reach depth steps)) := by
  induction steps generalizing depth place with
  | nil => cases depth <;> rfl
  | cons step steps ih =>
    cases depth with
    | zero => rfl
    | succ depth =>
      rw [List.length_cons] at room moves
      have bounded := step.depth_le (depth + 1)
      rw [walk, step.depthChecked_eq (by omega), ok_bind, moves 0 (Nat.succ_pos _), ok_bind, reach]
      exact ih (fun k => place (k + 1)) (by omega) fun k bound => moves (k + 1) (by omega)

theorem forward_eq {steps : Nat → List Step} {start : Nat}
    (room : start + (steps (start + 1)).length + 1 < 2 ^ 64) :
    forward steps start = .ok (start + reach 1 (steps (start + 1))) := by
  have within := reach_le_length 1 (steps (start + 1))
  rw [forward, add_of_lt (by omega), ok_bind,
    walk_eq (fun k => start + 1 + k) (steps (start + 1)) (by omega) fun k bound =>
      add_of_lt (by omega),
    ok_bind, sub_of_le (by omega)]
  congr 1
  omega

theorem backward_eq {steps : List Step} {start : Nat} (inside : steps.length ≤ start)
    (room : start + 1 < 2 ^ 64) :
    backward steps start = .ok (Nat.ppred (start - reach 1 steps)) := by
  refine walk_eq (fun k => Nat.ppred (start - k)) steps (by omega) fun k bound => ?_
  have ahead : start - k = start - (k + 1) + 1 := by omega
  rw [ahead, Nat.ppred_succ]
  rfl

end Nesting

/-! ## Hovering -/

namespace Listing

/-- Rows and columns stay below half of what a word holds. -/
structure Fits (listing : Listing) : Prop where
  rowCount : listing.rowCount < 2 ^ 63
  rowLength : ∀ row ∈ listing.rows, row.tokens.length < 2 ^ 63

def headerTargetChecked (listing : Listing) (p : Position) : Except Trap Position :=
  if p.column = Position.contentColumn then do
    let below ← add p.row 1
    match listing.marker? below with
    | some marker => .ok (if listing.hasTag marker .openBracket then marker else p)
    | none => .ok p
  else .ok p

def callTargetChecked (listing : Listing) (p : Position) : Except Trap Position := do
  let column ← add p.column 1
  match listing.token? ⟨p.row, column⟩ with
  | some token => .ok (if token.text = "(" then ⟨p.row, column⟩ else p)
  | none => .ok p

def blockBelowChecked (listing : Listing) (row : Nat) : Except Trap Highlight := do
  let last ← Nesting.forward
    (fun first => (listing.rows.drop first).map (·.step .openBracket .closeBracket)) row
  .ok (listing.codeOfRows ((Nat.ppred row).getD row) last)

def blockAboveChecked (listing : Listing) (row : Nat) : Except Trap Highlight := do
  let header ← Nesting.backward
    ((listing.rows.take row).reverse.map (·.step .closeBracket .openBracket)) row
  .ok (listing.codeOfRows (header.getD 0) row)

def groupRightChecked (listing : Listing) (p : Position) : Except Trap Highlight := do
  let last ← Nesting.forward
    (fun first => ((listing.tokensOfRow p.row).drop first).map (·.step .openParen .closeParen))
    p.column
  .ok (columnsOfRow p.row ((Nat.ppred p.column).getD p.column) last)

def groupLeftChecked (listing : Listing) (p : Position) : Except Trap Highlight := do
  let name ← Nesting.backward
    (((listing.tokensOfRow p.row).take p.column).reverse.map (·.step .closeParen .openParen))
    p.column
  .ok (columnsOfRow p.row (name.getD 0) p.column)

def relatedInRowChecked (listing : Listing) (p : Position) : Except Trap Highlight := do
  let target ← listing.callTargetChecked p
  if listing.hasTag target .openParen then listing.groupRightChecked target
  else if listing.hasTag target .closeParen then listing.groupLeftChecked target
  else .ok (OrderedSet.ofList [target])

def relatedChecked (listing : Listing) (p : Position) : Except Trap Highlight :=
  match listing.token? p with
  | none => .ok ∅
  | some token =>
    if token.tags.coversRow then .ok (listing.codeOfRows p.row p.row)
    else do
      let target ← listing.headerTargetChecked p
      if listing.hasTag target .openBracket then listing.blockBelowChecked target.row
      else if listing.hasTag target .closeBracket then listing.blockAboveChecked target.row
      else listing.relatedInRowChecked target

def pointChecked (listing : Listing) (signal : Pointer.Signal) :
    Except Trap (Listing × Pointer.Outcome) :=
  match signal with
  | .enter p =>
    if (listing.token? p).isSome then do
      let tokens ← listing.relatedChecked p
      .ok (listing.mark tokens, .highlighted tokens)
    else .ok (listing, .ignored)
  | .leave p =>
    if (listing.token? p).isSome then do
      let tokens ← listing.relatedChecked p
      .ok (listing.unmark tokens, .cleared tokens)
    else .ok (listing, .ignored)
  | .click p =>
    match listing.token? p with
    | some token => .ok (listing, .clicked ⟨p, token.text, token.tags⟩)
    | none => .ok (listing, .ignored)

section Hovering

variable {listing : Listing} {p : Position}

theorem Fits.length_tokensOfRow (fits : listing.Fits) (row : Nat) :
    (listing.tokensOfRow row).length < 2 ^ 63 := by
  rw [tokensOfRow]
  cases found : listing.row? row with
  | none => simp
  | some line => exact fits.rowLength line (mem_rows_of_row? found)

theorem headerTargetChecked_eq (fits : listing.Fits)
    (occupied : (listing.token? p).isSome = true) :
    listing.headerTargetChecked p = .ok (listing.headerTarget p) := by
  have inside := row_lt_rowCount occupied
  have bound := fits.rowCount
  rw [headerTargetChecked, headerTarget]
  split
  · rw [add_of_lt (by omega), ok_bind]
    cases listing.marker? (p.row + 1) <;> rfl
  · rfl

theorem callTargetChecked_eq (fits : listing.Fits)
    (occupied : (listing.token? p).isSome = true) :
    listing.callTargetChecked p = .ok (listing.callTarget p) := by
  have inside := isSome_token?_iff.1 occupied
  have bound := fits.length_tokensOfRow p.row
  rw [callTargetChecked, callTarget, Position.right, add_of_lt (by omega), ok_bind]
  cases listing.token? ⟨p.row, p.column + 1⟩ <;> rfl

theorem blockBelowChecked_eq (fits : listing.Fits) {row : Nat} (inside : row < listing.rowCount) :
    listing.blockBelowChecked row = .ok (listing.blockBelow row) := by
  have bound := fits.rowCount
  have first : (Nat.ppred row).getD row = row - 1 := by cases row <;> rfl
  rw [blockBelowChecked, Nesting.forward_eq, ok_bind, first]
  · rfl
  · rw [List.length_map, List.length_drop, ← rowCount]
    omega

theorem blockAboveChecked_eq (fits : listing.Fits) {row : Nat} (inside : row < listing.rowCount) :
    listing.blockAboveChecked row = .ok (listing.blockAbove row) := by
  have bound := fits.rowCount
  rw [blockAboveChecked, Nesting.backward_eq, ok_bind, ← Nat.pred_eq_ppred]
  · rfl
  · rw [List.length_map, List.length_reverse]
    exact List.length_take_le _ _
  · omega

theorem groupRightChecked_eq (fits : listing.Fits)
    (occupied : (listing.token? p).isSome = true) :
    listing.groupRightChecked p = .ok (listing.groupRight p) := by
  have inside := isSome_token?_iff.1 occupied
  have bound := fits.length_tokensOfRow p.row
  have first : (Nat.ppred p.column).getD p.column = p.column - 1 := by cases p.column <;> rfl
  rw [groupRightChecked, Nesting.forward_eq, ok_bind, first]
  · rfl
  · rw [List.length_map, List.length_drop]
    omega

theorem groupLeftChecked_eq (fits : listing.Fits)
    (occupied : (listing.token? p).isSome = true) :
    listing.groupLeftChecked p = .ok (listing.groupLeft p) := by
  have inside := isSome_token?_iff.1 occupied
  have bound := fits.length_tokensOfRow p.row
  rw [groupLeftChecked, Nesting.backward_eq, ok_bind, ← Nat.pred_eq_ppred]
  · rfl
  · rw [List.length_map, List.length_reverse]
    exact List.length_take_le _ _
  · omega

theorem relatedInRowChecked_eq (fits : listing.Fits)
    (occupied : (listing.token? p).isSome = true) :
    listing.relatedInRowChecked p = .ok (listing.relatedInRow p) := by
  have called := isSome_token?_callTarget occupied
  rw [relatedInRowChecked, callTargetChecked_eq fits occupied, ok_bind, relatedInRow,
    groupRightChecked_eq fits called, groupLeftChecked_eq fits called]
  split
  · rfl
  · split <;> rfl

theorem relatedChecked_eq (fits : listing.Fits) (p : Position) :
    listing.relatedChecked p = .ok (listing.related p) := by
  rw [relatedChecked, related]
  cases found : listing.token? p with
  | none => rfl
  | some token =>
    have occupied : (listing.token? p).isSome = true := by
      rw [found]
      rfl
    have headed := isSome_token?_headerTarget occupied
    have inside := row_lt_rowCount headed
    dsimp only
    rw [headerTargetChecked_eq fits occupied, ok_bind, blockBelowChecked_eq fits inside,
      blockAboveChecked_eq fits inside, relatedInRowChecked_eq fits headed]
    split
    · rfl
    · split
      · rfl
      · split <;> rfl

theorem pointChecked_eq (fits : listing.Fits) (signal : Pointer.Signal) :
    listing.pointChecked signal = .ok (listing.point signal) := by
  cases signal with
  | enter p =>
    rw [pointChecked, point, relatedChecked_eq fits p]
    split <;> rfl
  | leave p =>
    rw [pointChecked, point, relatedChecked_eq fits p]
    split <;> rfl
  | click p =>
    rw [pointChecked, point]
    cases listing.token? p <;> rfl

theorem touched_point (signal : Pointer.Signal) :
    (listing.point signal).2.touched = ∅ ∨
      ∃ p, (listing.point signal).2.touched = listing.related p := by
  cases signal with
  | enter p =>
    rw [point]
    split
    · exact Or.inr ⟨p, rfl⟩
    · exact Or.inl rfl
  | leave p =>
    rw [point]
    split
    · exact Or.inr ⟨p, rfl⟩
    · exact Or.inl rfl
  | click p =>
    rw [point]
    split <;> exact Or.inl rfl

theorem row_lt_of_mem_touched {signal : Pointer.Signal} {q : Position}
    (member : q ∈ (listing.point signal).2.touched) : q.row < listing.rowCount := by
  rcases listing.touched_point signal with nothing | ⟨p, related⟩
  · rw [nothing] at member
    exact absurd member (OrderedSet.not_mem_empty q)
  · rw [related] at member
    exact row_lt_rowCount (isSome_token?_of_mem_related member)

end Hovering

end Listing

/-! ## Editing -/

namespace Workspace

def insertRowChecked (w : Workspace) (index : Nat) (snippets : List Snippet) :
    Except Trap (Option Workspace) :=
  if index ≤ w.listing.rowCount && w.permits index then do
    let rows ← insertAt w.listing.rows index (Row.ofSnippets snippets w.settings.highlighting)
    let longer := { w.listing with rows := rows }
    let following ← add w.listing.selected 1
    .ok (some (renumber (w.setListing (longer.pointTo (min following longer.lastIndex)))))
  else .ok none

def deleteRowChecked (w : Workspace) (index : Nat) : Except Trap (Option Workspace) :=
  if index < w.listing.rowCount && 1 < w.listing.rowCount then do
    let isLast := index == w.listing.lastIndex
    let target ← if isLast then sub index 1 else .ok index
    let rows ← removeAt w.listing.rows target
    let shorter := { w.listing with rows := rows }
    let next := if isLast then shorter.lastIndex else min w.listing.selected shorter.lastIndex
    .ok (some (renumber (w.setListing (shorter.pointTo next))))
  else .ok none

theorem insertRowChecked_eq {w : Workspace} (fits : w.listing.Fits)
    (single : w.listing.SingleSelection) (index : Nat) (snippets : List Snippet) :
    w.insertRowChecked index snippets = .ok (w.insertRow index snippets) := by
  have bound := fits.rowCount
  have selected := single.selected_lt
  rw [insertRowChecked, insertRow]
  split
  · rename_i permitted
    have inside : index ≤ w.listing.rowCount := by
      rw [Bool.and_eq_true] at permitted
      exact of_decide_eq_true permitted.1
    rw [insertAt_of_le _ inside, ok_bind, add_of_lt (by omega)]
    rfl
  · rfl

theorem deleteRowChecked_eq (w : Workspace) (index : Nat) :
    w.deleteRowChecked index = .ok (w.deleteRow index) := by
  rw [deleteRowChecked, deleteRow]
  split
  · rename_i permitted
    simp only [Bool.and_eq_true, decide_eq_true_eq] at permitted
    obtain ⟨inside, several⟩ := permitted
    by_cases isLast : (index == w.listing.lastIndex) = true
    · have last : index = w.listing.rowCount - 1 := eq_of_beq isLast
      simp only [isLast, if_true]
      rw [sub_of_le (by omega), ok_bind, removeAt_of_lt (show _ < w.listing.rowCount by omega)]
      rfl
    · simp only [isLast, ok_bind]
      rw [removeAt_of_lt inside]
      rfl
  · rfl

end Workspace

/-! ## Commands -/

namespace RowSpan

def betweenChecked (a b : Nat) : Except Trap RowSpan := do
  let stop ← add (max a b) 1
  .ok ⟨min a b, stop⟩

def ofHighlightChecked (tokens : Highlight) : Except Trap (Option RowSpan) :=
  match tokens.rows.head?, tokens.rows.getLast? with
  | some first, some last => do
    let stop ← add last 1
    .ok (some ⟨first, stop⟩)
  | _, _ => .ok none

theorem betweenChecked_eq {a b : Nat} (left : a < 2 ^ 63) (right : b < 2 ^ 63) :
    betweenChecked a b = .ok (between a b) := by
  rw [betweenChecked, add_of_lt (by omega)]
  rfl

theorem ofHighlightChecked_eq {tokens : Highlight} (low : ∀ q ∈ tokens, q.row < 2 ^ 63) :
    ofHighlightChecked tokens = .ok (ofHighlight? tokens) := by
  rw [ofHighlightChecked, ofHighlight?]
  cases tokens.rows.head? with
  | none => rfl
  | some first =>
    cases ends : tokens.rows.getLast? with
    | none => rfl
    | some last =>
      rw [Highlight.rows, Highlight.getLast?_dropRepeats] at ends
      obtain ⟨q, member, same⟩ := List.mem_map.1 (List.mem_of_getLast? ends)
      have bound := low q member
      dsimp only
      rw [add_of_lt (by omega)]
      rfl

end RowSpan

namespace Session

structure Fits (s : Session) : Prop where
  listing : s.listing.Fits
  version : s.version < 2 ^ 64 - 1

def notifyChecked (s : Session) (kind : ChangeKind) (rows : RowSpan) :
    Except Trap (Session × List Delivery) := do
  let newer ← add s.version 1
  .ok ({ s with version := newer },
    s.subscribers.map fun name => .change name ⟨kind, s.version, newer, rows⟩)

def commitChecked (s : Session) (edited : Except Trap (Option Workspace))
    (change : Workspace → Except Trap (Option (ChangeKind × RowSpan))) : Except Trap Step := do
  match ← edited with
  | none => .ok ⟨s, .applied false, []⟩
  | some workspace =>
    let next := { s with workspace := workspace }
    match ← change workspace with
    | none => .ok ⟨next, .applied true, []⟩
    | some (kind, rows) =>
      let told ← next.notifyChecked kind rows
      .ok ⟨told.1, .applied true, told.2⟩

def insertRowChecked (s : Session) (index : Nat) (snippets : List Snippet) : Except Trap Step :=
  s.commitChecked (s.workspace.insertRowChecked index snippets) fun w =>
    .ok (some (.rows, ⟨index, w.listing.rowCount⟩))

def deleteRowChecked (s : Session) (index : Nat) : Except Trap Step :=
  s.commitChecked (s.workspace.deleteRowChecked index) fun w =>
    .ok (some (.rows, ⟨min (index - 1) w.listing.rowCount, w.listing.rowCount⟩))

def movedChecked (s : Session) (index : Nat) : Except Trap (Option (ChangeKind × RowSpan)) := do
  let rows ← RowSpan.betweenChecked s.listing.selected index
  .ok (some (.selection, rows))

def selectRowChecked (s : Session) (index : Nat) : Except Trap Step :=
  s.commitChecked (.ok (s.workspace.selectRow index)) fun _ =>
    if index = s.listing.selected then .ok none else s.movedChecked index

def emphasizeRowChecked (s : Session) (index : Nat) : Except Trap Step :=
  s.commitChecked (.ok (s.workspace.emphasizeRow index)) fun _ =>
    if s.isEmphasized index then .ok none else s.movedChecked index

def pointChecked (s : Session) (signal : Pointer.Signal) : Except Trap Step := do
  let (listing, outcome) ← s.listing.pointChecked signal
  let next := { s with workspace := s.workspace.setListing listing }
  let clicks := (s.pointer.heard? outcome).toList.map fun (name, target) => .click name target
  match ← RowSpan.ofHighlightChecked outcome.touched with
  | none => .ok ⟨next, .pointed outcome, clicks⟩
  | some rows =>
    let told ← next.notifyChecked .highlight rows
    .ok ⟨told.1, .pointed outcome, clicks ++ told.2⟩

def performChecked (s : Session) : Command → Except Trap Step
  | .insert index snippets => s.insertRowChecked index snippets
  | .insertJson index text =>
    match Snippet.listOfJson text with
    | .ok snippets => s.insertRowChecked index snippets
    | .error error => .ok ⟨s, .refused error, []⟩
  | .delete index => s.deleteRowChecked index
  | .select index => s.selectRowChecked index
  | .emphasize index => s.emphasizeRowChecked index
  | .point signal => s.pointChecked signal
  | .subscribe name => .ok ⟨s.subscribe name, .done, []⟩
  | .listen name => .ok ⟨s.listen name, .done, []⟩

section Commands

variable {s : Session}

theorem notifyChecked_eq (room : s.version < 2 ^ 64 - 1) (kind : ChangeKind) (rows : RowSpan) :
    s.notifyChecked kind rows = .ok (s.notify kind rows) := by
  rw [notifyChecked, add_of_lt (by omega)]
  rfl

theorem commitChecked_eq (room : s.version < 2 ^ 64 - 1) (edited : Option Workspace)
    {checked : Workspace → Except Trap (Option (ChangeKind × RowSpan))}
    {change : Workspace → Option (ChangeKind × RowSpan)}
    (agree : ∀ w, edited = some w → checked w = .ok (change w)) :
    s.commitChecked (.ok edited) checked = .ok (s.commit edited change) := by
  rw [commitChecked, ok_bind]
  cases edited with
  | none => rfl
  | some w =>
    dsimp only [commit]
    rw [agree w rfl, ok_bind]
    cases change w with
    | none => rfl
    | some told =>
      dsimp only
      rw [notifyChecked_eq]
      · rfl
      · exact room

theorem insertRowChecked_eq (fits : s.Fits) (single : s.listing.SingleSelection) (index : Nat)
    (snippets : List Snippet) :
    s.insertRowChecked index snippets = .ok (s.insertRow index snippets) := by
  rw [insertRowChecked, Workspace.insertRowChecked_eq fits.listing single]
  exact commitChecked_eq fits.version _ fun w done => rfl

theorem movedChecked_eq (fits : s.Fits) (single : s.listing.SingleSelection) {index : Nat}
    (inside : index < s.listing.rowCount) :
    s.movedChecked index = .ok (some (.selection, .between s.listing.selected index)) := by
  have bound := fits.listing.rowCount
  have selected := single.selected_lt
  rw [movedChecked, RowSpan.betweenChecked_eq (by omega) (by omega)]
  rfl

theorem selectRowChecked_eq (fits : s.Fits) (single : s.listing.SingleSelection) (index : Nat) :
    s.selectRowChecked index = .ok (s.selectRow index) := by
  refine commitChecked_eq fits.version _ fun w done => ?_
  rw [movedChecked_eq fits single (Workspace.selectRow_eq_some_iff.1 done).1.1]
  split <;> rfl

theorem emphasizeRowChecked_eq (fits : s.Fits) (single : s.listing.SingleSelection)
    (index : Nat) : s.emphasizeRowChecked index = .ok (s.emphasizeRow index) := by
  refine commitChecked_eq fits.version _ fun w done => ?_
  rw [movedChecked_eq fits single (Workspace.emphasizeRow_eq_some_iff.1 done).1.1]
  split <;> rfl

theorem pointChecked_eq (fits : s.Fits) (signal : Pointer.Signal) :
    s.pointChecked signal = .ok (s.point signal) := by
  have low : ∀ q ∈ (s.listing.point signal).2.touched, q.row < 2 ^ 63 := fun q member =>
    Nat.lt_trans (Listing.row_lt_of_mem_touched member) fits.listing.rowCount
  rw [pointChecked, Listing.pointChecked_eq fits.listing, ok_bind, point]
  dsimp only
  rw [RowSpan.ofHighlightChecked_eq low, ok_bind]
  cases RowSpan.ofHighlight? (s.listing.point signal).2.touched with
  | none => rfl
  | some rows =>
    dsimp only
    rw [notifyChecked_eq]
    · rfl
    · exact fits.version

theorem performChecked_eq (fits : s.Fits) (single : s.listing.SingleSelection)
    (command : Command) : s.performChecked command = .ok (s.perform command) := by
  cases command with
  | insert index snippets => exact insertRowChecked_eq fits single index snippets
  | insertJson index text =>
    rw [performChecked, perform, insertRowJson]
    cases Snippet.listOfJson text with
    | ok snippets => exact insertRowChecked_eq fits single index snippets
    | error error => rfl
  | delete index =>
    rw [performChecked, deleteRowChecked, Workspace.deleteRowChecked_eq]
    exact commitChecked_eq fits.version _ fun w done => rfl
  | select index => exact selectRowChecked_eq fits single index
  | emphasize index => exact emphasizeRowChecked_eq fits single index
  | point signal => exact pointChecked_eq fits signal
  | subscribe name => rfl
  | listen name => rfl

end Commands

/-- Whatever the numbers in a command are, a session that fits carries it out in machine words
without a trap, and with the same result as in unbounded numbers. -/
theorem perform_never_traps (settings : Settings) (history : List Command) (command : Command)
    (fits : ((new settings).run history).Fits) :
    ((new settings).run history).performChecked command =
      .ok (((new settings).run history).perform command) :=
  performChecked_eq fits (singleSelection_kept (singleSelection_new settings) history) command

theorem perform_never_traps_block :
    let s := (new {}).run [.insert 0 [⟨"\x7d", some "closeBracket"⟩],
      .insert 0 [⟨"\x7b", some "openBracket"⟩], .insert 0 [⟨"loop", none⟩]]
    s.Fits ∧ (s.listing.related ⟨0, 2⟩).rows = [0, 1, 2] ∧
      s.performChecked (.point (.enter ⟨0, 2⟩)) = .ok (s.perform (.point (.enter ⟨0, 2⟩))) ∧
      s.performChecked (.delete (2 ^ 64 - 1)) = .ok (s.perform (.delete (2 ^ 64 - 1))) := by
  intro s
  have fits : s.Fits := ⟨⟨by decide, by decide⟩, by decide⟩
  exact ⟨fits, by decide, perform_never_traps _ _ _ fits, perform_never_traps _ _ _ fits⟩

/-- One version later the counter is at its end. -/
example :
    { new {} with version := 2 ^ 64 - 1 }.performChecked (.point (.enter ⟨0, 0⟩)) =
      .error .overflow := by
  rfl

end Session

end CodeRows
