import CodeRows.Proofs.Marking
import CodeRows.Proofs.Related
import CodeRows.Proofs.Selection

/-! # What a session reports

A command either goes unreported, and then version and listing are as before, or it is reported
once to every subscriber under the next version (`Session.perform_accounted`).  A subscriber
therefore sees the versions one after the other from the one at which it joined
(`Session.reports_gap_free`).

The converse, that a report means a change, holds but for the pointer: entering a token whose
related tokens are marked already, or leaving one whose related tokens are not marked, is reported
although the listing stays as it is (`Session.idle_report_iff`). -/

set_option autoImplicit false

namespace CodeRows

/-! ## The rows that a set of tokens spans -/

instance : Membership Nat RowSpan := ⟨fun span index => span.first ≤ index ∧ index < span.stop⟩

theorem RowSpan.mem_mk {first stop index : Nat} :
    index ∈ (⟨first, stop⟩ : RowSpan) ↔ first ≤ index ∧ index < stop := Iff.rfl

instance (index : Nat) (span : RowSpan) : Decidable (index ∈ span) :=
  inferInstanceAs (Decidable (span.first ≤ index ∧ index < span.stop))

theorem Position.compare_eq_lt_iff {p q : Position} :
    compare p q = .lt ↔ p.row < q.row ∨ p.row = q.row ∧ p.column < q.column := by
  have lexicographic : compare p q = (compare p.row q.row).then (compare p.column q.column) := rfl
  rw [lexicographic, Ordering.then_eq_lt, Nat.compare_eq_lt, Nat.compare_eq_eq, Nat.compare_eq_lt]

theorem Position.row_le_of_compare_lt {p q : Position} (less : compare p q = .lt) :
    p.row ≤ q.row := by
  rcases compare_eq_lt_iff.1 less with above | ⟨same, -⟩
  · exact Nat.le_of_lt above
  · exact Nat.le_of_eq same

namespace Highlight

theorem head?_dropRepeats (items : List Nat) : (dropRepeats items).head? = items.head? := by
  fun_induction dropRepeats items with
  | case1 => rfl
  | case2 n => rfl
  | case3 m rest ih => exact ih
  | case4 m n rest differs ih => rfl

theorem getLast?_dropRepeats (items : List Nat) :
    (dropRepeats items).getLast? = items.getLast? := by
  fun_induction dropRepeats items with
  | case1 => rfl
  | case2 n => rfl
  | case3 m rest ih => rw [ih, List.getLast?_cons_cons]
  | case4 m n rest differs ih =>
    rw [List.getLast?_cons_cons, List.getLast?_cons, ih, List.getLast?_cons]
    rfl

theorem pairwise_rows (tokens : Highlight) :
    (tokens.elems.map Position.row).Pairwise (· ≤ ·) :=
  List.pairwise_map.2 (tokens.ascending.imp Position.row_le_of_compare_lt)

end Highlight

namespace RowSpan

theorem ofHighlight?_eq_none_iff {tokens : Highlight} :
    ofHighlight? tokens = none ↔ ∀ q, q ∉ tokens := by
  rw [ofHighlight?, Highlight.rows, Highlight.head?_dropRepeats, Highlight.getLast?_dropRepeats]
  simp only [OrderedSet.mem_def, ← List.eq_nil_iff_forall_not_mem]
  cases tokens.elems with
  | nil => simp
  | cons p rest => simp [List.getLast?_cons]

theorem row_mem_of_ofHighlight? {tokens : Highlight} {span : RowSpan}
    (spanned : ofHighlight? tokens = some span) {q : Position} (member : q ∈ tokens) :
    q.row ∈ span := by
  rw [ofHighlight?, Highlight.rows, Highlight.head?_dropRepeats,
    Highlight.getLast?_dropRepeats] at spanned
  have sorted := tokens.pairwise_rows
  have inRows : q.row ∈ tokens.elems.map Position.row := List.mem_map_of_mem member
  generalize tokens.elems.map Position.row = rows at spanned sorted inRows
  split at spanned
  · rename_i first last starts ends
    cases spanned
    constructor
    · obtain ⟨rest, rfl⟩ := List.head?_eq_some_iff.1 starts
      rcases List.mem_cons.1 inRows with same | later
      · exact Nat.le_of_eq same.symm
      · exact (List.pairwise_cons.1 sorted).1 _ later
    · obtain ⟨before, rfl⟩ := List.getLast?_eq_some_iff.1 ends
      rcases List.mem_append.1 inRows with earlier | same
      · have below := (List.pairwise_append.1 sorted).2.2 _ earlier last (List.mem_singleton.2 rfl)
        exact Nat.lt_succ_of_le below
      · rw [List.mem_singleton.1 same]
        exact Nat.lt_succ_self last
  · cases spanned

theorem exists_ends {tokens : Highlight} {q : Position} (member : q ∈ tokens) :
    ∃ first last, tokens.rows.head? = some first ∧ tokens.rows.getLast? = some last ∧
      ∀ p ∈ tokens, first ≤ p.row ∧ p.row ≤ last := by
  cases spanned : ofHighlight? tokens with
  | none => exact absurd member (ofHighlight?_eq_none_iff.1 spanned q)
  | some span =>
    have inSpan : ∀ p ∈ tokens, p.row ∈ span := fun p inside =>
      row_mem_of_ofHighlight? spanned inside
    rw [ofHighlight?] at spanned
    split at spanned
    · rename_i first last starts ends
      cases spanned
      refine ⟨first, last, starts, ends, ?_⟩
      intro p inside
      obtain ⟨above, below⟩ := inSpan p inside
      exact ⟨above, Nat.le_of_lt_succ below⟩
    · cases spanned

end RowSpan

/-! ## Edits without effect -/

theorem Token.addTag_eq_self_iff {token : Token} {tag : Tag} :
    token.addTag tag = token ↔ tag ∈ token.tags := by
  constructor
  · intro same
    rw [← same]
    exact mem_tags_addTag.2 (Or.inl rfl)
  · intro carried
    refine ext_tags rfl fun other => ?_
    rw [mem_tags_addTag]
    refine or_iff_right_of_imp ?_
    rintro rfl
    exact carried

theorem Token.addTag_removeTag {token : Token} {tag : Tag} (carried : tag ∈ token.tags) :
    (token.removeTag tag).addTag tag = token := by
  refine ext_tags rfl fun other => ?_
  rw [mem_tags_addTag, mem_tags_removeTag]
  by_cases same : other = tag
  · simp [same, carried]
  · simp [same]

namespace Listing

theorem SingleSelection.pointTo_selected {listing : Listing} (single : listing.SingleSelection) :
    listing.pointTo listing.selected = listing := by
  refine congrArg (Listing.mk · listing.selected) (List.mapIdx_eq_iff.2 ?_)
  intro index
  cases found : listing.rows[index]? with
  | none => rfl
  | some row =>
    have flag : row.isSelected = decide (index = listing.selected) := by
      rw [Bool.eq_iff_iff, decide_eq_true_iff]
      exact single.flag index row found
    rw [Option.map_some, if_pos flag]

theorem mapTokensOf_mapTokensOf (listing : Listing) (index : Nat) (f g : Token → Token) :
    (listing.mapTokensOf index f).mapTokensOf index g = listing.mapTokensOf index (g ∘ f) := by
  simp only [mapTokensOf, List.modify_modify_eq]
  congr 2
  funext row
  simp [Row.mapTokens]

theorem mapTokensOf_eq_self {listing : Listing} {index : Nat} {f : Token → Token}
    (fixed : ∀ row, listing.row? index = some row → ∀ token ∈ row.tokens, f token = token) :
    listing.mapTokensOf index f = listing := by
  refine congrArg (Listing.mk · listing.selected) (modify_eq_self_of_fixed ?_)
  intro row found
  refine congrArg (Row.mk row.number · row.isSelected) ?_
  rw [List.map_congr_left (fixed row found), List.map_id']

/-- Emphasizing the selected row changes nothing if all of it is emphasized. -/
theorem SingleSelection.emphasize_eq_self {listing : Listing} (single : listing.SingleSelection)
    (emphasized : (listing.row? listing.selected).any (·.allTagged .selected) = true) :
    ((listing.mapTokensOf listing.selected (·.removeTag .selected)).pointTo
      listing.selected).mapTokensOf listing.selected (·.addTag .selected) = listing := by
  have plain : (listing.mapTokensOf listing.selected (·.removeTag .selected)).SingleSelection :=
    single.mapTokensOf _ fun token => Token.text_removeTag token _
  have unmoved := plain.pointTo_selected
  rw [show (listing.mapTokensOf listing.selected (·.removeTag .selected)).selected =
    listing.selected from rfl] at unmoved
  rw [unmoved, mapTokensOf_mapTokensOf]
  apply mapTokensOf_eq_self
  intro row found token member
  rw [found, Option.any_some, Row.allTagged, List.all_eq_true] at emphasized
  exact Token.addTag_removeTag (Token.hasTag_iff.1 (emphasized token member))

theorem allTagged_mapTokensOf {listing : Listing} {index : Nat}
    (bound : index < listing.rowCount) (tag : Tag) :
    ((listing.mapTokensOf index (·.addTag tag)).row? index).any (·.allTagged tag) = true := by
  rw [row?_mapTokensOf, row?, List.getElem?_eq_getElem bound, Option.map_some, if_pos rfl,
    Option.any_some, Row.allTagged, List.all_eq_true]
  intro token member
  obtain ⟨old, -, rfl⟩ := List.mem_map.1 member
  exact Token.hasTag_iff.2 (Token.mem_tags_addTag.2 (Or.inl rfl))

theorem hasTag_mark_iff {listing : Listing} {tokens : Highlight} {q : Position} {tag : Tag} :
    (listing.mark tokens).hasTag q tag = true ↔
      listing.hasTag q tag = true ∨
        (tag = .related ∧ q ∈ tokens ∧ (listing.token? q).isSome = true) := by
  simp only [hasTag, mark, token?_mapTokensIn]
  cases listing.token? q with
  | none => simp
  | some token => by_cases member : q ∈ tokens <;> simp [member, or_comm]

theorem mark_eq_self_iff {listing : Listing} {tokens : Highlight}
    (occupied : ∀ q ∈ tokens, (listing.token? q).isSome = true) :
    listing.mark tokens = listing ↔ ∀ q ∈ tokens, listing.hasTag q .related = true := by
  constructor
  · intro same q member
    rw [← same]
    exact hasTag_mark_iff.2 (Or.inr ⟨rfl, member, occupied q member⟩)
  · intro marked
    refine mapTokensIn_eq_self ?_
    intro q member token found
    have carried := marked q member
    rw [hasTag, found, Option.any_some, Token.hasTag_iff] at carried
    exact Token.addTag_eq_self_iff.2 carried

end Listing

namespace Session

variable {s : Session} {index : Nat} {w : Workspace}

theorem isEmphasized_of_same (done : s.workspace.emphasizeRow index = some w)
    (same : w.listing = s.listing) : s.isEmphasized index = true := by
  obtain ⟨⟨fits, -⟩, rfl⟩ := Workspace.emphasizeRow_eq_some_iff.1 done
  have here : index = s.listing.selected := congrArg Listing.selected same
  have all : (s.listing.row? index).any (·.allTagged .selected) = true := by
    rw [← same]
    refine Listing.allTagged_mapTokensOf ?_ .selected
    rw [Listing.rowCount_pointTo, Listing.rowCount_mapTokensOf]
    exact fits
  rw [isEmphasized, all, Bool.and_true, beq_iff_eq]
  exact here

theorem same_of_isEmphasized (single : s.listing.SingleSelection)
    (done : s.workspace.emphasizeRow index = some w) (emphasized : s.isEmphasized index = true) :
    w.listing = s.listing := by
  obtain ⟨-, rfl⟩ := Workspace.emphasizeRow_eq_some_iff.1 done
  obtain ⟨same, all⟩ := Bool.and_eq_true_iff.1 emphasized
  rw [beq_iff_eq] at same
  rw [same] at all ⊢
  exact single.emphasize_eq_self all

end Session

/-! ## Quiet steps and reports -/

def Delivery.notice? : Delivery → Option (String × Change)
  | .change name record => some (name, record)
  | .click _ _ => none

def Step.notices (step : Step) : List (String × Change) :=
  step.deliveries.filterMap Delivery.notice?

/-- Whether a request was refused or ignored, or was a click. -/
def Reply.isUneventful : Reply → Bool
  | .applied accepted => !accepted
  | .refused _ => true
  | .pointed (.highlighted _) | .pointed (.cleared _) => false
  | .pointed (.clicked _) | .pointed .ignored => true
  | .done => false

namespace Session

structure Quiet (s : Session) (step : Step) : Prop where
  version : step.session.version = s.version
  listing : step.session.listing = s.listing
  silent : step.notices = []

/-- The version is one higher, and every subscriber is told so once, in the order of subscription,
by the same record. -/
structure Reports (s : Session) (step : Step) (record : Change) : Prop where
  version : step.session.version = s.version + 1
  oldVersion : record.oldVersion = s.version
  newVersion : record.newVersion = s.version + 1
  told : step.notices = s.subscribers.map fun name => (name, record)

/-- The commands that are reported: what they make of the workspace, and which kind of change and
which rows the report names. -/
inductive Reported (s : Session) : Command → Workspace → ChangeKind → RowSpan → Prop where
  | insert {w : Workspace} (index : Nat) (snippets : List Snippet)
      (done : s.workspace.insertRow index snippets = some w) :
      Reported s (.insert index snippets) w .rows ⟨index, w.listing.rowCount⟩
  | insertJson {w : Workspace} (index : Nat) (text : String) {snippets : List Snippet}
      (read : Snippet.listOfJson text = .ok snippets)
      (done : s.workspace.insertRow index snippets = some w) :
      Reported s (.insertJson index text) w .rows ⟨index, w.listing.rowCount⟩
  | delete {w : Workspace} (index : Nat) (done : s.workspace.deleteRow index = some w) :
      Reported s (.delete index) w .rows
        ⟨min (index - 1) w.listing.rowCount, w.listing.rowCount⟩
  | select {w : Workspace} (index : Nat) (done : s.workspace.selectRow index = some w)
      (moved : index ≠ s.listing.selected) :
      Reported s (.select index) w .selection (.between s.listing.selected index)
  | emphasize {w : Workspace} (index : Nat) (done : s.workspace.emphasizeRow index = some w)
      (fresh : s.isEmphasized index = false) :
      Reported s (.emphasize index) w .selection (.between s.listing.selected index)
  | enter {rows : RowSpan} (p : Position) (occupied : (s.listing.token? p).isSome = true)
      (spanned : RowSpan.ofHighlight? (s.listing.related p) = some rows) :
      Reported s (.point (.enter p)) (s.workspace.setListing (s.listing.mark (s.listing.related p)))
        .highlight rows
  | leave {rows : RowSpan} (p : Position) (occupied : (s.listing.token? p).isSome = true)
      (spanned : RowSpan.ofHighlight? (s.listing.related p) = some rows) :
      Reported s (.point (.leave p))
        (s.workspace.setListing (s.listing.unmark (s.listing.related p))) .highlight rows

inductive Accounted (s : Session) (command : Command) (step : Step) : Prop where
  | quiet (unreported : s.Quiet step)
  | reported {kind : ChangeKind} {rows : RowSpan}
      (change : s.Reported command step.session.workspace kind rows)
      (told : s.Reports step ⟨kind, s.version, s.version + 1, rows⟩)

theorem notices_notify (s : Session) (kind : ChangeKind) (rows : RowSpan) :
    (s.notify kind rows).2.filterMap Delivery.notice? =
      s.subscribers.map fun name => (name, ⟨kind, s.version, s.version + 1, rows⟩) := by
  rw [notify, List.filterMap_map, ← List.filterMap_eq_map]
  rfl

theorem commit_accounted {s : Session} {command : Command} {edited : Option Workspace}
    {change : Workspace → Option (ChangeKind × RowSpan)}
    (unreported : ∀ w, edited = some w → change w = none → w.listing = s.listing)
    (reported : ∀ w kind rows, edited = some w → change w = some (kind, rows) →
      s.Reported command w kind rows) :
    s.Accounted command (s.commit edited change) := by
  cases edited with
  | none => exact .quiet ⟨rfl, rfl, rfl⟩
  | some w =>
    simp only [commit]
    cases news : change w with
    | none => exact .quiet ⟨rfl, unreported w rfl news, rfl⟩
    | some named =>
      obtain ⟨kind, rows⟩ := named
      exact .reported (reported w kind rows rfl news) ⟨rfl, rfl, rfl, notices_notify _ _ _⟩

theorem quiet_point {s : Session} {signal : Pointer.Signal}
    (untouched : RowSpan.ofHighlight? (s.listing.point signal).2.touched = none)
    (same : (s.listing.point signal).1 = s.listing) : s.Quiet (s.point signal) := by
  simp only [point, untouched]
  refine ⟨rfl, same, ?_⟩
  simp [Step.notices, List.filterMap_map, Function.comp_def, Delivery.notice?]

theorem reports_point {s : Session} {signal : Pointer.Signal} {rows : RowSpan}
    (spanned : RowSpan.ofHighlight? (s.listing.point signal).2.touched = some rows) :
    s.Reports (s.point signal) ⟨.highlight, s.version, s.version + 1, rows⟩ := by
  simp only [point, spanned]
  refine ⟨rfl, rfl, rfl, ?_⟩
  rw [Step.notices, List.filterMap_append, notices_notify]
  simp [List.filterMap_map, Function.comp_def, Delivery.notice?]

theorem visit_accounted {s : Session} {signal : Pointer.Signal} {tokens : Highlight}
    {f : Token → Token} {outcome : Pointer.Outcome}
    (result : s.listing.point signal = (s.listing.mapTokensIn tokens f, outcome))
    (touched : outcome.touched = tokens)
    (reported : ∀ rows, RowSpan.ofHighlight? tokens = some rows →
      s.Reported (.point signal) (s.workspace.setListing (s.listing.mapTokensIn tokens f))
        .highlight rows) :
    s.Accounted (.point signal) (s.point signal) := by
  cases spanned : RowSpan.ofHighlight? tokens with
  | none =>
    refine .quiet (quiet_point ?_ ?_)
    · rw [result, touched]
      exact spanned
    · rw [result]
      apply Listing.mapTokensIn_eq_self
      intro q member
      exact absurd member (RowSpan.ofHighlight?_eq_none_iff.1 spanned q)
  | some rows =>
    have touchedRows : RowSpan.ofHighlight? (s.listing.point signal).2.touched = some rows := by
      rw [result, touched]
      exact spanned
    refine .reported ?_ (reports_point touchedRows)
    rw [workspace_point, result]
    exact reported rows spanned

theorem point_accounted (s : Session) (signal : Pointer.Signal) :
    s.Accounted (.point signal) (s.point signal) := by
  cases signal with
  | enter p =>
    by_cases occupied : (s.listing.token? p).isSome = true
    · exact visit_accounted (if_pos occupied) rfl fun rows spanned => .enter p occupied spanned
    · have missed : s.listing.point (.enter p) = (s.listing, .ignored) := if_neg occupied
      refine .quiet (quiet_point ?_ ?_) <;> rw [missed]
      rfl
  | leave p =>
    by_cases occupied : (s.listing.token? p).isSome = true
    · exact visit_accounted (if_pos occupied) rfl fun rows spanned => .leave p occupied spanned
    · have missed : s.listing.point (.leave p) = (s.listing, .ignored) := if_neg occupied
      refine .quiet (quiet_point ?_ ?_) <;> rw [missed]
      rfl
  | click p =>
    refine .quiet (quiet_point ?_ ?_)
    · rw [Listing.point]
      split <;> rfl
    · rw [Listing.point]
      split <;> rfl

/-- What a command can do: nothing that shows, or one of the reported changes. -/
theorem perform_accounted {s : Session} (single : s.listing.SingleSelection) (command : Command) :
    s.Accounted command (s.perform command) := by
  cases command with
  | insert index snippets =>
    rw [perform, insertRow]
    apply commit_accounted
    · intro w _ silent
      cases silent
    · intro w kind rows done news
      cases news
      exact .insert index snippets done
  | insertJson index text =>
    rw [perform, insertRowJson]
    split
    · rename_i snippets read
      apply commit_accounted
      · intro w _ silent
        cases silent
      · intro w kind rows done news
        cases news
        exact .insertJson index text read done
    · exact .quiet ⟨rfl, rfl, rfl⟩
  | delete index =>
    rw [perform, deleteRow]
    apply commit_accounted
    · intro w _ silent
      cases silent
    · intro w kind rows done news
      cases news
      exact .delete index done
  | select index =>
    rw [perform, selectRow]
    apply commit_accounted
    · intro w done silent
      obtain ⟨-, rfl⟩ := Workspace.selectRow_eq_some_iff.1 done
      by_cases same : index = s.listing.selected
      · rw [same]
        exact single.pointTo_selected
      · rw [if_neg same] at silent
        cases silent
    · intro w kind rows done news
      obtain ⟨moved, news⟩ := Option.ite_none_left_eq_some.1 news
      cases news
      exact .select index done moved
  | emphasize index =>
    rw [perform, emphasizeRow]
    apply commit_accounted
    · intro w done silent
      by_cases emphasized : s.isEmphasized index = true
      · exact same_of_isEmphasized single done emphasized
      · rw [if_neg emphasized] at silent
        cases silent
    · intro w kind rows done news
      obtain ⟨fresh, news⟩ := Option.ite_none_left_eq_some.1 news
      cases news
      exact .emphasize index done (Bool.eq_false_iff.2 fresh)
  | point signal => exact s.point_accounted signal
  | subscribe name => exact .quiet ⟨rfl, rfl, rfl⟩
  | listen name => exact .quiet ⟨rfl, rfl, rfl⟩

theorem Reported.eventful {s : Session} {command : Command} {w : Workspace} {kind : ChangeKind}
    {rows : RowSpan} (change : s.Reported command w kind rows) :
    (s.perform command).reply.isUneventful = false := by
  cases change with
  | insert index snippets done =>
    rw [perform, insertRow, reply_commit, done]
    rfl
  | insertJson index text read done =>
    rw [perform, insertRowJson, read]
    dsimp only
    rw [insertRow, reply_commit, done]
    rfl
  | delete index done =>
    rw [perform, deleteRow, reply_commit, done]
    rfl
  | select index done moved =>
    rw [perform, selectRow, reply_commit, done]
    rfl
  | emphasize index done fresh =>
    rw [perform, emphasizeRow, reply_commit, done]
    rfl
  | enter p occupied spanned =>
    rw [perform, reply_point, Listing.point, if_pos occupied]
    rfl
  | leave p occupied spanned =>
    rw [perform, reply_point, Listing.point, if_pos occupied]
    rfl

/-! ## Runs -/

@[simp] theorem subscribers_commit (s : Session) (edited : Option Workspace)
    (change : Workspace → Option (ChangeKind × RowSpan)) :
    (s.commit edited change).session.subscribers = s.subscribers := by
  cases edited with
  | none => rfl
  | some w =>
    simp only [commit]
    split <;> rfl

@[simp] theorem subscribers_point (s : Session) (signal : Pointer.Signal) :
    (s.point signal).session.subscribers = s.subscribers := by
  simp only [point]
  split <;> rfl

theorem subscribers_perform (s : Session) (command : Command) :
    ∃ more, (s.perform command).session.subscribers = s.subscribers ++ more := by
  cases command with
  | subscribe name => exact ⟨[name], rfl⟩
  | listen name => exact ⟨[], (List.append_nil _).symm⟩
  | point signal => exact ⟨[], by rw [perform, subscribers_point, List.append_nil]⟩
  | insertJson index text =>
    refine ⟨[], ?_⟩
    rw [perform, insertRowJson, List.append_nil]
    split
    · exact subscribers_commit _ _ _
    · rfl
  | insert index snippets => exact ⟨[], (subscribers_commit _ _ _).trans (List.append_nil _).symm⟩
  | delete index => exact ⟨[], (subscribers_commit _ _ _).trans (List.append_nil _).symm⟩
  | select index => exact ⟨[], (subscribers_commit _ _ _).trans (List.append_nil _).symm⟩
  | emphasize index => exact ⟨[], (subscribers_commit _ _ _).trans (List.append_nil _).symm⟩

/-- What the subscriber at a place in the order of subscription is told in the course of steps. -/
def inbox (steps : List Step) (place : Nat) : List (String × Change) :=
  steps.filterMap (·.notices[place]?)

theorem inbox_cons (step : Step) (steps : List Step) (place : Nat) :
    inbox (step :: steps) place = (step.notices[place]?).toList ++ inbox steps place := by
  rw [inbox, List.filterMap_cons]
  cases step.notices[place]? <;> rfl

theorem version_run_le {s : Session} (single : s.listing.SingleSelection)
    (commands : List Command) : (s.run commands).version ≤ s.version + commands.length := by
  induction commands generalizing s with
  | nil => exact Nat.le_refl _
  | cons command commands ih =>
    have later := ih (singleSelection_perform single command)
    rw [run, List.length_cons]
    cases perform_accounted single command with
    | quiet unreported =>
      rw [unreported.version] at later
      omega
    | reported change told =>
      rw [told.version] at later
      omega

/-- A subscriber is told of every version from the one at which the steps begin. -/
theorem inbox_trace {s : Session} (single : s.listing.SingleSelection) {place : Nat} {name : String}
    (joined : s.subscribers[place]? = some name) (commands : List Command) :
    s.version ≤ (s.run commands).version ∧
      (inbox (s.trace commands) place).map
          (fun notice => (notice.1, notice.2.oldVersion, notice.2.newVersion)) =
        (List.range' s.version ((s.run commands).version - s.version)).map
          fun version => (name, version, version + 1) := by
  induction commands generalizing s with
  | nil =>
    refine ⟨Nat.le_refl _, ?_⟩
    rw [run, Nat.sub_self]
    rfl
  | cons command commands ih =>
    obtain ⟨more, members⟩ := s.subscribers_perform command
    have stays : (s.perform command).session.subscribers[place]? = some name := by
      rw [members, List.getElem?_append_left (List.getElem?_eq_some_iff.1 joined).1]
      exact joined
    obtain ⟨later, told⟩ := ih (singleSelection_perform single command) stays
    rw [run, trace, inbox_cons]
    cases perform_accounted single command with
    | quiet unreported =>
      rw [unreported.version] at later told
      rw [unreported.silent]
      exact ⟨later, told⟩
    | @reported kind rows change reports =>
      rw [reports.version] at later told
      have head : (s.perform command).notices[place]? =
          some (name, ⟨kind, s.version, s.version + 1, rows⟩) := by
        rw [reports.told, List.getElem?_map, joined]
        rfl
      have count : (run (s.perform command).session commands).version - s.version =
          (run (s.perform command).session commands).version - (s.version + 1) + 1 := by
        omega
      rw [head, count, List.range'_succ, Option.toList_some, List.singleton_append, List.map_cons,
        List.map_cons, told]
      exact ⟨by omega, rfl⟩

/-- Every command goes unreported or is reported to every subscriber under the next version; a
change of the listing never goes unreported, and a refusal, a click or a signal to nowhere always
does.  Whoever subscribes is told of each version after that, one by one.  There are at most as
many versions as commands. -/
theorem reports_gap_free (settings : Settings) (history : List Command) :
    let s := (new settings).run history
    s.version ≤ history.length ∧
      (∀ command,
        (s.Quiet (s.perform command) ∨ ∃ record, s.Reports (s.perform command) record) ∧
        ((s.perform command).session.listing ≠ s.listing →
          ∃ record, s.Reports (s.perform command) record) ∧
        ((s.perform command).reply.isUneventful = true → s.Quiet (s.perform command))) ∧
      ∀ name later,
        s.version ≤ ((s.subscribe name).run later).version ∧
        (inbox ((s.subscribe name).trace later) s.subscribers.length).map
            (fun notice => (notice.1, notice.2.oldVersion, notice.2.newVersion)) =
          (List.range' s.version (((s.subscribe name).run later).version - s.version)).map
            fun version => (name, version, version + 1) := by
  intro s
  have single : s.listing.SingleSelection :=
    singleSelection_kept (singleSelection_new settings) history
  refine ⟨?_, ?_, ?_⟩
  · have bound := version_run_le (singleSelection_new settings) history
    rwa [show (new settings).version = 0 from rfl, Nat.zero_add] at bound
  · intro command
    cases perform_accounted single command with
    | quiet unreported =>
      exact ⟨Or.inl unreported, fun differs => absurd unreported.listing differs,
        fun _ => unreported⟩
    | reported change told =>
      refine ⟨Or.inr ⟨_, told⟩, fun _ => ⟨_, told⟩, fun uneventful => ?_⟩
      rw [change.eventful] at uneventful
      cases uneventful
  · intro name later
    refine inbox_trace (s := s.subscribe name) single ?_ later
    exact List.getElem?_concat_length

end Session

/-! ## Reports without a change -/

/-- The pointer enters a token whose related tokens are all marked, or leaves one of whose related
tokens none is. -/
def Listing.IdleVisit (listing : Listing) : Command → Prop
  | .point (.enter p) => (listing.token? p).isSome = true ∧
      ∀ q ∈ listing.related p, listing.hasTag q .related = true
  | .point (.leave p) => (listing.token? p).isSome = true ∧
      ∀ q ∈ listing.related p, listing.hasTag q .related = false
  | _ => False

namespace Session

theorem Reported.idleVisit_of_same {s : Session} {command : Command} {w : Workspace}
    {kind : ChangeKind} {rows : RowSpan} (change : s.Reported command w kind rows)
    (same : w.listing = s.listing) : s.listing.IdleVisit command := by
  have sameCount : w.listing.rowCount = s.workspace.listing.rowCount :=
    congrArg Listing.rowCount same
  cases change with
  | insert index snippets done =>
    have longer := Workspace.rowCount_insertRow done
    omega
  | insertJson index text read done =>
    have longer := Workspace.rowCount_insertRow done
    omega
  | delete index done =>
    have shorter := Workspace.rowCount_deleteRow done
    omega
  | select index done moved =>
    obtain ⟨-, rfl⟩ := Workspace.selectRow_eq_some_iff.1 done
    exact absurd (congrArg Listing.selected same) moved
  | emphasize index done fresh =>
    rw [isEmphasized_of_same done same] at fresh
    cases fresh
  | enter p occupied spanned =>
    refine ⟨occupied, (Listing.mark_eq_self_iff ?_).1 same⟩
    intro q member
    exact Listing.isSome_token?_of_mem_related member
  | leave p occupied spanned => exact ⟨occupied, Listing.unmark_eq_self_iff.1 same⟩

theorem version_point_of_occupied {s : Session} (coded : s.listing.AllCode) {p : Position}
    (occupied : (s.listing.token? p).isSome = true) {signal : Pointer.Signal}
    (touched : (s.listing.point signal).2.touched = s.listing.related p) :
    (s.point signal).session.version = s.version + 1 := by
  obtain ⟨q, member⟩ := Listing.exists_mem_related coded occupied
  cases spanned : RowSpan.ofHighlight? (s.listing.related p) with
  | none => exact absurd member (RowSpan.ofHighlight?_eq_none_iff.1 spanned q)
  | some rows =>
    rw [← touched] at spanned
    exact (reports_point spanned).version

theorem idle_report_of_idleVisit {s : Session} (coded : s.listing.AllCode) {command : Command}
    (idle : s.listing.IdleVisit command) :
    (s.perform command).session.listing = s.listing ∧
      (s.perform command).session.version = s.version + 1 := by
  cases command with
  | point signal =>
    cases signal with
    | enter p =>
      obtain ⟨occupied, marked⟩ := idle
      have outcome : s.listing.point (.enter p) =
          (s.listing.mark (s.listing.related p), .highlighted (s.listing.related p)) :=
        if_pos occupied
      constructor
      · rw [perform, listing_point, outcome]
        exact (Listing.mark_eq_self_iff fun q => Listing.isSome_token?_of_mem_related).2 marked
      · refine version_point_of_occupied coded occupied ?_
        rw [outcome]
        rfl
    | leave p =>
      obtain ⟨occupied, unmarked⟩ := idle
      have outcome : s.listing.point (.leave p) =
          (s.listing.unmark (s.listing.related p), .cleared (s.listing.related p)) :=
        if_pos occupied
      constructor
      · rw [perform, listing_point, outcome]
        exact Listing.unmark_eq_self_iff.2 unmarked
      · refine version_point_of_occupied coded occupied ?_
        rw [outcome]
        rfl
    | click p => exact idle.elim
  | _ => exact idle.elim

/-- A command that leaves the listing as it is goes unreported, unless it is an idle visit of the
pointer; an idle visit is always reported. -/
theorem idle_report_iff (settings : Settings) (history : List Command) (command : Command) :
    let s := (new settings).run history
    let step := s.perform command
    step.session.listing = s.listing ∧
        ¬(step.session.version = s.version ∧ step.notices = []) ↔
      s.listing.IdleVisit command := by
  intro s step
  have single : s.listing.SingleSelection :=
    singleSelection_kept (singleSelection_new settings) history
  constructor
  · rintro ⟨same, loud⟩
    cases perform_accounted single command with
    | quiet unreported => exact absurd ⟨unreported.version, unreported.silent⟩ loud
    | reported change told => exact change.idleVisit_of_same same
  · intro idle
    obtain ⟨same, version⟩ := idle_report_of_idleVisit (allCode_run settings history) idle
    refine ⟨same, fun unreported => ?_⟩
    exact absurd (version.symm.trans unreported.1) (Nat.succ_ne_self _)

/-- Leaving a token that was never entered is reported under a new version. -/
theorem leave_unvisited_is_reported :
    let s := (new {}).run [.subscribe "host"]
    let step := s.perform (.point (.leave ⟨0, 0⟩))
    step.session.listing = s.listing ∧ step.session.version = s.version + 1 ∧
      step.notices = [("host", ⟨.highlight, s.version, s.version + 1, ⟨0, 1⟩⟩)] := by
  decide

end Session

end CodeRows
