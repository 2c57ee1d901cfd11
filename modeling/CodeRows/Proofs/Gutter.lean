import CodeRows.Display
import CodeRows.Proofs.Numbering
import CodeRows.Proofs.Selection
import Mathlib.Data.List.Basic

/-! # How wide the gutter is

Where its width is not set, the gutter is as wide as the widest line number.  The numbers of a
listing run upwards from the first one.  Decimal texts grow shorter on the way up to zero and longer
from there on, so none in between is longer than both the first and the last
(`Numeric.length_intText_le_max`), and it is these two that decide
(`Session.gutter_fits_first_and_last`). -/

set_option autoImplicit false

namespace CodeRows

/-! ## The length of a decimal text -/

namespace Numeric

theorem length_natChars_mono {m n : Nat} (order : m ≤ n) :
    (natChars m).length ≤ (natChars n).length := by
  have fits : n < 10 ^ (natChars n).length :=
    (Nat.length_toDigits_le_iff (by decide) Nat.length_toDigits_pos).1 (Nat.le_refl _)
  refine (Nat.length_toDigits_le_iff (by decide) Nat.length_toDigits_pos).2 ?_
  exact Nat.lt_of_le_of_lt order fits

theorem length_intText_of_nonneg {number : Int} (nonneg : 0 ≤ number) :
    (intText number).length = (natChars number.natAbs).length := by
  rw [intText, intChars, if_neg (Int.not_lt.2 nonneg), String.length_ofList]

theorem length_intText_of_neg {number : Int} (negative : number < 0) :
    (intText number).length = (natChars number.natAbs).length + 1 := by
  rw [intText, intChars, if_pos negative, String.length_ofList, List.length_cons]

/-- Below zero the lower end has the longer text, from zero on the upper end. -/
theorem length_intText_le_max {low number high : Int} (above : low ≤ number)
    (below : number ≤ high) :
    (intText number).length ≤ max (intText low).length (intText high).length := by
  rcases Int.lt_or_le number 0 with negative | nonneg
  · refine Nat.le_trans ?_ (Nat.le_max_left _ _)
    rw [length_intText_of_neg negative, length_intText_of_neg (Int.lt_of_le_of_lt above negative)]
    exact Nat.succ_le_succ (length_natChars_mono (by omega))
  · refine Nat.le_trans ?_ (Nat.le_max_right _ _)
    rw [length_intText_of_nonneg nonneg, length_intText_of_nonneg (Int.le_trans nonneg below)]
    exact length_natChars_mono (by omega)

theorem isDigit_or_minus_of_mem_intText {number : Int} {c : Char}
    (member : c ∈ (intText number).toList) : c.isDigit = true ∨ c = '-' := by
  have digits : ∀ n, c ∈ natChars n → c.isDigit = true := fun n =>
    Nat.isDigit_of_mem_toDigits (by decide) (by decide)
  rw [intText, String.toList_ofList, intChars] at member
  split at member
  · rcases List.mem_cons.1 member with minus | digit
    · exact Or.inr minus
    · exact Or.inl (digits _ digit)
  · exact Or.inl (digits _ member)

end Numeric

/-! ## The widest number of a listing -/

theorem foldl_max_le_iff {items : List Nat} {start bound : Nat} :
    items.foldl max start ≤ bound ↔ start ≤ bound ∧ ∀ item ∈ items, item ≤ bound := by
  induction items generalizing start with
  | nil => simp
  | cons item items ih => rw [List.foldl_cons, ih, Nat.max_le, List.forall_mem_cons, and_assoc]

namespace Display

theorem fittedWidthBy_eq (measure : String → Nat) (listing : Listing) :
    fittedWidthBy measure listing =
      (listing.rows.filterMap fun row =>
        (row.text? Position.numberColumn).map measure).foldl max 0 := by
  simp only [fittedWidthBy, Row.text?, Option.map_map]
  rfl

theorem fittedWidthBy_le_iff {measure : String → Nat} {listing : Listing} {bound : Nat} :
    fittedWidthBy measure listing ≤ bound ↔
      ∀ row ∈ listing.rows, ∀ text, row.text? Position.numberColumn = some text →
        measure text ≤ bound := by
  simp only [fittedWidthBy_eq, foldl_max_le_iff, Nat.zero_le, true_and, List.mem_filterMap,
    Option.map_eq_some_iff]
  constructor
  · intro all row member text shown
    exact all _ ⟨row, member, text, shown, rfl⟩
  · rintro all width ⟨row, member, text, shown, rfl⟩
    exact all row member text shown

theorem fittedWidthBy_congr {measure other : String → Nat} {listing : Listing}
    (same : ∀ row ∈ listing.rows, ∀ text, row.text? Position.numberColumn = some text →
      measure text = other text) :
    fittedWidthBy measure listing = fittedWidthBy other listing := by
  rw [fittedWidthBy_eq, fittedWidthBy_eq]
  refine congrArg (List.foldl max 0) (List.filterMap_congr fun row member => ?_)
  cases shown : row.text? Position.numberColumn with
  | none => rfl
  | some text => exact congrArg some (same row member text shown)

end Display

/-! ## The numbers of a session -/

namespace Settings

theorem toInt_numberAt_zero (settings : Settings) :
    (settings.numberAt 0).toInt = settings.firstNumber.toInt := by
  have small : settings.firstNumber.toInt < 2 ^ 63 := Int64.toInt_lt _
  rw [toInt_numberAt settings (by decide)]
  omega

theorem toInt_numberAt_last (settings : Settings) {count : Nat} (nonempty : 1 ≤ count)
    (small : count < 2 ^ 63) :
    (settings.numberAt (count - 1)).toInt =
      min (settings.firstNumber.toInt + count - 1) (2 ^ 63 - 1) := by
  rw [toInt_numberAt settings (Nat.lt_of_le_of_lt (Nat.sub_le count 1) small)]
  -- There is at least one row, so the difference of the indices is not cut off.
  omega

theorem toInt_numberAt_mono (settings : Settings) {index later : Nat} (order : index ≤ later)
    (small : later < 2 ^ 63) :
    (settings.numberAt index).toInt ≤ (settings.numberAt later).toInt := by
  rw [toInt_numberAt settings (Nat.lt_of_le_of_lt order small), toInt_numberAt settings small]
  omega

end Settings

namespace Workspace

variable {w : Workspace}

theorem Numbered.text_eq (numbered : w.Numbered) (on : w.settings.lineNumbers = true) {index : Nat}
    {row : Row} (found : w.listing.row? index = some row) :
    row.text? Position.numberColumn =
      some (Numeric.intText (w.settings.numberAt index).toInt) := by
  rw [(numbered index row found).text, Settings.lineNumber, if_pos on]
  rfl

theorem Numbered.text_eq_empty (numbered : w.Numbered) (off : w.settings.lineNumbers = false)
    {row : Row} (member : row ∈ w.listing.rows) :
    row.text? Position.numberColumn = some "" := by
  obtain ⟨index, found⟩ := Listing.row?_of_mem_rows member
  rw [(numbered index row found).text, Settings.lineNumber, off]
  rfl

/-- Whatever the settings, a number slot shows digits and minus signs only. -/
theorem Numbered.isDigit_or_minus (numbered : w.Numbered) {row : Row}
    (member : row ∈ w.listing.rows) {text : String}
    (shown : row.text? Position.numberColumn = some text) :
    ∀ c ∈ text.toList, c.isDigit = true ∨ c = '-' := by
  intro c inside
  obtain ⟨index, found⟩ := Listing.row?_of_mem_rows member
  cases on : w.settings.lineNumbers with
  | true =>
    rw [numbered.text_eq on found, Option.some.injEq] at shown
    rw [← shown] at inside
    exact Numeric.isDigit_or_minus_of_mem_intText inside
  | false =>
    rw [numbered.text_eq_empty on member, Option.some.injEq] at shown
    rw [← shown] at inside
    cases inside

theorem Numbered.fittedWidth_eq_max (numbered : w.Numbered) (on : w.settings.lineNumbers = true)
    (nonempty : 1 ≤ w.listing.rowCount) (small : w.listing.rowCount < 2 ^ 63) :
    Display.fittedWidthBy String.length w.listing =
      max (Numeric.intText (w.settings.numberAt 0).toInt).length
        (Numeric.intText (w.settings.numberAt (w.listing.rowCount - 1)).toInt).length := by
  have lastIndex : w.listing.rowCount - 1 < w.listing.rowCount := Nat.sub_one_lt_of_lt nonempty
  apply Nat.le_antisymm
  · refine Display.fittedWidthBy_le_iff.2 fun row member text shown => ?_
    obtain ⟨index, found⟩ := Listing.row?_of_mem_rows member
    have inside : index < w.listing.rowCount := (List.getElem?_eq_some_iff.1 found).1
    rw [numbered.text_eq on found, Option.some.injEq] at shown
    rw [← shown]
    exact Numeric.length_intText_le_max
      (w.settings.toInt_numberAt_mono (Nat.zero_le _) (Nat.lt_trans inside small))
      (w.settings.toInt_numberAt_mono (Nat.le_sub_one_of_lt inside) (Nat.lt_trans lastIndex small))
  · have reached : ∀ index < w.listing.rowCount,
        (Numeric.intText (w.settings.numberAt index).toInt).length ≤
          Display.fittedWidthBy String.length w.listing := by
      intro index inside
      have found : w.listing.row? index = some _ := List.getElem?_eq_getElem inside
      exact Display.fittedWidthBy_le_iff.1 (Nat.le_refl _) _ (Listing.mem_rows_of_row? found) _
        (numbered.text_eq on found)
    exact Nat.max_le.2 ⟨reached 0 nonempty, reached _ lastIndex⟩

theorem Numbered.fittedWidth_eq_zero (numbered : w.Numbered)
    (off : w.settings.lineNumbers = false) :
    Display.fittedWidthBy String.length w.listing = 0 := by
  rw [← Nat.le_zero, Display.fittedWidthBy_le_iff]
  intro row member text shown
  rw [numbered.text_eq_empty off member, Option.some.injEq] at shown
  rw [← shown]
  exact Nat.le_refl 0

end Workspace

namespace Session

/-- A gutter whose width is not set is as wide as the longer of the first and the last line number
of fewer than `2 ^ 63` rows, and no number is wider; without numbers it has no width.  Any way to
measure texts that gives each digit and the minus sign a width of one comes to the same. -/
theorem gutter_fits_first_and_last (settings : Settings) (history : List Command)
    (fitted : settings.gutterWidth.isAtLeastZero = false) :
    let s := (new settings).run history
    let width := (Display.ofListing s.listing s.settings).gutterWidth
    let first := settings.firstNumber.toInt
    let last := min (first + s.listing.rowCount - 1) (2 ^ 63 - 1)
    (settings.lineNumbers = true →
      (s.listing.rowCount < 2 ^ 63 →
        width = max (toString first).length (toString last).length) ∧
      ∀ row ∈ s.listing.rows, ∀ text, row.text? Position.numberColumn = some text →
        text.length ≤ width) ∧
    (settings.lineNumbers = false → width = 0) ∧
    ∀ measure : String → Nat,
      (∀ text : String, (∀ c ∈ text.toList, c.isDigit = true ∨ c = '-') →
        measure text = text.length) →
      Display.fittedWidthBy measure s.listing = width := by
  intro s width first last
  have numbered : s.workspace.Numbered := numbered_run settings history
  have same : s.workspace.settings = settings := settings_run history (new settings)
  have nonempty : 1 ≤ s.workspace.listing.rowCount :=
    (singleSelection_kept (singleSelection_new settings) history).nonempty
  have widest : width = Display.fittedWidthBy String.length s.listing := by
    show Display.gutterWidthOf s.listing s.workspace.settings = _
    rw [Display.gutterWidthOf, same, fitted]
    rfl
  refine ⟨fun on => ⟨fun small => ?_, ?_⟩, fun off => ?_, fun measure cells => ?_⟩
  · have few : s.workspace.listing.rowCount < 2 ^ 63 := small
    have ends := numbered.fittedWidth_eq_max (same ▸ on) nonempty few
    rw [same, settings.toInt_numberAt_zero, settings.toInt_numberAt_last nonempty few,
      Numeric.intText_eq_toString, Numeric.intText_eq_toString] at ends
    exact widest.trans ends
  · exact Display.fittedWidthBy_le_iff.1 (Nat.le_of_eq widest.symm)
  · rw [widest]
    exact numbered.fittedWidth_eq_zero (same ▸ off)
  · rw [widest]
    apply Display.fittedWidthBy_congr
    intro row member text shown
    exact cells text (numbered.isDigit_or_minus member shown)

/-- Three rows from minus ten on, where the width is no number: the first one decides.  A measure
that gives blanks and control characters no width agrees. -/
theorem gutter_fits_first_and_last_below_zero :
    let settings : Settings := { firstNumber := -10, gutterWidth := ⟨0x7ff8000000000000⟩ }
    let s := (new settings).run [.insert 0 [⟨"a", none⟩], .insert 1 []]
    let measure : String → Nat := fun text =>
      (text.toList.filter fun c => ' '.toNat < c.toNat).length
    settings.gutterWidth.isAtLeastZero = false ∧
      (Display.ofListing s.listing s.settings).gutterWidth = 3 ∧
      Display.fittedWidthBy measure s.listing = 3 := by
  intro settings s measure
  have fitted : settings.gutterWidth.isAtLeastZero = false := by decide
  obtain ⟨numbers, -, measured⟩ := gutter_fits_first_and_last settings
    [.insert 0 [⟨"a", none⟩], .insert 1 []] fitted
  have three : (Display.ofListing s.listing s.settings).gutterWidth = 3 :=
    ((numbers rfl).1 (by decide)).trans (by decide)
  refine ⟨fitted, three, (measured measure fun text chars => ?_).trans three⟩
  have kept : text.toList.filter (fun c => ' '.toNat < c.toNat) = text.toList := by
    refine List.filter_eq_self.2 fun c member => ?_
    rcases chars c member with digit | rfl
    · have fromZero : '0'.toNat ≤ c.toNat := (Char.isDigit_iff_toNat.1 digit).1
      exact decide_eq_true (Nat.lt_of_lt_of_le (by decide) fromZero)
    · decide
  rw [show measure text = _ from congrArg List.length kept, String.length_toList]

end Session

end CodeRows
