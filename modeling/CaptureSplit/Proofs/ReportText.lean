/-
CaptureSplit.Proofs.ReportText — reports by their lines.

The rows of a report are the lines that have `header` lines before them and
`footer` lines behind (`getElem?_rows_iff`), so they are cut out between two
places of the text, in order (`slicedRows?_eq`), and there are as many as are
counted (`rowCount_eq`). A text with fewer lines than stand around the rows
has none.

Lines joined by newlines are the lines of the text (`lines_intercalate`), so a
report put together from the lines around and the rows between gives the rows
back (`rows_of_lines_eq`). `Shows header rows report` says that a report is
printed like this, with one line and the end of the text behind the rows: of
such a report the conversation layout counts the rows (`rowCount_of_shows`) and
the follow layout gives them back (`rows_of_shows`), whatever the other lines
say.
-/
import CaptureSplit.Report
import CaptureSplit.Proofs.Splitting

namespace CaptureSplit.Report

/-! ## Places of rows -/

/-- The elements from one place up to another, if the list has such places and
they are in this order. -/
def slice? {α : Type} (start stop : Nat) (l : List α) : Option (List α) :=
  if start ≤ stop ∧ stop ≤ l.length then some ((l.take stop).drop start) else none

/-- The rows of a report, both ends of which are looked at before they are cut
out. -/
def slicedRows? (layout : Layout) (report : String) : Option (List String) :=
  let stop := (lines report).length - layout.footer.toNat
  if stop ≤ layout.header.toNat then some []
  else slice? layout.header.toNat stop (lines report)

section

variable {layout : Layout} {report : String}

theorem length_rows : (rows layout report).length =
    (lines report).length - layout.footer.toNat - layout.header.toNat := by
  rw [rows, List.length_drop, List.length_take, Nat.min_eq_left (Nat.sub_le _ _)]

/-- A row is a line with the lines of the header before it and those of the
footer behind it. -/
theorem getElem?_rows_iff {j : Nat} {row : String} : (rows layout report)[j]? = some row ↔
    (lines report)[layout.header.toNat + j]? = some row ∧
      layout.header.toNat + j + layout.footer.toNat < (lines report).length := by
  rw [rows, List.getElem?_drop, List.getElem?_take]
  by_cases hlt : layout.header.toNat + j < (lines report).length - layout.footer.toNat
  · have hbehind : layout.header.toNat + j + layout.footer.toNat < (lines report).length := by omega
    rw [if_pos hlt, and_iff_left hbehind]
  · have hbehind : ¬ layout.header.toNat + j + layout.footer.toNat < (lines report).length := by
      omega
    rw [if_neg hlt, iff_false_right (fun h => hbehind h.2)]
    simp

theorem slicedRows?_eq : slicedRows? layout report = some (rows layout report) := by
  simp only [slicedRows?]
  split
  · next hle =>
    have hnone : (rows layout report).length = 0 := by
      rw [length_rows]
      omega
    rw [List.eq_nil_of_length_eq_zero hnone]
  · next hgt => exact if_pos ⟨Nat.le_of_not_le hgt, Nat.sub_le _ _⟩

theorem rowCount_eq (h : layout.header.toNat + layout.footer.toNat < UInt64.size) :
    rowCount layout report = (rows layout report).length := by
  rw [rowCount, length_rows, UInt64.toNat_add, Nat.mod_eq_of_lt h]
  omega

theorem rows_eq_nil_iff : rows layout report = [] ↔
    (lines report).length ≤ layout.header.toNat + layout.footer.toNat := by
  rw [← List.length_eq_zero_iff, length_rows]
  omega

/-- The lines between those of the header and those of the footer are the rows. -/
theorem rows_of_lines_eq {front shown back : List String}
    (hlines : lines report = front ++ shown ++ back) (hfront : front.length = layout.header.toNat)
    (hback : back.length = layout.footer.toNat) : rows layout report = shown := by
  have hstop : (front ++ shown ++ back).length - back.length = (front ++ shown).length := by
    rw [List.length_append, Nat.add_sub_cancel]
  simp only [rows, hlines, ← hfront, ← hback, hstop]
  rw [List.take_left, List.drop_left]

end

/-! ## Lines joined -/

/-- Lines with newlines between them, at least one, are the lines of the text. -/
theorem lines_intercalate {all : List String} (hne : all ≠ [])
    (h : ∀ line ∈ all, '\n' ∉ line.toList) : lines ("\n".intercalate all) = all := by
  have hparts : ∀ part ∈ all.map String.toList, '\n' ∉ part := List.forall_mem_map.mpr h
  have hsplit := List.splitOn_intercalate '\n' hparts (by simpa using hne)
  have htext : ("\n".intercalate all).toList = ['\n'].intercalate (all.map String.toList) :=
    String.toList_intercalate
  rw [lines, htext, hsplit]
  simp

/-- If the lines of the header and the footer are so few that their number is a
machine word, then of every report as many rows are counted as are cut out, and
both ends of the rows are within it: the rows are the lines with the header
before them and the footer behind. A report that is too short for both has
none. Of lines joined by newlines, the ones between those of the header and
those of the footer are the rows. -/
theorem rows_counted_and_cut (layout : Layout)
    (h : layout.header.toNat + layout.footer.toNat < UInt64.size) :
    (∀ report,
      rowCount layout report = (rows layout report).length ∧
      slicedRows? layout report = some (rows layout report) ∧
      (∀ j row, (rows layout report)[j]? = some row ↔
        (lines report)[layout.header.toNat + j]? = some row ∧
          layout.header.toNat + j + layout.footer.toNat < (lines report).length) ∧
      ((lines report).length ≤ layout.header.toNat + layout.footer.toNat →
        rows layout report = [] ∧ rowCount layout report = 0)) ∧
    ∀ front shown back : List String, front.length = layout.header.toNat →
      back.length = layout.footer.toNat → front ++ shown ++ back ≠ [] →
      (∀ line ∈ front ++ shown ++ back, '\n' ∉ line.toList) →
      let report := "\n".intercalate (front ++ shown ++ back)
      rows layout report = shown ∧ rowCount layout report = shown.length := by
  constructor
  · intro report
    refine ⟨rowCount_eq h, slicedRows?_eq, fun j row => getElem?_rows_iff, fun hshort => ?_⟩
    have hnone := rows_eq_nil_iff.mpr hshort
    exact ⟨hnone, by rw [rowCount_eq h, hnone, List.length_nil]⟩
  · intro front shown back hfront hback hne hlines report
    have hrows := rows_of_lines_eq (lines_intercalate hne hlines) hfront hback
    exact ⟨hrows, by rw [rowCount_eq h, hrows]⟩

/-- Two rows, one of them empty, behind a line and before an empty one; and a
text that is one line, too short for both. -/
theorem rows_counted_and_cut_one_around :
    let layout : Layout := ⟨1, 1⟩
    let report := "\n".intercalate (["="] ++ ["", "ab"] ++ [""])
    report = "=\n\nab\n" ∧ rows layout report = ["", "ab"] ∧ rowCount layout report = 2 ∧
      rows layout "" = [] ∧ rowCount layout "" = 0 := by
  intro layout report
  obtain ⟨hall, hjoined⟩ := rows_counted_and_cut layout (by decide)
  obtain ⟨hrows, hcount⟩ := hjoined ["="] ["", "ab"] [""] rfl rfl (by decide) (by decide)
  obtain ⟨-, -, -, hshort⟩ := hall ""
  obtain ⟨hnone, hzero⟩ := hshort (by decide)
  exact ⟨by decide, hrows, hcount, hnone, hzero⟩

/-! ## Printed reports -/

/-- The lines with a newline behind each. -/
def printed (lines : List String) : String := String.join (lines.map fun line => line ++ "\n")

/-- The report has the rows between `header` lines and one more. -/
def Shows (header : Nat) (rows : List String) (report : String) : Prop :=
  ∃ front back, front.length = header ∧
    (∀ line ∈ front ++ rows ++ [back], '\n' ∉ line.toList) ∧
    report = printed (front ++ rows ++ [back])

theorem toList_printed (lines : List String) :
    (printed lines).toList = (lines.map String.toList).flatMap fun line => line ++ ['\n'] := by
  simp [printed, List.flatMap_map]

/-- The newline behind the last line leaves an empty line. -/
theorem lines_printed {all : List String} (h : ∀ line ∈ all, '\n' ∉ line.toList) :
    lines (printed all) = all ++ [""] := by
  have hparts : ∀ part ∈ all.map String.toList, '\n' ∉ part := List.forall_mem_map.mpr h
  have hsplit := Splitting.splitOn_flatMap_append (all.map String.toList) hparts []
  rw [List.append_nil] at hsplit
  rw [lines, toList_printed, hsplit]
  simp

theorem rows_of_shows_eq (layout : Layout) {shown : List String} {report : String}
    (h : Shows layout.header.toNat shown report) (hfooter : layout.footer = 2) :
    rows layout report = shown := by
  obtain ⟨front, back, hfront, hlines, rfl⟩ := h
  have htext : lines (printed (front ++ shown ++ [back])) = front ++ shown ++ [back, ""] := by
    rw [lines_printed hlines, List.append_assoc]
    rfl
  exact rows_of_lines_eq htext hfront (by rw [hfooter]; rfl)

theorem rowCount_of_shows {rows : List String} {report : String} (h : Shows 5 rows report) :
    rowCount .conversations report = rows.length := by
  rw [rowCount_eq (by decide), rows_of_shows_eq .conversations h rfl]

theorem rows_of_shows {shown : List String} {report : String} (h : Shows 6 shown report) :
    rows .follow report = shown :=
  rows_of_shows_eq .follow h rfl

end CaptureSplit.Report
