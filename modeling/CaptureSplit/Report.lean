/-
CaptureSplit.Report — rows found by counting lines.

A printed report has no machine readable frame: the rows are what is left
between a fixed number of header lines and a fixed number of footer
lines. Lines end at line feeds only, and a text that ends with one has an
empty line behind it, which counts among the footer lines.

The numbers of lines are machine words, and the sum of the two is one too:
a layout whose numbers are too large for a word together has fewer lines
around its rows than either number says. No layout of the analyzer comes
near that.
-/

namespace CaptureSplit.Report

/-- How many lines stand around the rows of a report. -/
structure Layout where
  header : UInt64
  footer : UInt64
  deriving DecidableEq

/-- The conversation table: a separator, a title, the filter and two lines
of column titles; a separator and the end. -/
def Layout.conversations : Layout := ⟨5, 2⟩

/-- The dump of one conversation: an empty line, a separator, a title, the
filter and two nodes; a separator and the end. -/
def Layout.follow : Layout := ⟨6, 2⟩

/-- The lines of a text. -/
def lines (report : String) : List String :=
  (report.toList.splitOn '\n').map String.ofList

/-- How many rows a report has. -/
def rowCount (layout : Layout) (report : String) : Nat :=
  (lines report).length - (layout.header + layout.footer).toNat

/-- The rows of a report. -/
def rows (layout : Layout) (report : String) : List String :=
  let all := lines report
  (all.take (all.length - layout.footer.toNat)).drop layout.header.toNat

end CaptureSplit.Report
