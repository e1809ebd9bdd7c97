/-
CaptureSplit.Summary — what a run prints on standard output.
-/
import CaptureSplit.Extraction

namespace CaptureSplit.Summary

/-- A dot for each conversation written. -/
def progress (dots : Nat) : String := String.ofList (List.replicate dots '.')

/-- The lines at the end of a successful run. -/
def text (s : Statistics) (directory : Path) : String :=
  "\n\nconversations:\t\t" ++ toString s.conversations ++
  "\npackets written:\t" ++ toString s.packets ++
  "\nbytes written:\t\t" ++ toString s.bytesWritten ++
  "\n\nProcessing complete. Packets written to " ++ directory.display ++ "\n"

end CaptureSplit.Summary
