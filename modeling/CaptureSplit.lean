import CaptureSplit.Program
import CaptureSplit.Recording
import CaptureSplit.Main
import CaptureSplit.Proofs.Encoding
import CaptureSplit.Proofs.Decoding
import CaptureSplit.Proofs.HexDigits
import CaptureSplit.Proofs.PacketText
import CaptureSplit.Proofs.HexRows
import CaptureSplit.Proofs.HexFields
import CaptureSplit.Proofs.HexFaults
import CaptureSplit.Proofs.Creation
import CaptureSplit.Proofs.FileNames
import CaptureSplit.Proofs.Directories
import CaptureSplit.Proofs.Writing
import CaptureSplit.Proofs.Gathering
import CaptureSplit.Proofs.Grouping
import CaptureSplit.Proofs.Intake
import CaptureSplit.Proofs.Runs
import CaptureSplit.Proofs.ReportText
import CaptureSplit.Proofs.Modes
import CaptureSplit.Proofs.Stopping
import CaptureSplit.Proofs.Aborts
import CaptureSplit.Proofs.Totals
import CaptureSplit.Proofs.Reruns
import CaptureSplit.Proofs.Captures
import CaptureSplit.Proofs.Placement
import CaptureSplit.Proofs.Documents
import CaptureSplit.Proofs.MarkupText
import CaptureSplit.Proofs.Endings
import CaptureSplit.Proofs.PdmlText
import CaptureSplit.Proofs.Executables
import CaptureSplit.Proofs.Verdicts
import CaptureSplit.Proofs.Buffering
import CaptureSplit.Proofs.Safekeeping
import CaptureSplit.Proofs.LineEndings
import CaptureSplit.Proofs.Numbering
import CaptureSplit.Proofs.WellFormed
import CaptureSplit.Proofs.Printouts
import CaptureSplit.Proofs.Arguments
