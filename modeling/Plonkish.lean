import Plonkish.Machine.Access
import Plonkish.Storage.Archive
import Plonkish.Program.Document
import Plonkish.Proofs.Circuit.Placement
import Plonkish.Proofs.Machine.Spacing
import Plonkish.Proofs.Program.Agreement
import Plonkish.Proofs.Program.Soundness
import Plonkish.Proofs.Program.Reachability
import Plonkish.Proofs.Program.Refusal
import Plonkish.Proofs.Program.Definition
import Plonkish.Proofs.Program.Placement
import Plonkish.Proofs.Program.Exhaustion
import Plonkish.Proofs.Program.Document
import Plonkish.Proofs.Circuit.Document
import Plonkish.Proofs.Gadget.CosetFolding
import Plonkish.Proofs.Gadget.CurveLaw
import Plonkish.Proofs.Gadget.GateValues
import Plonkish.Proofs.Gadget.LookupHonesty
import Plonkish.Proofs.Gadget.SelectionValues
import Plonkish.Proofs.Machine.Exposure
import Plonkish.Proofs.Program.WellFormed
import Plonkish.Proofs.Machine.Delivery
import Plonkish.Proofs.Program.MemoryHistory
import Plonkish.Proofs.Program.CosetWrites
import Plonkish.Proofs.Program.LookupOperands
import Plonkish.Proofs.Program.Renaming
import Plonkish.Circuit.Builder
import Plonkish.Proofs.Circuit.Columns
import Plonkish.Proofs.Program.Validity
import Plonkish.Proofs.Program.SizeChecks
import Plonkish.Proofs.Machine.Constants
import Plonkish.Proofs.Machine.NativeFields
import Plonkish.Proofs.Storage.Archive
