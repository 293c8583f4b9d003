import SatReplay.Main
import SatReplay.Proofs.Challenge.Checked
import SatReplay.Proofs.Pipeline
import SatReplay.Proofs.Refusals
import SatReplay.Proofs.Settings
import SatReplay.Proofs.CommandLine.Computing
import SatReplay.Proofs.Solution.Canonical
import SatReplay.Proofs.Dpll.Stopping
import SatReplay.Proofs.Challenge.Unbiased
import SatReplay.Proofs.Dpll.Bounds
import SatReplay.Proofs.Dpll.Confluence
import SatReplay.Proofs.Dpll.Lockstep
import SatReplay.Proofs.Dpll.Rearrangement
import SatReplay.Proofs.Verdicts
import SatReplay.Proofs.Challenge.Received
import SatReplay.Proofs.DebugMode
import SatReplay.Proofs.SpentBudgets
import SatReplay.Proofs.Json.KeyOrder
import SatReplay.Proofs.Json.AnyValue
import SatReplay.Proofs.Solution.TextForm
import SatReplay.Proofs.Transports
import SatReplay.Proofs.Solution.PrefixFree
import SatReplay.Proofs.Challenge.Growth
import SatReplay.Proofs.Registration
import SatReplay.Proofs.Dpll.Expiring
import SatReplay.Proofs.CommandLine.AllOrNothing
import SatReplay.Proofs.Dpll.Fixpoint
import SatReplay.Proofs.Dpll.Identifiers
import SatReplay.Proofs.Solution.Positions
