import TapLint.Main
import TapLint.Package
import TapLint.Proofs.Calls
import TapLint.Proofs.Comments
import TapLint.Proofs.Delivery
import TapLint.Proofs.Formats
import TapLint.Proofs.HashForm
import TapLint.Proofs.JsonReports
import TapLint.Proofs.PolicyComplaints
import TapLint.Proofs.ReadingOrder
import TapLint.Proofs.Walks
import TapLint.Proofs.ProvidedByMacos
import TapLint.Proofs.ClassNames
import TapLint.Proofs.Discovery
import TapLint.Proofs.Merging
import TapLint.Proofs.SummaryLines
import TapLint.Proofs.DependencyQueries
import TapLint.Proofs.RuleLevels
import TapLint.Proofs.Offsets
import TapLint.Proofs.PassedSettings
import TapLint.Proofs.Assignments
