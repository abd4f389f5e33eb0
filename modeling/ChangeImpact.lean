import ChangeImpact.Main
import ChangeImpact.Proofs.CommandLine.Gate
import ChangeImpact.Proofs.CommandLine.RiskTable
import ChangeImpact.Proofs.Disk.Cancelled
import ChangeImpact.Proofs.Disk.LinkLaw
import ChangeImpact.Proofs.Disk.ScanLaw
import ChangeImpact.Proofs.Export.Neighbourhood
import ChangeImpact.Proofs.Graph.DependencyLaw
import ChangeImpact.Proofs.Graph.IndexFiles
import ChangeImpact.Proofs.Graph.Rebuild
import ChangeImpact.Proofs.Impact.Deletion
import ChangeImpact.Proofs.Impact.RequireReach
import ChangeImpact.Proofs.Plan.Atomicity
import ChangeImpact.Proofs.Plan.BadFiles
import ChangeImpact.Proofs.Plan.CallOrder
import ChangeImpact.Proofs.Plan.Chronology
import ChangeImpact.Proofs.Plan.Commuting
import ChangeImpact.Proofs.Plan.Confinement
import ChangeImpact.Proofs.Plan.Creation
import ChangeImpact.Proofs.Plan.CutShort
import ChangeImpact.Proofs.Plan.Isolation
import ChangeImpact.Proofs.Plan.Refinement
import ChangeImpact.Proofs.Plan.Repetition
import ChangeImpact.Proofs.Plan.Saving
import ChangeImpact.Proofs.Plan.StateLaw
import ChangeImpact.Proofs.Project.FailedFiles
import ChangeImpact.Proofs.Project.FileOrder
import ChangeImpact.Proofs.Project.Growth
import ChangeImpact.Proofs.Project.RootSpelling
import ChangeImpact.Proofs.Settings.Loading
import ChangeImpact.Proofs.Settings.Runs
import ChangeImpact.Proofs.Settings.Unreadable
import ChangeImpact.Proofs.Source.DefaultNames
import ChangeImpact.Proofs.Source.LineLaws
import ChangeImpact.Proofs.Source.OwnSymbols
import ChangeImpact.Proofs.Source.Written
import ChangeImpact.Proofs.Validation.RuleRun
import ChangeImpact.Proofs.Validation.SharedExports
