import OverrideLint.Main
import OverrideLint.Proofs.Command.Excerpt
import OverrideLint.Proofs.Command.ExitStatus
import OverrideLint.Proofs.Command.WriteBack
import OverrideLint.Proofs.DocComment.ErrorOffset
import OverrideLint.Proofs.DocComment.Surviving
import OverrideLint.Proofs.Edit.Coverage
import OverrideLint.Proofs.Edit.Rearrange
import OverrideLint.Proofs.Files.Discovery
import OverrideLint.Proofs.ParseTree.Classes
import OverrideLint.Proofs.ParseTree.Nesting
import OverrideLint.Proofs.ParseTree.Offsets
import OverrideLint.Proofs.Rule.Convergence
import OverrideLint.Proofs.Rule.Findings
import OverrideLint.Proofs.Rule.Footprint
import OverrideLint.Proofs.Rule.TagReport
import OverrideLint.Proofs.Settings.Load
import OverrideLint.Proofs.Suppression.Record
import OverrideLint.Proofs.Suppression.Stretches
import OverrideLint.Proofs.Text.Coordinates
import OverrideLint.Proofs.Tree.Address
import OverrideLint.Proofs.TypeIndex.Order
import OverrideLint.Proofs.TypeIndex.Stubs
