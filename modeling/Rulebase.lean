import Rulebase.Main
import Rulebase.Rule.Literal
import Rulebase.Rule.Mixed
import Rulebase.Store.Item
import Rulebase.Proofs.Query.Meaning
import Rulebase.Proofs.Group.Addition
import Rulebase.Proofs.Rule.Indistinct
import Rulebase.Proofs.Text.Legible
import Rulebase.Proofs.Policy.Run
import Rulebase.Proofs.Policy.Reading
import Rulebase.Proofs.Store.Placement
import Rulebase.Proofs.Store.Items
import Rulebase.Proofs.Store.Calls
import Rulebase.Proofs.Store.Directory
import Rulebase.Proofs.Policy.Chapters
import Rulebase.Proofs.Order.Stable
import Rulebase.Proofs.Policy.Keeping
import Rulebase.Proofs.Group.Growth
import Rulebase.Proofs.Policy.Filling
import Rulebase.Proofs.Policy.Stages
import Rulebase.Proofs.Policy.Sections
import Rulebase.Proofs.Policy.Failure
import Rulebase.Proofs.Policy.Names
import Rulebase.Proofs.Policy.Labels
import Rulebase.Proofs.Policy.Fidelity
import Rulebase.Proofs.Query.Scanning
import Rulebase.Proofs.Query.Tiling
import Rulebase.Proofs.Query.Layout
import Rulebase.Proofs.Query.Embedding
import Rulebase.Proofs.Query.Search
import Rulebase.Proofs.Group.Uniform
import Rulebase.Proofs.Rule.Checked
import Rulebase.Proofs.Address.Subnet
import Rulebase.Proofs.Object.Points
import Rulebase.Proofs.Group.Points
import Rulebase.Proofs.Group.Unfolding
import Rulebase.Proofs.Group.Series
import Rulebase.Proofs.Group.Parallel
import Rulebase.Proofs.Group.Refilling
import Rulebase.Proofs.Policy.Drafting
import Rulebase.Proofs.Policy.Redrafting
import Rulebase.Proofs.Policy.Twin
import Rulebase.Proofs.Policy.Rearrangement
import Rulebase.Proofs.Rule.Ends
import Rulebase.Proofs.Rule.Inclusion
import Rulebase.Proofs.Store.Ranking
import Rulebase.Proofs.Query.Figures
import Rulebase.Proofs.Query.Refusal
import Rulebase.Proofs.Query.Recovery
import Rulebase.Proofs.Query.Shape
import Rulebase.Proofs.Object.Subnet
import Rulebase.Proofs.Query.Readback
import Rulebase.Proofs.Order.Preorder
import Rulebase.Proofs.Group.Descent
import Rulebase.Proofs.Address.Canonical
import Rulebase.Proofs.Condition.Duality
import Rulebase.Proofs.Query.Naming
import Rulebase.Proofs.Policy.Catalog
