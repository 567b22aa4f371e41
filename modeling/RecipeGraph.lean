import RecipeGraph.Cli.Arguments
import RecipeGraph.Dag.Inspect
import RecipeGraph.Dag.Topology
import RecipeGraph.Import.Forest
import RecipeGraph.Main
import RecipeGraph.Proofs.Build.Soundness
import RecipeGraph.Proofs.Parser.Findings
import RecipeGraph.Proofs.Build.Attempts
import RecipeGraph.Proofs.Build.Growth
import RecipeGraph.Proofs.Build.Lockstep
import RecipeGraph.Proofs.Session.Exact
import RecipeGraph.Proofs.Session.Levels
import RecipeGraph.Proofs.Graph.FreshCopy
import RecipeGraph.Proofs.Graph.Parallel
import RecipeGraph.Proofs.Graph.Rename
import RecipeGraph.Proofs.Graph.Topology
import RecipeGraph.Proofs.Import.Reach
import RecipeGraph.Proofs.Parser.Accounted
import RecipeGraph.Proofs.Build.Overlay
import RecipeGraph.Proofs.Session.Rooted
import RecipeGraph.Proofs.Session.ButImport
import RecipeGraph.Proofs.Session.Inlined
import RecipeGraph.Proofs.Build.Absorbed
import RecipeGraph.Proofs.Session.Pasted
import RecipeGraph.Proofs.Path.Inside
import RecipeGraph.Proofs.Session.Bounds
import RecipeGraph.Proofs.Session.Unique
import RecipeGraph.Proofs.Build.Pointing
import RecipeGraph.Proofs.Graph.Consistent
import RecipeGraph.Proofs.Cli.Completion
import RecipeGraph.Proofs.Parser.Order
import RecipeGraph.Proofs.Parser.Doubling
import RecipeGraph.Proofs.Session.Accounts
import RecipeGraph.Proofs.Build.Appending
import RecipeGraph.Proofs.Session.Appending
import RecipeGraph.Proofs.Graph.StackSearch
import RecipeGraph.Proofs.Graph.Relabel
import RecipeGraph.Proofs.Graph.Isomorphism
import RecipeGraph.Proofs.Parser.Cut
import RecipeGraph.Proofs.Parser.Unclosed
import RecipeGraph.Proofs.Parser.Canonical
import RecipeGraph.Proofs.Session.LoadedOnce
import RecipeGraph.Proofs.Session.FailedImport
import RecipeGraph.Proofs.Build.Flattening
import RecipeGraph.Proofs.Session.Aliases
import RecipeGraph.Proofs.Graph.Throughout
import RecipeGraph.Proofs.Graph.Merging
import RecipeGraph.Proofs.Session.Names
import RecipeGraph.Proofs.Session.Lookups
import RecipeGraph.Proofs.Session.Dumps
import RecipeGraph.Proofs.Path.Joined
import RecipeGraph.Proofs.Path.OneFile
import RecipeGraph.Proofs.Graph.Counting
import RecipeGraph.Proofs.Session.Counting
