import BindingSuite.Text.Excerpt
import BindingSuite.Text.Integer
import BindingSuite.Text.Json
import BindingSuite.Text.Lines
import BindingSuite.Text.Names
import BindingSuite.Text.Quoted
import BindingSuite.Text.Unprintable
import BindingSuite.Path
import BindingSuite.FileTree
import BindingSuite.Resource
import BindingSuite.CallGraph.Basic
import BindingSuite.CallGraph.Reachability
import BindingSuite.Program.Basic
import BindingSuite.Program.Builder
import BindingSuite.Program.Render
import BindingSuite.Program.Verdict
import BindingSuite.Wgsl.Module
import BindingSuite.Wgsl.Parser
import BindingSuite.Wgsl.Reading
import BindingSuite.Wgsl.Rules
import BindingSuite.Wgsl.Scan
import BindingSuite.Wgsl.Token
import BindingSuite.Wgsl.Tree
import BindingSuite.Parameter.Space
import BindingSuite.Parameter.Value
import BindingSuite.Scenario.Basic
import BindingSuite.Scenario.Catalogue
import BindingSuite.Compiler.Basic
import BindingSuite.Compiler.Choice
import BindingSuite.Compiler.External
import BindingSuite.Compiler.Reference
import BindingSuite.Compiler.Toolbox
import BindingSuite.Random.Shuffle
import BindingSuite.Random.Twister
import BindingSuite.Suite.Case
import BindingSuite.Suite.Emission
import BindingSuite.Suite.Expectation
import BindingSuite.Suite.Run
import BindingSuite.CommandLine.Options
import BindingSuite.CommandLine.Run
import BindingSuite.Main
import BindingSuite.Proofs.Agreement
import BindingSuite.Proofs.BreachPlacement
import BindingSuite.Proofs.CallClosure
import BindingSuite.Proofs.Derivation
import BindingSuite.Proofs.Distinct
import BindingSuite.Proofs.Grammar
import BindingSuite.Proofs.Image
import BindingSuite.Proofs.ImageRules
import BindingSuite.Proofs.Layout
import BindingSuite.Proofs.ModuleRules
import BindingSuite.Proofs.Parsing
import BindingSuite.Proofs.Placement
import BindingSuite.Proofs.Recognition
import BindingSuite.Proofs.Rendering
import BindingSuite.Proofs.VerdictRules
import BindingSuite.Proofs.Writing
import BindingSuite.Proofs.Validity
import BindingSuite.Proofs.Inlining
import BindingSuite.Proofs.Usage
import BindingSuite.Proofs.Requests
import BindingSuite.Proofs.EntryPointScope
import BindingSuite.Proofs.Reordering
import BindingSuite.Proofs.Renaming
import BindingSuite.Proofs.Soundness
import BindingSuite.Proofs.OutOfReach
import BindingSuite.Proofs.Thinning
import BindingSuite.Proofs.Diagnostics
import BindingSuite.Proofs.EntryPointCalls
import BindingSuite.Proofs.GraphUpdates
import BindingSuite.Proofs.AttributeOrder
import BindingSuite.Proofs.Blame
import BindingSuite.Proofs.Recurrence
import BindingSuite.Proofs.Shuffling
import BindingSuite.Proofs.Runs
import BindingSuite.Proofs.Lists
import BindingSuite.Proofs.Collisions
import BindingSuite.Proofs.Resemblance
import BindingSuite.Proofs.Ranking
import BindingSuite.Proofs.EntryPointReach
import BindingSuite.Proofs.Spelling
import BindingSuite.Proofs.MixedRadix
import BindingSuite.Proofs.CombinationIds
import BindingSuite.Proofs.Paths
import BindingSuite.Proofs.FreshDirectories
import BindingSuite.Proofs.Emissions
import BindingSuite.Proofs.Positions
import BindingSuite.Proofs.Locations
import BindingSuite.Proofs.TypeNames
