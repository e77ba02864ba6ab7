import ResourceGraph.Builder
import ResourceGraph.Client.Basic
import ResourceGraph.Client.Template
import ResourceGraph.Directory
import ResourceGraph.Document.Basic
import ResourceGraph.Document.Check
import ResourceGraph.Document.Finding
import ResourceGraph.Document.Lint
import ResourceGraph.Failure
import ResourceGraph.Graph.Access
import ResourceGraph.Graph.Basic
import ResourceGraph.Graph.Build
import ResourceGraph.Graph.Call
import ResourceGraph.Graph.Construct
import ResourceGraph.Graph.Enumerate
import ResourceGraph.Graph.Handle
import ResourceGraph.Graph.Identity
import ResourceGraph.Graph.Invoke
import ResourceGraph.Graph.Load
import ResourceGraph.Graph.Open
import ResourceGraph.IdentifierSource
import ResourceGraph.Json.Body
import ResourceGraph.Json.Reader
import ResourceGraph.Json.Writer
import ResourceGraph.Keyed
import ResourceGraph.Model.Basic
import ResourceGraph.Model.Compile
import ResourceGraph.Model.Plan
import ResourceGraph.Model.Scope
import ResourceGraph.Naming
import ResourceGraph.Number.Basic
import ResourceGraph.Number.Binary
import ResourceGraph.Number.Decimal
import ResourceGraph.Number.Reading
import ResourceGraph.Operation
import ResourceGraph.Path.Eval
import ResourceGraph.Path.Expr
import ResourceGraph.Path.Function
import ResourceGraph.Path.Search
import ResourceGraph.Path.Text
import ResourceGraph.Path.Token
import ResourceGraph.Projection
import ResourceGraph.Proofs.Alignment
import ResourceGraph.Proofs.Answering
import ResourceGraph.Proofs.Attachment
import ResourceGraph.Proofs.Attributes
import ResourceGraph.Proofs.Blame
import ResourceGraph.Proofs.CallLaw
import ResourceGraph.Proofs.CallerParams
import ResourceGraph.Proofs.Calling
import ResourceGraph.Proofs.Change
import ResourceGraph.Proofs.CompileFaults
import ResourceGraph.Proofs.CompileOrder
import ResourceGraph.Proofs.CompileSpelling
import ResourceGraph.Proofs.CompiledTable
import ResourceGraph.Proofs.Confinement
import ResourceGraph.Proofs.Conserving
import ResourceGraph.Proofs.DataLaw
import ResourceGraph.Proofs.Declaration
import ResourceGraph.Proofs.DefinitionFaults
import ResourceGraph.Proofs.Demands
import ResourceGraph.Proofs.Digests
import ResourceGraph.Proofs.DocumentOrder
import ResourceGraph.Proofs.DocumentScope
import ResourceGraph.Proofs.DraftView
import ResourceGraph.Proofs.Drawing
import ResourceGraph.Proofs.ElementPath
import ResourceGraph.Proofs.Elements
import ResourceGraph.Proofs.Endpoint
import ResourceGraph.Proofs.Enumeration
import ResourceGraph.Proofs.Equivariance
import ResourceGraph.Proofs.Evaluation
import ResourceGraph.Proofs.Extraction
import ResourceGraph.Proofs.Family
import ResourceGraph.Proofs.Fanout
import ResourceGraph.Proofs.Findings
import ResourceGraph.Proofs.Heeding
import ResourceGraph.Proofs.HttpPages
import ResourceGraph.Proofs.Identifying
import ResourceGraph.Proofs.Incomplete
import ResourceGraph.Proofs.Invoking
import ResourceGraph.Proofs.Keeping
import ResourceGraph.Proofs.Kinship
import ResourceGraph.Proofs.LetterCase
import ResourceGraph.Proofs.Likeness
import ResourceGraph.Proofs.Lineage
import ResourceGraph.Proofs.LintAgreement
import ResourceGraph.Proofs.ListedPages
import ResourceGraph.Proofs.Listing
import ResourceGraph.Proofs.LiteralSources
import ResourceGraph.Proofs.Literals
import ResourceGraph.Proofs.Loading
import ResourceGraph.Proofs.Mirroring
import ResourceGraph.Proofs.ModelSoundness
import ResourceGraph.Proofs.NameWords
import ResourceGraph.Proofs.Nesting
import ResourceGraph.Proofs.Offspring
import ResourceGraph.Proofs.OperationTable
import ResourceGraph.Proofs.Outcome
import ResourceGraph.Proofs.PageCourse
import ResourceGraph.Proofs.PageTraffic
import ResourceGraph.Proofs.Paging
import ResourceGraph.Proofs.Passing
import ResourceGraph.Proofs.PathPlaces
import ResourceGraph.Proofs.PlanOrder
import ResourceGraph.Proofs.PlanSoundness
import ResourceGraph.Proofs.PlanSpelling
import ResourceGraph.Proofs.Precedence
import ResourceGraph.Proofs.ReadingOrder
import ResourceGraph.Proofs.ReadingSpelling
import ResourceGraph.Proofs.Reentry
import ResourceGraph.Proofs.Referring
import ResourceGraph.Proofs.Regions
import ResourceGraph.Proofs.RegistryRun
import ResourceGraph.Proofs.Relocation
import ResourceGraph.Proofs.Remembering
import ResourceGraph.Proofs.Reordering
import ResourceGraph.Proofs.Repetition
import ResourceGraph.Proofs.Resending
import ResourceGraph.Proofs.ResourceKeys
import ResourceGraph.Proofs.Revision
import ResourceGraph.Proofs.Routing
import ResourceGraph.Proofs.RuleFaults
import ResourceGraph.Proofs.Running
import ResourceGraph.Proofs.Schema
import ResourceGraph.Proofs.Shaping
import ResourceGraph.Proofs.SharedTrees
import ResourceGraph.Proofs.Shuffling
import ResourceGraph.Proofs.SortedImage
import ResourceGraph.Proofs.Spreading
import ResourceGraph.Proofs.StoreGrowth
import ResourceGraph.Proofs.StrayKeys
import ResourceGraph.Proofs.Supplying
import ResourceGraph.Proofs.TargetForm
import ResourceGraph.Proofs.Templates
import ResourceGraph.Proofs.Traffic
import ResourceGraph.Proofs.Using
import ResourceGraph.Proofs.ViewRun
import ResourceGraph.Proofs.Views
import ResourceGraph.Proofs.WellFormed
import ResourceGraph.Proofs.Wholeness
import ResourceGraph.Proofs.Wiring
import ResourceGraph.Proofs.WriteEffect
import ResourceGraph.Proofs.WriteFailure
import ResourceGraph.Proofs.WriteOrder
import ResourceGraph.Proofs.WritingApart
import ResourceGraph.Registry
import ResourceGraph.Request
import ResourceGraph.ResourceType
import ResourceGraph.Settings
import ResourceGraph.Sorting
import ResourceGraph.Sorting.Merge
import ResourceGraph.Sorting.Run
import ResourceGraph.Store.Basic
import ResourceGraph.Store.Tree
import ResourceGraph.Store.Write
import ResourceGraph.Target.Basic
import ResourceGraph.Target.Write
import ResourceGraph.Text.Blank
import ResourceGraph.Text.CaseRun
import ResourceGraph.Text.Digit
import ResourceGraph.Text.Hex
import ResourceGraph.Text.Lone
import ResourceGraph.Text.Lower
import ResourceGraph.Text.Printable
import ResourceGraph.Text.Quoted
import ResourceGraph.Text.Ranges
import ResourceGraph.Text.Upper
import ResourceGraph.Text.Word
import ResourceGraph.Value.Basic
import ResourceGraph.Value.Datum
import ResourceGraph.Value.Display
import ResourceGraph.Value.Entries
import ResourceGraph.Value.Members
import ResourceGraph.Value.Same
