import CodeGraph.Exchange.Report
import CodeGraph.Main
import CodeGraph.Proofs.Store.Session
import CodeGraph.Proofs.Store.Tables
import CodeGraph.Proofs.Store.Import
import CodeGraph.Proofs.Store.History
import CodeGraph.Proofs.Decimal.Digits
import CodeGraph.Proofs.Json.Reader
import CodeGraph.Proofs.Time.Column
import CodeGraph.Proofs.Store.Figures
import CodeGraph.Proofs.Store.Replacement
import CodeGraph.Proofs.Project.Rivals
import CodeGraph.Proofs.Project.Discovery
import CodeGraph.Proofs.Project.Reading
import CodeGraph.Proofs.Project.ImportPath
import CodeGraph.Proofs.Names.Order
import CodeGraph.Proofs.Calls.Chain
import CodeGraph.Proofs.Run.Interruption
import CodeGraph.Proofs.Store.Interruption
import CodeGraph.Proofs.Pipeline.Cancellation
import CodeGraph.Proofs.Graph.Drafts
import CodeGraph.Proofs.Graph.Ends
import CodeGraph.Proofs.Project.Files
import CodeGraph.Proofs.Hash.Uuid
import CodeGraph.Proofs.Json.Writer
import CodeGraph.Proofs.Report.Basic
import CodeGraph.Proofs.Graph.Keys
import CodeGraph.Proofs.Graph.Links
import CodeGraph.Proofs.Graph.Distinct
import CodeGraph.Proofs.Graph.Identity
import CodeGraph.Proofs.Imports.Cycle
import CodeGraph.Proofs.Imports.Dependency
import CodeGraph.Proofs.Imports.Search
import CodeGraph.Proofs.Imports.Route
import CodeGraph.Proofs.Imports.Closed
import CodeGraph.Proofs.Graph.Relationships
import CodeGraph.Proofs.Report.Flags
import CodeGraph.Proofs.Graph.Calls
import CodeGraph.Proofs.Calls.Resolution
import CodeGraph.Proofs.Names.MethodSet
import CodeGraph.Proofs.Names.Embedding
import CodeGraph.Proofs.Names.Promotion
import CodeGraph.Proofs.Names.Implementation
import CodeGraph.Proofs.Calls.Sites
import CodeGraph.Proofs.Calls.Dispatch
import CodeGraph.Proofs.Names.Satisfaction
import CodeGraph.Proofs.Project.Partition
import CodeGraph.Proofs.Project.FolderPath
import CodeGraph.Proofs.Graph.Declarations
import CodeGraph.Proofs.Graph.Nodes
import CodeGraph.Proofs.Graph.Containment
import CodeGraph.Proofs.Graph.Counters
import CodeGraph.Proofs.Graph.Imports
import CodeGraph.Proofs.Graph.Types
import CodeGraph.Proofs.Graph.Typing
import CodeGraph.Proofs.Names.Flattening
import CodeGraph.Proofs.Store.Batches
import CodeGraph.Proofs.Names.Spelling
import CodeGraph.Proofs.Report.Listing
import CodeGraph.Proofs.Report.Order
import CodeGraph.Proofs.Graph.Places
import CodeGraph.Proofs.Graph.Order
import CodeGraph.Proofs.Syntax.Reader
import CodeGraph.Proofs.Syntax.Rules
import CodeGraph.Proofs.Syntax.Specifications
import CodeGraph.Proofs.Source.Values
import CodeGraph.Proofs.Source.Bindings
import CodeGraph.Proofs.Source.Scope
import CodeGraph.Proofs.Source.Shadowing
import CodeGraph.Proofs.Source.FunctionValues
import CodeGraph.Proofs.Calls.Conversions
import CodeGraph.Proofs.Source.Complexity
import CodeGraph.Proofs.Calls.Matching
import CodeGraph.Proofs.Imports.Weight
import CodeGraph.Proofs.Project.FolderWalk
import CodeGraph.Proofs.Project.CanonicalPath
import CodeGraph.Proofs.Project.Selection
import CodeGraph.Proofs.Settings.Backoff
import CodeGraph.Proofs.Store.Connection
import CodeGraph.Proofs.Calls.Layers
import CodeGraph.Proofs.Report.Metrics
import CodeGraph.Proofs.Report.Truncation
import CodeGraph.Proofs.Text.Order
import CodeGraph.Proofs.Time.Order
import CodeGraph.Proofs.Store.Projects
import CodeGraph.Proofs.Syntax.Visits
import CodeGraph.Proofs.Store.Silence
import CodeGraph.Proofs.Pipeline.Events
import CodeGraph.Proofs.Pipeline.Progress
import CodeGraph.Proofs.Text.Lines
import CodeGraph.Proofs.Project.ModulePath
import CodeGraph.Proofs.Names.Qualifier
import CodeGraph.Proofs.Imports.Marks
import CodeGraph.Proofs.Syntax.Defects
import CodeGraph.Proofs.Project.Defects
