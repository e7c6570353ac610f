import SkillLint.Archive
import SkillLint.CommandLine.Execute
import SkillLint.CommandLine.Request
import SkillLint.CommandLine.Words
import SkillLint.Config.Basic
import SkillLint.Config.Load
import SkillLint.Config.Setting
import SkillLint.Counts
import SkillLint.Decimal.Binary64
import SkillLint.Decimal.Shortest
import SkillLint.FileTree.Basic
import SkillLint.FileTree.Build
import SkillLint.FileTree.Walk
import SkillLint.Header.Document
import SkillLint.Header.Parser
import SkillLint.Header.Restricted
import SkillLint.Header.Value
import SkillLint.Json
import SkillLint.Main
import SkillLint.Markdown.Line
import SkillLint.Markdown.Render
import SkillLint.Markdown.Scan
import SkillLint.Markdown.Section
import SkillLint.Path
import SkillLint.Report.Basic
import SkillLint.Report.Table
import SkillLint.Report.View
import SkillLint.Rule.Basic
import SkillLint.Rule.Declaration
import SkillLint.Rule.Identity
import SkillLint.Rule.Length
import SkillLint.Rule.Metadata
import SkillLint.Rule.Order
import SkillLint.Rule.References
import SkillLint.Rule.Registry
import SkillLint.Rule.Steps
import SkillLint.Rule.Usage
import SkillLint.Run
import SkillLint.RunError
import SkillLint.Sample
import SkillLint.Schema.Layout
import SkillLint.Schema.Vocabulary
import SkillLint.Skill
import SkillLint.Text.Blank
import SkillLint.Text.Bytes
import SkillLint.Text.CaseTable
import SkillLint.Text.Digit
import SkillLint.Text.Lines
import SkillLint.Text.Lowercase
import SkillLint.Text.Search
import SkillLint.Text.Word
import SkillLint.Toml.Document
import SkillLint.Toml.Scalar
import SkillLint.Toml.Table
import SkillLint.Toml.Text
import SkillLint.Workflow.Basic
import SkillLint.Workflow.Context
import SkillLint.Workflow.Cycles
import SkillLint.Workflow.Manifest
import SkillLint.Workflow.Orphans
import SkillLint.Workflow.Record
import SkillLint.Yaml.Cursor
import SkillLint.Yaml.Data
import SkillLint.Yaml.Layout
import SkillLint.Yaml.Node
import SkillLint.Yaml.Property
import SkillLint.Yaml.Scalar
import SkillLint.Yaml.ScalarText
import SkillLint.Yaml.Token
import SkillLint.Proofs.Cycles.Names
import SkillLint.Proofs.Cycles.Loops
import SkillLint.Proofs.Cycles.Components
import SkillLint.Proofs.Header.Keys
import SkillLint.Proofs.Report.Blocking
import SkillLint.Proofs.Json.Unambiguous
import SkillLint.Proofs.Report.Lossless
import SkillLint.Proofs.Workflow.ManifestVerdict
import SkillLint.Proofs.Text.Cut
import SkillLint.Proofs.Header.Split
import SkillLint.Proofs.Header.Encoding
import SkillLint.Proofs.Workflow.Agreement
import SkillLint.Proofs.Header.RoundTrip
import SkillLint.Proofs.Rule.Advice
import SkillLint.Proofs.Rule.HeaderVerdict
import SkillLint.Proofs.Markdown.CodeBlocks
import SkillLint.Proofs.FileTree.Names
import SkillLint.Proofs.FileTree.Built
import SkillLint.Proofs.Rule.Signature
import SkillLint.Proofs.Run.Discovery
import SkillLint.Proofs.Run.Restriction
import SkillLint.Proofs.FileTree.Location
import SkillLint.Proofs.Path.Order
import SkillLint.Proofs.Text.ByteOrder
import SkillLint.Proofs.FileTree.Walks
import SkillLint.Proofs.FileTree.Alike
import SkillLint.Proofs.Rule.Sight
import SkillLint.Proofs.Run.Counterparts
import SkillLint.Proofs.Workflow.Sight
import SkillLint.Proofs.Run.Isolation
import SkillLint.Proofs.FileTree.Relisted
import SkillLint.Proofs.Run.Relisting
import SkillLint.Proofs.Path.Spelling
import SkillLint.Proofs.Workflow.OrphanVerdict
import SkillLint.Proofs.Counts.Discovered
import SkillLint.Proofs.Text.Numeral
import SkillLint.Proofs.Config.Layers
import SkillLint.Proofs.Rule.Session
import SkillLint.Proofs.Rule.References
import SkillLint.Proofs.FileTree.Beside
import SkillLint.Proofs.Rule.Extraction
import SkillLint.Proofs.FileTree.Respelled
import SkillLint.Proofs.Text.Lines
import SkillLint.Proofs.Rule.ModelDocument
import SkillLint.Proofs.Rule.ModelSkill
import SkillLint.Proofs.Report.Verdict
import SkillLint.Proofs.Cycles.Closers
import SkillLint.Proofs.Header.LineKinds
import SkillLint.Proofs.Header.Sections
import SkillLint.Proofs.Header.LineEnds
import SkillLint.Proofs.Header.ListItems
import SkillLint.Proofs.Header.InsertionOrder
import SkillLint.Proofs.Workflow.Repetition
import SkillLint.Proofs.Cycles.Dangling
import SkillLint.Proofs.Workflow.Findings
import SkillLint.Proofs.Workflow.Duplicates
import SkillLint.Proofs.Workflow.DanglingDependencies
import SkillLint.Proofs.Markdown.BlockDocuments
import SkillLint.Proofs.Workflow.RecordFiles
import SkillLint.Proofs.Workflow.NamedFiles
import SkillLint.Proofs.Rule.LegacyMarkers
import SkillLint.Proofs.Rule.RelatedSkills
import SkillLint.Proofs.Rule.SectionOrder
import SkillLint.Proofs.Rule.WorkflowSteps
import SkillLint.Proofs.Workflow.Labels
import SkillLint.Proofs.Rule.Loosening
import SkillLint.Proofs.FileTree.Added
import SkillLint.Proofs.Workflow.OrphanGrowth
import SkillLint.Proofs.Counts.Advertised
import SkillLint.Proofs.Report.Colors
import SkillLint.Proofs.Cycles.Calls
import SkillLint.Proofs.Cycles.OrderlyCalls
