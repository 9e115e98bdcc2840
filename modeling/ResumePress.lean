import ResumePress.Batch
import ResumePress.Cache
import ResumePress.Compile.Compiler
import ResumePress.Compile.LogKind
import ResumePress.Compile.Raster
import ResumePress.Compile.Retry
import ResumePress.Compile.TexEngine
import ResumePress.Compile.Workspace
import ResumePress.Config.Basic
import ResumePress.Config.EnvFile
import ResumePress.Config.Environment
import ResumePress.Config.Number
import ResumePress.Digest.Sha256
import ResumePress.Error
import ResumePress.Files.Fault
import ResumePress.Files.Path
import ResumePress.Files.Tree
import ResumePress.Json
import ResumePress.Json.Record
import ResumePress.Latex.Declaration
import ResumePress.Latex.Directive
import ResumePress.Latex.Document
import ResumePress.Latex.Preamble
import ResumePress.Latex.Resolution
import ResumePress.Main
import ResumePress.Prerequisite
import ResumePress.Press
import ResumePress.Program
import ResumePress.Proofs.Compile.Calls
import ResumePress.Proofs.Compile.Logs
import ResumePress.Proofs.Compile.Provenance
import ResumePress.Proofs.Surroundings
import ResumePress.Report
import ResumePress.Surroundings
import ResumePress.Sweep
import ResumePress.Template.Basic
import ResumePress.Template.Catalog
import ResumePress.Template.Content
import ResumePress.Template.Preview
import ResumePress.Template.Profile
import ResumePress.Template.Registry
import ResumePress.Text.Alphanumeric
import ResumePress.Text.Alphanumeric.Table
import ResumePress.Text.Blank
import ResumePress.Text.Braces
import ResumePress.Text.Case
import ResumePress.Text.Case.Table
import ResumePress.Text.Digits
import ResumePress.Text.Find
import ResumePress.Text.Hex
import ResumePress.Text.Lines
import ResumePress.Text.Pattern
import ResumePress.Text.Printable.Table
import ResumePress.Text.Quoted
import ResumePress.Text.Range
import ResumePress.Text.Utf8
import ResumePress.Time
import ResumePress.Time.Calendar
import ResumePress.Toolchain
import ResumePress.Validation
import ResumePress.Proofs.Files.Leads
import ResumePress.Proofs.Files.Changes
import ResumePress.Proofs.Publish
import ResumePress.Proofs.Files.Names
import ResumePress.Proofs.Compile.Workspaces
import ResumePress.Proofs.Runs
import ResumePress.Proofs.Preview
import ResumePress.Proofs.Cache
import ResumePress.Proofs.Documents
import ResumePress.Proofs.Placement
import ResumePress.Proofs.Resolution
import ResumePress.Proofs.Conflicts
import ResumePress.Proofs.Images
import ResumePress.Proofs.Thumbnails
import ResumePress.Proofs.CleanUp
import ResumePress.Proofs.Annotations
import ResumePress.Proofs.Balance
import ResumePress.Proofs.Validation
import ResumePress.Proofs.Preamble
import ResumePress.Proofs.Comments
import ResumePress.Proofs.Compile.Pacing
import ResumePress.Proofs.Agreement
import ResumePress.Proofs.Refresh
import ResumePress.Proofs.Compile.Verdicts
import ResumePress.Proofs.Files.Spots
import ResumePress.Proofs.Order
import ResumePress.Proofs.Compile.Histories
import ResumePress.Proofs.Compile.OwnLogs
import ResumePress.Proofs.Expiry
import ResumePress.Proofs.Repeats
import ResumePress.Proofs.Choices
import ResumePress.Proofs.Coverage
import ResumePress.Proofs.Substitution
import ResumePress.Proofs.Sweep
import ResumePress.Proofs.Headings
import ResumePress.Proofs.Registry
import ResumePress.Proofs.Loading
import ResumePress.Proofs.Lookup
import ResumePress.Proofs.FontNotes
import ResumePress.Proofs.Listings
import ResumePress.Proofs.Config.Arithmetic
import ResumePress.Proofs.Readings
import ResumePress.Proofs.Latex.Grammar
import ResumePress.Proofs.Naming
