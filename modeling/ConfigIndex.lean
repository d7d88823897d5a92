import ConfigIndex.Command.Program
import ConfigIndex.Index.Import
import ConfigIndex.Main
import ConfigIndex.Proofs.Text.Numeral
import ConfigIndex.Proofs.Template.Grammar
import ConfigIndex.Proofs.Template.Words
import ConfigIndex.Proofs.Template.Steps
import ConfigIndex.Proofs.Template.Soundness
import ConfigIndex.Proofs.Template.Completeness
import ConfigIndex.Proofs.Template.Limits
import ConfigIndex.Proofs.Document.Patterns
import ConfigIndex.Proofs.Document.Strings
import ConfigIndex.Proofs.Document.Words
import ConfigIndex.Proofs.Document.Grammar
import ConfigIndex.Proofs.Document.Soundness
import ConfigIndex.Proofs.Document.Completeness
import ConfigIndex.Proofs.Document.Stretches
import ConfigIndex.Proofs.Document.Limits
import ConfigIndex.Proofs.Document.Tiling
import ConfigIndex.Proofs.Document.Reading
import ConfigIndex.Proofs.Document.Positions
import ConfigIndex.Proofs.Template.Places
import ConfigIndex.Proofs.Index.References
import ConfigIndex.Proofs.Index.Entries
import ConfigIndex.Proofs.Index.Mentions
import ConfigIndex.Proofs.Index.Merge
import ConfigIndex.Proofs.Template.Order
import ConfigIndex.Proofs.Document.Apart
import ConfigIndex.Proofs.Index.Occurrences
import ConfigIndex.Proofs.Index.Malformed
import ConfigIndex.Proofs.Text.Yields
import ConfigIndex.Proofs.Text.Digits
import ConfigIndex.Proofs.Document.Interpolations
import ConfigIndex.Proofs.Template.Rendering
import ConfigIndex.Proofs.Index.Outcome
import ConfigIndex.Proofs.Data.Scalars
import ConfigIndex.Proofs.Data.Written
import ConfigIndex.Proofs.Data.Shape
import ConfigIndex.Proofs.Document.Export
import ConfigIndex.Proofs.Index.RoundTrip
import ConfigIndex.Proofs.Index.KeptTree
import ConfigIndex.Proofs.Template.Concealed
import ConfigIndex.Proofs.Index.Escaped
import ConfigIndex.Proofs.Text.Utf8
import ConfigIndex.Proofs.Index.Declared
import ConfigIndex.Proofs.Document.Lead
import ConfigIndex.Proofs.Text.Cut
import ConfigIndex.Proofs.Document.Cut
import ConfigIndex.Proofs.Document.Viable
import ConfigIndex.Proofs.Template.Cut
import ConfigIndex.Proofs.Template.Viable
import ConfigIndex.Proofs.Viable
import ConfigIndex.Proofs.Document.Bytes
import ConfigIndex.Proofs.Index.Strict
import ConfigIndex.Proofs.Index.History
import ConfigIndex.Proofs.Document.Tokens
import ConfigIndex.Proofs.Index.Sections
import ConfigIndex.Proofs.Index.Names
import ConfigIndex.Proofs.Template.Variables
import ConfigIndex.Proofs.Template.Relocation
import ConfigIndex.Proofs.Template.Decoding
import ConfigIndex.Proofs.Document.Heredocs
import ConfigIndex.Proofs.Document.Violations
import ConfigIndex.Proofs.Document.Runs
import ConfigIndex.Proofs.Data.Merge
import ConfigIndex.Proofs.Files.Path
import ConfigIndex.Proofs.Settings.Check
import ConfigIndex.Proofs.Text.Lower
import ConfigIndex.Proofs.Settings.Stable
import ConfigIndex.Proofs.Settings.Layers
import ConfigIndex.Proofs.Data.Equal
import ConfigIndex.Proofs.Settings.Environment
import ConfigIndex.Proofs.Settings.Failures
import ConfigIndex.Proofs.Files.Expansion
import ConfigIndex.Proofs.Data.Paths
import ConfigIndex.Proofs.Log.Session
import ConfigIndex.Proofs.Document.Walk
import ConfigIndex.Proofs.Log.Transcript
import ConfigIndex.Proofs.Command.Options
import ConfigIndex.Proofs.Command.Status
import ConfigIndex.Proofs.Command.Gather
import ConfigIndex.Proofs.Command.Index
