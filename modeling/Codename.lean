import Codename.Alias.Binding
import Codename.Catalog.Format
import Codename.Check.Basic
import Codename.Check.Format
import Codename.Cli.Arguments
import Codename.Files.Tree
import Codename.Main
import Codename.Mapping.File
import Codename.Mapping.Format
import Codename.Session.Config
import Codename.Session.Shelf
import Codename.Substitution.Basic
import Codename.Proofs.KeyedList
import Codename.Proofs.Text.Segment
import Codename.Proofs.Text.Wordwise
import Codename.Proofs.Text.References
import Codename.Proofs.Mapping.Names
import Codename.Proofs.Alias.Scan
import Codename.Proofs.Alias.Table
import Codename.Proofs.Substitution.Columns
import Codename.Proofs.Substitution.Steps
import Codename.Proofs.Substitution.Restore
import Codename.Proofs.Substitution.Idempotence
import Codename.Proofs.Check.Names
import Codename.Proofs.Check.Encrypt
import Codename.Proofs.Substitution.Kept
import Codename.Proofs.Substitution.Extension
import Codename.Proofs.Substitution.Qualified
import Codename.Proofs.Check.Passed
import Codename.Proofs.Substitution.Renaming
import Codename.Proofs.Check.Report
import Codename.Proofs.Session.Call
import Codename.Proofs.Session.Request
import Codename.Proofs.Session.Loads
import Codename.Proofs.Session.Invariant
import Codename.Proofs.Session.Selection
import Codename.Proofs.Session.Selected
import Codename.Proofs.Json.Spacing
import Codename.Proofs.Json.Grammar
import Codename.Proofs.Json.Reading
import Codename.Proofs.Json.Documents
import Codename.Proofs.Files.Tree
import Codename.Proofs.Files.Documents
import Codename.Proofs.Session.Alike
import Codename.Proofs.Session.Stores
import Codename.Proofs.Session.Order
import Codename.Proofs.Session.Restart
import Codename.Proofs.Session.Held
import Codename.Proofs.Text.Replacement
import Codename.Proofs.Alias.Tokens
import Codename.Proofs.Alias.Grammar
import Codename.Proofs.Alias.Separation
import Codename.Proofs.Files.Frame
import Codename.Proofs.Session.Files
import Codename.Proofs.Cli.Commands
import Codename.Proofs.Cli.Route
import Codename.Proofs.Substitution.Annotate
import Codename.Proofs.Substitution.Temporary
import Codename.Proofs.Mapping.Index
import Codename.Proofs.Mapping.Patterns
import Codename.Proofs.Mapping.Repeated
import Codename.Proofs.Files.Path
import Codename.Proofs.Text.Matches
import Codename.Proofs.Alias.Lexemes
