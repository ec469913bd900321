import SolidityTree.CompilerOutput
import SolidityTree.Decode
import SolidityTree.Decode.Field
import SolidityTree.Decode.Threaded
import SolidityTree.Failure
import SolidityTree.Files
import SolidityTree.Functions
import SolidityTree.Group
import SolidityTree.Json
import SolidityTree.Json.Reader
import SolidityTree.Json.Scalar
import SolidityTree.Keccak
import SolidityTree.Kind
import SolidityTree.Location
import SolidityTree.Log
import SolidityTree.Modifiers
import SolidityTree.Node
import SolidityTree.Outcome
import SolidityTree.Selector
import SolidityTree.Session
import SolidityTree.Settings
import SolidityTree.Settings.File
import SolidityTree.Settings.Reader
import SolidityTree.Spinner
import SolidityTree.Text.Blank
import SolidityTree.Text.Bytes
import SolidityTree.Text.Decimal
import SolidityTree.Text.Pieces
import SolidityTree.Text.Printable
import SolidityTree.Text.Quoted
import SolidityTree.Text.Template
import SolidityTree.Text.Utf8
import SolidityTree.Walk
import SolidityTree.Yaml
import SolidityTree.Yaml.Glyph
import SolidityTree.Yaml.Resolve
import SolidityTree.Yaml.Scalar
import SolidityTree.Yaml.Token
import SolidityTree.Proofs.Descent
import SolidityTree.Proofs.Pieces
import SolidityTree.Proofs.Member
import SolidityTree.Proofs.DepthLimit
import SolidityTree.Proofs.Place
import SolidityTree.Proofs.Grammar
import SolidityTree.Proofs.WellFormed
import SolidityTree.Proofs.Utf8
import SolidityTree.Proofs.Writing
import SolidityTree.Proofs.Rendering
import SolidityTree.Proofs.Reports
import SolidityTree.Proofs.UnknownTags
import SolidityTree.Proofs.Blame
import SolidityTree.Proofs.OwnText
import SolidityTree.Proofs.Blank
import SolidityTree.Proofs.Sections
import SolidityTree.Proofs.Threaded
import SolidityTree.Proofs.Composition
import SolidityTree.Proofs.Agreement
import SolidityTree.Proofs.Variants
import SolidityTree.Proofs.Spacing
import SolidityTree.Proofs.NullMember
import SolidityTree.Proofs.Owner
import SolidityTree.Proofs.Routing
import SolidityTree.Proofs.SessionRun
import SolidityTree.Proofs.ReportLine
import SolidityTree.Proofs.SpinnerRun
import SolidityTree.Proofs.EntryPoints
import SolidityTree.Proofs.Splitting
import SolidityTree.Proofs.Group
import SolidityTree.Proofs.Schedules
import SolidityTree.Proofs.SideBySide
import SolidityTree.Proofs.LineEndings
import SolidityTree.Proofs.Preorder
import SolidityTree.Proofs.OwnerStack
import SolidityTree.Proofs.Counts
import SolidityTree.Proofs.Lookup
import SolidityTree.Proofs.Interval
import SolidityTree.Proofs.Location
import SolidityTree.Proofs.SettingsValue
import SolidityTree.Proofs.SettingsLibrary
import SolidityTree.Proofs.SettingsReader
import SolidityTree.Proofs.SettingsText
import SolidityTree.Proofs.Choices
import SolidityTree.Proofs.EightDigits
