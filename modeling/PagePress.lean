import PagePress.Text.Blank
import PagePress.Text.Lines
import PagePress.Text.Escape
import PagePress.OrderedMap
import PagePress.Json.Reader
import PagePress.Expression.Stored
import PagePress.Expression.Grammar
import PagePress.Expression.Statement
import PagePress.LineBuffer
import PagePress.Page.Basic
import PagePress.DataSource
import PagePress.Publication.Publisher
import PagePress.FilePath
import PagePress.Cli.Arguments
import PagePress.Cli.FileTree
import PagePress.Main
import PagePress.Proofs.TreeCosts
import PagePress.Proofs.Nesting.Rendering
import PagePress.Proofs.Numbering.Publication
import PagePress.Proofs.Publication.Locality
import PagePress.Proofs.Visibility
import PagePress.Proofs.Publication.Composition
import PagePress.Proofs.Naming.Sessions
import PagePress.Proofs.Naming.States
import PagePress.Proofs.Typing
import PagePress.Proofs.Stored.Documents
import PagePress.Proofs.Publication.Sidecars
import PagePress.Proofs.FrontMatter
import PagePress.Proofs.OneLine
import PagePress.Proofs.Permalinks
import PagePress.Proofs.Publication.Addresses
import PagePress.Proofs.Address
import PagePress.Proofs.PaginationPath
import PagePress.Proofs.Cli.Confinement
import PagePress.Proofs.GrammarFaults
import PagePress.Proofs.Blocks
import PagePress.Proofs.Scalars
import PagePress.Proofs.Cli.Documents
import PagePress.Proofs.DataFile.Payloads
import PagePress.Proofs.DataFile.Brackets
import PagePress.Proofs.DataFile.Flavours
import PagePress.Proofs.StoredSettings
import PagePress.Proofs.Attributes.Merging
import PagePress.Proofs.Attributes.Values
import PagePress.Proofs.Slugs
import PagePress.Proofs.Routes
import PagePress.Proofs.Roles
import PagePress.Proofs.Colours
import PagePress.Proofs.Layers
import PagePress.Proofs.Indentation
import PagePress.Proofs.FixedValues
