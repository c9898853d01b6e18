import SvgComponent.Arguments
import SvgComponent.Compile
import SvgComponent.Component.Naming
import SvgComponent.Component.Template
import SvgComponent.Config.Basic
import SvgComponent.Config.Comments
import SvgComponent.Config.Fields
import SvgComponent.Config.Load
import SvgComponent.Conversion.Basic
import SvgComponent.Conversion.Optimizer
import SvgComponent.Conversion.Plan
import SvgComponent.Css.Declaration
import SvgComponent.Css.Token
import SvgComponent.Decimal.Shortest
import SvgComponent.Disk.Basic
import SvgComponent.Disk.Files
import SvgComponent.Disk.Folders
import SvgComponent.Disk.Following
import SvgComponent.Json.Fault
import SvgComponent.Json.Number
import SvgComponent.Json.Numeral
import SvgComponent.Json.Quoted
import SvgComponent.Json.Reader
import SvgComponent.Json.Unquote
import SvgComponent.Json.Value
import SvgComponent.Jsx.Props
import SvgComponent.Jsx.Render
import SvgComponent.Main
import SvgComponent.Markup.Attribute
import SvgComponent.Markup.Document
import SvgComponent.Markup.Reference
import SvgComponent.Markup.Token
import SvgComponent.OrderedMap
import SvgComponent.Path
import SvgComponent.Proofs.Compile.Accounting
import SvgComponent.Proofs.Compile.Components
import SvgComponent.Proofs.Compile.File
import SvgComponent.Proofs.Compile.Folder
import SvgComponent.Proofs.Compile.Independence
import SvgComponent.Proofs.Compile.Outcomes
import SvgComponent.Proofs.Compile.Schedule
import SvgComponent.Proofs.Compile.Tracing
import SvgComponent.Proofs.Component.Filling
import SvgComponent.Proofs.Component.Naming
import SvgComponent.Proofs.Component.Pieces
import SvgComponent.Proofs.Config.Comments
import SvgComponent.Proofs.Config.Fields
import SvgComponent.Proofs.Config.Lines
import SvgComponent.Proofs.Config.Loading
import SvgComponent.Proofs.Config.Transparency
import SvgComponent.Proofs.Conversion.AttributeNames
import SvgComponent.Proofs.Conversion.Capture
import SvgComponent.Proofs.Conversion.Components
import SvgComponent.Proofs.Conversion.Pipeline
import SvgComponent.Proofs.Conversion.Reformatting
import SvgComponent.Proofs.Css.Brackets
import SvgComponent.Proofs.Css.Closing
import SvgComponent.Proofs.Css.Edges
import SvgComponent.Proofs.Css.Gaps
import SvgComponent.Proofs.Css.Joining
import SvgComponent.Proofs.Css.Names
import SvgComponent.Proofs.Css.Settling
import SvgComponent.Proofs.Css.Writing
import SvgComponent.Proofs.Disk.Folders
import SvgComponent.Proofs.Disk.Paths
import SvgComponent.Proofs.Disk.Reading
import SvgComponent.Proofs.Disk.Walking
import SvgComponent.Proofs.Disk.Writing
import SvgComponent.Proofs.Json.Agreement
import SvgComponent.Proofs.Json.Cursors
import SvgComponent.Proofs.Json.Grammar
import SvgComponent.Proofs.Json.Numerals
import SvgComponent.Proofs.Json.Quotes
import SvgComponent.Proofs.Json.Quoting
import SvgComponent.Proofs.Json.Reading
import SvgComponent.Proofs.Json.Respacing
import SvgComponent.Proofs.Json.Spelling
import SvgComponent.Proofs.Json.Values
import SvgComponent.Proofs.Jsx.Content
import SvgComponent.Proofs.Jsx.Decoding
import SvgComponent.Proofs.Jsx.Expression
import SvgComponent.Proofs.Jsx.Faults
import SvgComponent.Proofs.Jsx.Literal
import SvgComponent.Proofs.Jsx.Moving
import SvgComponent.Proofs.Jsx.Names
import SvgComponent.Proofs.Jsx.Opening
import SvgComponent.Proofs.Jsx.Overrides
import SvgComponent.Proofs.Jsx.Rendering
import SvgComponent.Proofs.Jsx.Segments
import SvgComponent.Proofs.Markup.Assembly
import SvgComponent.Proofs.Markup.Event
import SvgComponent.Proofs.Markup.Failing
import SvgComponent.Proofs.Markup.Lexing
import SvgComponent.Proofs.Markup.Mark
import SvgComponent.Proofs.Markup.Places
import SvgComponent.Proofs.Markup.Reading
import SvgComponent.Proofs.Markup.Reference
import SvgComponent.Proofs.Markup.Reformatting
import SvgComponent.Proofs.Markup.Restoring
import SvgComponent.Proofs.Markup.Tag
import SvgComponent.Proofs.Markup.Whole
import SvgComponent.Proofs.Markup.Writing
import SvgComponent.Proofs.Pairs.Repeated
import SvgComponent.Proofs.Path.Joining
import SvgComponent.Proofs.Path.Normal
import SvgComponent.Proofs.Path.Stem
import SvgComponent.Proofs.Script.Literals
import SvgComponent.Proofs.Script.Operands
import SvgComponent.Proofs.Script.Parsing
import SvgComponent.Proofs.Script.Quoting
import SvgComponent.Proofs.Script.Tokens
import SvgComponent.Proofs.Stage.Prefixes
import SvgComponent.Proofs.Stage.Preset
import SvgComponent.Proofs.Stage.References
import SvgComponent.Proofs.Style.Keys
import SvgComponent.Proofs.Style.Object
import SvgComponent.Proofs.Target.Attributes
import SvgComponent.Proofs.Target.Elements
import SvgComponent.Proofs.Text.Casing
import SvgComponent.Proofs.Text.Lines
import SvgComponent.Proofs.Text.Marks
import SvgComponent.Proofs.Text.Replacing
import SvgComponent.Proofs.Text.Runs
import SvgComponent.Proofs.Text.Slicing
import SvgComponent.Proofs.Tree.Addresses
import SvgComponent.Proofs.Tree.Exchanges
import SvgComponent.Proofs.Tree.Fates
import SvgComponent.Proofs.Tree.Retaining
import SvgComponent.Proofs.Tree.Searching
import SvgComponent.Proofs.Tree.Sifting
import SvgComponent.Proofs.Tree.Spans
import SvgComponent.Proofs.Tree.Visiting
import SvgComponent.Proofs.Tree.Visits
import SvgComponent.Report
import SvgComponent.Run
import SvgComponent.Script.Expression
import SvgComponent.Script.Fault
import SvgComponent.Script.Grammar.Basic
import SvgComponent.Script.Grammar.Class
import SvgComponent.Script.Grammar.Function
import SvgComponent.Script.Grammar.Operand
import SvgComponent.Script.Grammar.Operator
import SvgComponent.Script.Grammar.Statement
import SvgComponent.Script.Module
import SvgComponent.Script.Token
import SvgComponent.Stage.Basic
import SvgComponent.Stage.Builtin
import SvgComponent.Stage.Spec
import SvgComponent.Style
import SvgComponent.Target.Basic
import SvgComponent.Target.Names
import SvgComponent.Target.Stage
import SvgComponent.Text.Blank
import SvgComponent.Text.Casing
import SvgComponent.Text.Cut
import SvgComponent.Text.Identifier
import SvgComponent.Text.LineIndex
import SvgComponent.Text.Position
import SvgComponent.Text.Ranges
import SvgComponent.Text.Replace
import SvgComponent.Text.Slice
import SvgComponent.Text.Visible
import SvgComponent.Tree.Basic
import SvgComponent.Tree.Visit
