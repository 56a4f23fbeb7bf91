import BlockHue.BuiltIn
import BlockHue.Color
import BlockHue.Command
import BlockHue.Comprehension
import BlockHue.Depth
import BlockHue.Error
import BlockHue.FileName
import BlockHue.FileTree
import BlockHue.Highlighter
import BlockHue.Keyword
import BlockHue.LazyList
import BlockHue.Main
import BlockHue.Options
import BlockHue.Pattern.Basic
import BlockHue.Pattern.CharSet
import BlockHue.Pattern.Dialect
import BlockHue.Pattern.Look
import BlockHue.Pattern.Read
import BlockHue.Pattern.Read.Class
import BlockHue.Pattern.Read.Escape
import BlockHue.Pattern.Read.Flags
import BlockHue.Pattern.Read.Group
import BlockHue.Pattern.Search
import BlockHue.Pattern.Standard
import BlockHue.Pattern.Stream
import BlockHue.Position
import BlockHue.Profile
import BlockHue.Profile.Decode
import BlockHue.Proofs.Depth
import BlockHue.Proofs.Keyword
import BlockHue.Proofs.Nesting
import BlockHue.Proofs.Pattern.Ahead
import BlockHue.Proofs.Place
import BlockHue.Proofs.Region
import BlockHue.Proofs.Stream
import BlockHue.Region
import BlockHue.Registry
import BlockHue.Render
import BlockHue.Scan
import BlockHue.Settings
import BlockHue.Text.Case
import BlockHue.Text.Letter
import BlockHue.Text.Space
import BlockHue.Text.Width
import BlockHue.Token
import BlockHue.Word
import BlockHue.Toml.Blank
import BlockHue.Toml.Date
import BlockHue.Toml.Number
import BlockHue.Toml.Read
import BlockHue.Toml.Table
import BlockHue.Toml.Text
import BlockHue.Toml.Value
import BlockHue.Proofs.Visibility
import BlockHue.Proofs.Pattern.Words
import BlockHue.Proofs.Render
import BlockHue.Proofs.BuiltIn
import BlockHue.Proofs.Kept
import BlockHue.Proofs.Pattern.Read.Parts
import BlockHue.Proofs.Pattern.Read.Class
import BlockHue.Proofs.Pattern.Read.Steps
import BlockHue.Proofs.Pattern.Read.Leak
import BlockHue.Proofs.Pattern.Read.Onward
import BlockHue.Proofs.Pattern.Read.Alternation
import BlockHue.Proofs.Boundary
import BlockHue.Proofs.Delimiter
import BlockHue.Proofs.Segment
import BlockHue.Proofs.Plain
import BlockHue.Proofs.Alike
import BlockHue.Proofs.Interference
import BlockHue.Proofs.Separate
import BlockHue.Proofs.Document.Forest
import BlockHue.Proofs.Toml
import BlockHue.Proofs.Log
import BlockHue.Proofs.Output
import BlockHue.Proofs.Literal
import BlockHue.Proofs.Pattern.Earliest
import BlockHue.Proofs.Cached
import BlockHue.Proofs.Cursor
import BlockHue.Proofs.Walk
import BlockHue.Proofs.Pattern.Read.Literal
import BlockHue.Proofs.Lexer
import BlockHue.Proofs.Inserted
import BlockHue.Proofs.Validity
import BlockHue.Proofs.Pattern.Shift
import BlockHue.Proofs.Anchor
import BlockHue.Proofs.Text
import BlockHue.Proofs.Settings
import BlockHue.Proofs.Override
import BlockHue.Proofs.Palette
import BlockHue.Proofs.Options
import BlockHue.Proofs.Ranges
