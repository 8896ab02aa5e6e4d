import DocPages.Compile.Batch
import DocPages.Compile.Cache
import DocPages.Compile.Cached
import DocPages.Compile.Collaborators
import DocPages.Compile.Error
import DocPages.Compile.Page
import DocPages.Compile.Traced
import DocPages.Demo.Component
import DocPages.Demo.Fence
import DocPages.Demo.Find
import DocPages.Demo.Generate
import DocPages.Demo.Parts
import DocPages.Demo.Payload
import DocPages.Demo.Vanilla
import DocPages.FrontMatter.Block
import DocPages.FrontMatter.Error
import DocPages.HeaderText
import DocPages.Heading.Anchors
import DocPages.Heading.CustomId
import DocPages.Heading.Header
import DocPages.Heading.Outline
import DocPages.Heading.PlainText
import DocPages.Heading.RawTag
import DocPages.Heading.Slug
import DocPages.Heading.Slugger
import DocPages.Json.Basic
import DocPages.Json.Printer
import DocPages.Json.Reader
import DocPages.Markdown.Block.Code
import DocPages.Markdown.Block.Container
import DocPages.Markdown.Block.Flow
import DocPages.Markdown.Block.Heading
import DocPages.Markdown.Block.List
import DocPages.Markdown.Block.Markup
import DocPages.Markdown.Block.Page
import DocPages.Markdown.Block.Paragraph
import DocPages.Markdown.Block.Pending
import DocPages.Markdown.Block.Scan
import DocPages.Markdown.Block.Table
import DocPages.Markdown.CharacterReference
import DocPages.Markdown.Entity
import DocPages.Markdown.Event
import DocPages.Markdown.Flavor
import DocPages.Markdown.Html
import DocPages.Markdown.Html.Loose
import DocPages.Markdown.Html.Note
import DocPages.Markdown.Html.Writer
import DocPages.Markdown.Inline.Address
import DocPages.Markdown.Inline.Bracket
import DocPages.Markdown.Inline.Code
import DocPages.Markdown.Inline.Data
import DocPages.Markdown.Inline.Emphasis
import DocPages.Markdown.Inline.Plain
import DocPages.Markdown.Inline.Running
import DocPages.Markdown.Inline.Tag
import DocPages.Markdown.Inline.Target
import DocPages.Markdown.Key
import DocPages.Markdown.Node
import DocPages.Markdown.Reading
import DocPages.Markdown.Slot
import DocPages.Markdown.TagEnd
import DocPages.Markdown.Tree
import DocPages.Markdown.Url
import DocPages.Markup.Context
import DocPages.Markup.Edit
import DocPages.Markup.StartTag
import DocPages.Number.Binary64
import DocPages.Number.Power
import DocPages.Number.Shortest
import DocPages.Options.Batch
import DocPages.Options.Compiler
import DocPages.Options.Markdown
import DocPages.Options.Record
import DocPages.Page.FileTime
import DocPages.Page.Metadata
import DocPages.Page.Path
import DocPages.Page.Rendered
import DocPages.Page.Show
import DocPages.Proofs.Cache.Lookup
import DocPages.Proofs.Cache.Recency
import DocPages.Proofs.Compile.Answers
import DocPages.Proofs.Compile.Cached
import DocPages.Proofs.Compile.Handed
import DocPages.Proofs.Compile.InTurn
import DocPages.Proofs.Compile.Interleaved
import DocPages.Proofs.Compile.Order
import DocPages.Proofs.Compile.Plan
import DocPages.Proofs.Compile.Stopped
import DocPages.Proofs.Compile.Tokens
import DocPages.Proofs.Compile.Workshop
import DocPages.Proofs.Demo.Attributes
import DocPages.Proofs.Demo.Delivered
import DocPages.Proofs.Demo.Elements
import DocPages.Proofs.Demo.FencedBlock
import DocPages.Proofs.Demo.First
import DocPages.Proofs.Demo.Fragments
import DocPages.Proofs.Demo.Language
import DocPages.Proofs.Demo.Payload
import DocPages.Proofs.Demo.Places
import DocPages.Proofs.Demo.Scripts
import DocPages.Proofs.Demo.Tags
import DocPages.Proofs.Demo.Untyped
import DocPages.Proofs.FrontMatter.Fences
import DocPages.Proofs.FrontMatter.LastBreaks
import DocPages.Proofs.HeaderText.CodeSpans
import DocPages.Proofs.HeaderText.Emphasis
import DocPages.Proofs.HeaderText.Escaped
import DocPages.Proofs.HeaderText.EscapedStars
import DocPages.Proofs.HeaderText.LineTags
import DocPages.Proofs.HeaderText.Links
import DocPages.Proofs.HeaderText.NestedMarks
import DocPages.Proofs.HeaderText.References
import DocPages.Proofs.HeaderText.Tags
import DocPages.Proofs.HeaderText.TagsByLine
import DocPages.Proofs.Heading.Allocation
import DocPages.Proofs.Heading.Blurred
import DocPages.Proofs.Heading.CustomIds
import DocPages.Proofs.Heading.Distinct
import DocPages.Proofs.Heading.Entries
import DocPages.Proofs.Heading.InStep
import DocPages.Proofs.Heading.Notes
import DocPages.Proofs.Heading.PlainTags
import DocPages.Proofs.Heading.RawTags
import DocPages.Proofs.Heading.Settled
import DocPages.Proofs.Heading.Shape
import DocPages.Proofs.Heading.Slugs
import DocPages.Proofs.Heading.Visits
import DocPages.Proofs.Heading.Words
import DocPages.Proofs.Json.Alike
import DocPages.Proofs.Json.Fields
import DocPages.Proofs.Json.Numerals
import DocPages.Proofs.Json.Printed
import DocPages.Proofs.Json.ReadBack
import DocPages.Proofs.Markup.Bits
import DocPages.Proofs.Markup.Stretches
import DocPages.Proofs.Number.Rounding
import DocPages.Proofs.Number.Shortest
import DocPages.Proofs.Page.Anchors
import DocPages.Proofs.Page.Blocks
import DocPages.Proofs.Page.Cut
import DocPages.Proofs.Page.Descriptions
import DocPages.Proofs.Page.FileTimes
import DocPages.Proofs.Page.Marks
import DocPages.Proofs.Page.Paths
import DocPages.Proofs.Page.Titles
import DocPages.Proofs.Text.Attribute
import DocPages.Proofs.Text.Base64
import DocPages.Proofs.Text.Breaks
import DocPages.Proofs.Text.Escaping
import DocPages.Proofs.Text.LetterCase
import DocPages.Proofs.Text.Lines
import DocPages.Proofs.Text.Search
import DocPages.Proofs.Text.Trim
import DocPages.Proofs.Yaml.BlockScalars
import DocPages.Proofs.Yaml.Brackets
import DocPages.Proofs.Yaml.Exchange
import DocPages.Proofs.Yaml.Lexing
import DocPages.Proofs.Yaml.Longer
import DocPages.Proofs.Yaml.Names
import DocPages.Proofs.Yaml.Parser
import DocPages.Proofs.Yaml.Places
import DocPages.Proofs.Yaml.Runs
import DocPages.Proofs.Yaml.Scalars
import DocPages.Proofs.Yaml.Values
import DocPages.TemplateTokens
import DocPages.Text.Attribute
import DocPages.Text.Base64
import DocPages.Text.Blank
import DocPages.Text.Digit
import DocPages.Text.Hidden
import DocPages.Text.LetterCase
import DocPages.Text.Punctuation
import DocPages.Text.Quoted
import DocPages.Text.Ranges
import DocPages.Text.Search
import DocPages.Yaml.Atom
import DocPages.Yaml.BlockScalar
import DocPages.Yaml.FlowScalar
import DocPages.Yaml.Fold
import DocPages.Yaml.Node
import DocPages.Yaml.Source
import DocPages.Yaml.TagName
import DocPages.Yaml.Token
import DocPages.Yaml.Value
