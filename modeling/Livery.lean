import Livery.Brush
import Livery.Catalog
import Livery.Catalog.Encoding
import Livery.Catalog.Loading
import Livery.Catalog.Validation
import Livery.Chrome
import Livery.Color
import Livery.Color.Named
import Livery.Color.System
import Livery.ColorSet
import Livery.Extension
import Livery.Font
import Livery.Grammar
import Livery.Grammar.Definition
import Livery.Grammar.Reading
import Livery.GrammarTable
import Livery.Journal
import Livery.Json.Decoder
import Livery.Json.Reading
import Livery.Json.Value
import Livery.Libraries
import Livery.Markup.Charset
import Livery.Markup.Charset.CodePage
import Livery.Markup.Content
import Livery.Markup.Entity
import Livery.Markup.Fault
import Livery.Markup.Lexeme
import Livery.Markup.Scope
import Livery.Markup.Tag
import Livery.NameMap
import Livery.Notice
import Livery.Overlay.Document
import Livery.Overlay.Fault
import Livery.Overlay.Loading
import Livery.Overlay.Model
import Livery.Overlay.Reading
import Livery.Overlay.Resolution
import Livery.Overlay.Styling
import Livery.Overlay.Writing
import Livery.Position
import Livery.Proofs.Acceptance
import Livery.Proofs.Application
import Livery.Proofs.Attributes
import Livery.Proofs.Caches
import Livery.Proofs.Contents
import Livery.Proofs.Degradation
import Livery.Proofs.Demand
import Livery.Proofs.Foreign
import Livery.Proofs.Format
import Livery.Proofs.Frame
import Livery.Proofs.History
import Livery.Proofs.Integrity
import Livery.Proofs.Isolation
import Livery.Proofs.Layout
import Livery.Proofs.Ledger
import Livery.Proofs.Lines
import Livery.Proofs.Literals
import Livery.Proofs.Moves
import Livery.Proofs.Once
import Livery.Proofs.Openings
import Livery.Proofs.Pairs
import Livery.Proofs.Places
import Livery.Proofs.ReadBack
import Livery.Proofs.Resolution
import Livery.Proofs.RoundTrip
import Livery.Proofs.Scanning
import Livery.Proofs.Source
import Livery.Proofs.Strictness
import Livery.Proofs.Styles
import Livery.Proofs.Twins
import Livery.Proofs.Validation
import Livery.Proofs.Warnings
import Livery.Registry
import Livery.Registry.Run
import Livery.Resource.FileTree
import Livery.Resource.MemoryStore
import Livery.ResourceTable
import Livery.Text.Blank
import Livery.Text.Decimal
import Livery.Text.Hex
import Livery.Text.Printable
import Livery.Text.Quoted
import Livery.Text.Split
import Livery.Text.Utf8
import Livery.Theme
import Livery.Theme.Run
import Livery.ThemeError
import Livery.Token
import Livery.Proofs.CatalogText
import Livery.Proofs.Offsets
import Livery.Proofs.Relocation
import Livery.Proofs.ByteOrderMark
import Livery.Proofs.Failures
import Livery.Proofs.Heading
import Livery.ColorSet.Run
import Livery.Proofs.Boundaries
import Livery.Proofs.Epilog
import Livery.Proofs.LifeCycle
import Livery.Proofs.Ownership
import Livery.Proofs.Composition
import Livery.Color.InPlace
import Livery.Proofs.BrushGrammar
import Livery.Proofs.Gathering
import Livery.Proofs.Tinting
import Livery.Proofs.StyleCalls
import Livery.Proofs.Search
import Livery.Proofs.Recoloring
import Livery.Proofs.Defects
import Livery.Proofs.Declarations
import Livery.Font.Word
import Livery.Proofs.Weights
import Livery.Proofs.Blanks
import Livery.Proofs.Extensions
import Livery.Proofs.Keys
import Livery.Position.LineIndex
import Livery.Proofs.LineStarts
import Livery.Markup.Cursor
import Livery.Overlay.Pulling
import Livery.Proofs.Balance
