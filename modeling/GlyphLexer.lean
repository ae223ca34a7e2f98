import GlyphLexer.CommandLine.FileTree
import GlyphLexer.Main
import GlyphLexer.Proofs.Grammar.Lexeme
import GlyphLexer.Proofs.Grammar.Breakage
import GlyphLexer.Proofs.Grammar.Reader
import GlyphLexer.Proofs.Position
import GlyphLexer.Proofs.Segmentation
import GlyphLexer.Proofs.Scan.Cut
import GlyphLexer.Proofs.Scan.Acceptance
import GlyphLexer.Proofs.Scan.Lossless
import GlyphLexer.Proofs.Scan.Append
import GlyphLexer.Proofs.Scan.Stability
import GlyphLexer.Proofs.Scan.Spacing
import GlyphLexer.Proofs.Stepping
import GlyphLexer.Proofs.Encoding
import GlyphLexer.Proofs.Grammar.Recode
import GlyphLexer.Proofs.Scan.Bytes
import GlyphLexer.Proofs.Scan.LineEnds
import GlyphLexer.Proofs.Scan.Literals
import GlyphLexer.Proofs.Templates
import GlyphLexer.Proofs.Templates.Parts
import GlyphLexer.Proofs.Scan.Errors
import GlyphLexer.Proofs.Configuration
import GlyphLexer.Proofs.Configuration.Precedence
import GlyphLexer.Proofs.CommandLine.Outcome
import GlyphLexer.Proofs.Stepping.Calls
import GlyphLexer.Proofs.Stepping.Resumption
import GlyphLexer.Proofs.Stepping.Progress
import GlyphLexer.Proofs.CommandLine.Arguments
import GlyphLexer.Proofs.CommandLine.Dependence
import GlyphLexer.Proofs.CommandLine.Channels
import GlyphLexer.Proofs.Lines
import GlyphLexer.Proofs.Diagnostic
import GlyphLexer.Proofs.CommandLine.Grammar
import GlyphLexer.Proofs.CommandLine.InlineCode
import GlyphLexer.Proofs.CommandLine.Inputs
import GlyphLexer.Proofs.Listing.Decodability
import GlyphLexer.Proofs.Listing.LineByLine
import GlyphLexer.Proofs.Json.Grammar
import GlyphLexer.Proofs.Json.Scalars
import GlyphLexer.Proofs.Json.Decoder
import GlyphLexer.Proofs.Json.Layout
import GlyphLexer.Proofs.Listing.Documents
import GlyphLexer.Proofs.Scan.Printable
