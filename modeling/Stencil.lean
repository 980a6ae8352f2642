import Stencil.Instruction.Inline
import Stencil.Element.Parser
import Stencil.Compile
import Stencil.Html.Escape
import Stencil.Buffer.Pool
import Stencil.Digest
import Stencil.Config
import Stencil.Main
import Stencil.Proofs.Inlining.Meaning
import Stencil.Proofs.Inlining.Static
import Stencil.Proofs.Html.Balance
import Stencil.Proofs.Template.RoundTrip
import Stencil.Proofs.Component.Joining
import Stencil.Proofs.Component.Silence
import Stencil.Proofs.Component.Escaping
import Stencil.Proofs.Code.BlankRuns
import Stencil.Proofs.Code.Routines
import Stencil.Proofs.Compile.BlankLines
import Stencil.Proofs.Compile.Comments
import Stencil.Proofs.Buffer.Pooling
import Stencil.Proofs.Cli.Identifiers
import Stencil.Proofs.Cli.Output
import Stencil.Proofs.Outline.Acceptance
import Stencil.Proofs.Outline.Numbering
import Stencil.Proofs.Element.Attributes
import Stencil.Proofs.Element.Readable
import Stencil.Proofs.Element.Entries
import Stencil.Proofs.Element.ExplicitAttributes
import Stencil.Proofs.Element.OpeningTag
import Stencil.Proofs.Nesting.Tokens
import Stencil.Proofs.Instruction.Canonical
import Stencil.Proofs.Nesting.Splitting
import Stencil.Proofs.Signature.RoundTrip
import Stencil.Proofs.Signature.Unclosed
import Stencil.Proofs.Code.JoinedBlocks
import Stencil.Proofs.Code.StringLiterals
import Stencil.Proofs.Buffer.Retention
import Stencil.Proofs.Html.Entities
