import MarkupText.Console.Run
import MarkupText.Decimal.Fixed
import MarkupText.Flow.Insert
import MarkupText.Main
import MarkupText.Options
import MarkupText.Pattern.Match
import MarkupText.Pattern.Reader
import MarkupText.Render.Descent
import MarkupText.Rendered
import MarkupText.Style.Percentage
import MarkupText.Style.Stack
import MarkupText.Table.Cache
import MarkupText.Table.Grid
import MarkupText.Table.Widths
import MarkupText.Tree.Interchange
import MarkupText.Tree.Signature
import MarkupText.Tree.Walk
import MarkupText.Proofs.Buffer.LineRequests
import MarkupText.Proofs.Color.HexNotation
import MarkupText.Proofs.Console.Styled
import MarkupText.Proofs.Flow.Leaves
import MarkupText.Proofs.Flow.Rounds
import MarkupText.Proofs.Flow.Verbatim
import MarkupText.Proofs.LineBreak.SearchOrder
import MarkupText.Proofs.Render.Blocks
import MarkupText.Proofs.Render.Coloring
import MarkupText.Proofs.Render.Context
import MarkupText.Proofs.Render.FilledSpans
import MarkupText.Proofs.Render.Fills
import MarkupText.Proofs.Render.Marked
import MarkupText.Proofs.Render.Neat
import MarkupText.Proofs.Render.Numbering
import MarkupText.Proofs.Render.Once
import MarkupText.Proofs.Render.Reuse
import MarkupText.Proofs.Style.Cascade
import MarkupText.Proofs.Table.Aligned
import MarkupText.Proofs.Table.Apportionment
import MarkupText.Proofs.Table.Intact
import MarkupText.Proofs.Tree.Loading
import MarkupText.Proofs.Tree.Preorder
import MarkupText.Proofs.Tree.Unfolding
