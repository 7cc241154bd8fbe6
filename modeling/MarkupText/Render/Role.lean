import MarkupText.Span
import MarkupText.Tag

/-!
# Roles of elements

How an element is rendered depends only on its role; elements without one of their own, unknown ones
included, just show their children.
-/

namespace MarkupText

/-- What an element does to its content. -/
inductive Role where
  | inline
  /-- Nothing inside is shown. -/
  | hidden
  /-- Only a title inside is shown. -/
  | head
  /-- Blank lines around. -/
  | paragraph
  /-- Lines of its own. -/
  | block
  | lineBreak
  | ruler
  | heading
  | link
  | image
  /-- Sound or film, shown by a label if it has a source. -/
  | media (label : String)
  | list (numbered : Bool)
  | item
  | quote
  /-- An indented block. -/
  | definition
  | preformatted
  | table
  | face (face : Face)
deriving DecidableEq

/-- The role of an element. -/
def Tag.role : Tag → Role
  | .head => .head
  | .script | .style | .template => .hidden
  | .p | .dl => .paragraph
  | .div | .center | .sectionPart | .article | .header | .footer | .mainPart | .nav | .aside
  | .figure | .dt => .block
  | .br => .lineBreak
  | .hr => .ruler
  | .h1 | .h2 | .h3 | .h4 | .h5 | .h6 | .title => .heading
  | .a => .link
  | .img => .image
  | .audio => .media "[audio]"
  | .video => .media "[video]"
  | .ul => .list false
  | .ol => .list true
  | .li => .item
  | .blockquote => .quote
  | .dd => .definition
  | .pre => .preformatted
  | .table => .table
  | .th | .b | .strong => .face .bold
  | .i | .em | .cite | .var => .face .italic
  | .u | .ins => .face .underline
  | .s | .strike | .del => .face .strikethrough
  | .code | .tt | .kbd | .samp => .face .monospace
  | .body | .caption | .font | .html | .span | .tbody | .td | .tfoot | .thead | .tr | .unknown =>
    .inline

end MarkupText
