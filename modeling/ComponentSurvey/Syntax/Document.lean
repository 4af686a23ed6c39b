import ComponentSurvey.Syntax.Grammar
import ComponentSurvey.Syntax.Walk
import ComponentSurvey.Text.Words

/-!
# Documents

A text together with the path it belongs to and its syntax tree, whose nodes lie in order inside
one another and inside the text.  Only a text that parses as a whole becomes a document.
-/

namespace ComponentSurvey.Syntax

open Text

structure Document where
  path : String
  source : List Char
  root : Node
  ordered : root.isOrdered = true
  stop_le : root.stop ≤ byteLength source

def isQuote (c : Char) : Bool := c = '"' || c = '\'' || c = '\x60'

namespace Document

def parse? (dialect : Dialect) (path : String) (source : List Char) : Option Document :=
  (readProgram dialect source).bind fun root =>
    if placed : root.isOrdered = true ∧ root.stop ≤ byteLength source then
      some ⟨path, source, root, placed.1, placed.2⟩
    else none

/-- Component files are read with markup whatever they are called. -/
def ofComponentFile? (path : String) (source : List Char) : Option Document :=
  parse? .markup path source

def chars (document : Document) (node : Node) : List Char :=
  slice document.source node.start node.stop

def text (document : Document) (node : Node) : String :=
  String.ofList (document.chars node)

/-- The content of a string: its text without any quotes at the ends. -/
def stringValue (document : Document) (node : Node) : String :=
  String.ofList (trimBoth isQuote (document.chars node))

def position (document : Document) (node : Node) : Nat × Nat :=
  lineColumn document.source node.start

def line (document : Document) (node : Node) : Nat := (document.position node).1

def sites (document : Document) : List Site :=
  (Walker.visitAll document.root).map Walker.site

def nodes (document : Document) : List Node := document.sites.map Site.node

def sitesOfKind (document : Document) (kind : Kind) : List Site :=
  document.sites.filter fun site => site.node.kind = kind

def nodesOfKind (document : Document) (kind : Kind) : List Node :=
  (document.sitesOfKind kind).map Site.node

end Document

end ComponentSurvey.Syntax
