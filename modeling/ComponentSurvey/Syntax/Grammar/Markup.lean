import ComponentSurvey.Syntax.Grammar.Types

/-!
# Markup

Elements, their attributes and their children.  Closing tags need not repeat the opening name.
Between tags everything is text but tags, braces and character references.
-/

namespace ComponentSurvey.Syntax.Grammar

open Reader

def commaExpression (g : Grammar) (ending : Ending) : Reader Node := do
  let first ← g.expression ending
  let ending := ending.inside
  let others ← many do
    if ← endsHere ending then refuse
    exactly ","
    g.expression ending
  if others.isEmpty then return first
  else return .mk .sequenceExpression none first.start (← stop) (first :: others)

def markupName (kind : Kind) : Reader Node := do
  let first ← leaf kind scanMarkupName
  if ← operatorIs ":" then
    nodeAfter .jsxNamespaceName (first.withKind .identifier) do
      mark ":"
      return [← leaf .identifier scanMarkupName]
  else return first

/-- Only a name without hyphens can be followed by members or type arguments. -/
def tagName : Reader (Node × Bool) := do
  let isPlain ← test do
    let hyphenated ← scanned scanMarkupName
    if hyphenated.contains '-' then refuse
  let first ← markupName .identifier
  if first.kind = .identifier && isPlain then
    let path ← nestedName first
    return (if path.kind = .nestedIdentifier then path.withKind .memberExpression else path, true)
  else return (first, false)

def embeddedExpression (g : Grammar) : Reader Node :=
  node .jsxExpression do
    mark "\x7b"
    let inner ← optionally (single (firstOf [g.spread .never, g.commaExpression .never]))
    mark "\x7d"
    return inner

def tagAttribute (g : Grammar) : Reader Node :=
  node .jsxAttribute do
    let name ← markupName .propertyIdentifier
    let value ← optionally do
      exactly "="
      single (firstOf [leaf .string scanAttributeString, g.embeddedExpression, g.element])
    return name :: value

def tagHead (g : Grammar) : Reader (List Node) := do
  let (name, isPlain) ← tagName
  let types ← if isPlain then optionally (single g.typeArguments) else pure []
  let attributes ← many (firstOf [g.tagAttribute, g.embeddedExpression])
  return name.withRole .name :: types ++ attributes

def closingElement : Reader Node :=
  node .jsxClosingElement do
    mark "</"
    let name ← optionally (single (inRole .name (Prod.fst <$> tagName)))
    mark ">"
    return name

def isMarkupText (c : Char) : Bool := !"<>\x7b\x7d&".toList.contains c

/-- Text between tags has no node of its own. -/
def textRun : Reader Unit := do
  let _ ← immediate fun text =>
    splitCount (text.takeWhile isMarkupText).length text

def referenceChild : Reader Node := do
  let first ← stop
  let _ ← immediate fun text => do splitCount (← referenceLength text) text
  return .mk .htmlCharacterReference none first (← stop) []

def markupChild (g : Grammar) : Reader (List Node) := do
  let text := (← get).rest
  if startsWith "<!--".toList text then
    opening
    return []
  match text with
  | '<' :: rest =>
    if startsWith ['/'] rest then refuse
    single g.element
  | '\x7b' :: _ => single g.embeddedExpression
  | '&' :: _ => single referenceChild
  | _ =>
    textRun
    return []

def anyElement (g : Grammar) : Reader Node := do
  let first ← start
  mark "<"
  let head ← optionally g.tagHead
  if ← skipIf (mark "/>") then
    return .mk .jsxSelfClosingElement none first (← stop) head
  else
    mark ">"
    let opening := Node.mk .jsxOpeningElement (some .openTag) first (← stop) head
    let children ← many g.markupChild
    let closing ← closingElement
    return .mk .jsxElement none first (← stop) (opening :: children.flatten ++ [closing])

end ComponentSurvey.Syntax.Grammar
