/-
**XML documents: elements and their written form.**

An element holds nothing, a text, or other elements. Every element starts a line of its own,
indented by four spaces for each element around it; a text stands on the line of its element.

* `escapeText`: the characters of a text that markup would change are written as references;
* `renderAt`: the lines of an element at a depth;
* `renderDocument`: the declaration and the root element.
-/

namespace ExtensionCatalog.Xml

/-- An element without attributes. -/
inductive Element where
  | empty (name : String)
  | text (name content : String)
  | block (name : String) (children : List Element)
deriving Inhabited

/-- An element with a text, or an empty one if there is none. -/
def Element.ofText? (name : String) : Option String → Element
  | some content => .text name content
  | none => .empty name

/-- An element with children, or an empty one if there are none. -/
def Element.ofChildren (name : String) : List Element → Element
  | [] => .empty name
  | children => .block name children

/-- One character of a text as it is written. -/
def escapeChar : Char → List Char
  | '&' => "&amp;".toList
  | '<' => "&lt;".toList
  | '>' => "&gt;".toList
  | '"' => "&quot;".toList
  | '\'' => "&apos;".toList
  | '\r' => "&#13;".toList
  | c => [c]

def escapeText (text : List Char) : List Char := text.flatMap escapeChar

/-- The space before an element. -/
def indentation (depth : Nat) : List Char := List.replicate (4 * depth) ' '

def startTag (name : String) : List Char := '<' :: name.toList ++ ['>']

def endTag (name : String) : List Char := '<' :: '/' :: name.toList ++ ['>']

def emptyTag (name : String) : List Char := '<' :: name.toList ++ ['/', '>']

mutual

/-- The lines of an element at a depth. -/
def renderAt (depth : Nat) : Element → List Char
  | .empty name => indentation depth ++ emptyTag name ++ ['\n']
  | .text name content =>
    indentation depth ++ startTag name ++ escapeText content.toList ++ endTag name ++ ['\n']
  | .block name children =>
    indentation depth ++ startTag name ++ ['\n'] ++ renderAll (depth + 1) children ++
      indentation depth ++ endTag name ++ ['\n']

/-- The lines of elements side by side. -/
def renderAll (depth : Nat) : List Element → List Char
  | [] => []
  | first :: rest => renderAt depth first ++ renderAll depth rest

end

/-- The line before the root element. -/
def declaration : String := "<?xml version=\"1.0\" encoding=\"UTF-8\"?>\n"

/-- The document of a root element. -/
def renderDocument (root : Element) : String :=
  String.ofList (declaration.toList ++ renderAt 0 root)

end ExtensionCatalog.Xml
