/-
**The formats of generated documentation.**

* `ofName?`: the format of a name in a settings file;
* `parse`: the format of a name on the command line, in any case.
-/

import ExtensionCatalog.Document
import ExtensionCatalog.Text.Blank

namespace ExtensionCatalog

/-- A format of generated documentation. -/
inductive OutputFormat where
  /-- One XML document. -/
  | xml
  /-- One properties document for each extension. -/
  | properties
  /-- One JSON document. -/
  | json
deriving DecidableEq, Inhabited

namespace OutputFormat

def all : List OutputFormat := [xml, properties, json]

def name : OutputFormat → String
  | xml => "xml"
  | properties => "properties"
  | json => "json"

/-- The format of a name. -/
def ofName? (name : String) : Option OutputFormat := all.find? (·.name == name)

def ofDocument? (dialect : Document.Dialect) : Document → Option OutputFormat :=
  Document.readChoice dialect ofName?

/-- The format of a name in any case, or what is wrong with the name. -/
def parse (text : String) : Except String OutputFormat :=
  let name := Text.asciiLowercase text
  match ofName? name with
  | some format => .ok format
  | none => .error s!"unknown output format '{name}' (expected xml, properties or json)"

end OutputFormat

end ExtensionCatalog
