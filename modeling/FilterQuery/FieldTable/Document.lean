import FilterQuery.FieldTable.Basic
import FilterQuery.Yaml.Document

/-!
# Tables read from a document

A table is written as a YAML mapping, nested as deep as one likes: the keys on the way to a scalar, joined by
dots, are bound to the text of the scalar. So a field may be written below its scope or as one dotted key. A
null binds nothing. Where two ways lead to one key, the later binding holds.

Keys are strings, numbers or booleans, and so are the leaves. The first key or leaf that is not, in the order of
the document, is the error, a key coming before what it leads to.

Of a text that is not YAML the error has the reason. Its wording is that of the reader and no rule of tables, so it is
taken from outside, as a function `refusal` of the text.
-/

namespace FilterQuery

/-- Why a text is not a table of fields. -/
inductive TableError where
  /-- The text is not a YAML document, for the reason that the reader has. -/
  | malformed (reason : String)
  | notAMapping
  | sequence (path : String)
  | unsupportedKey (path : String) (key : Yaml.Value)
  | unsupportedValue (path : String) (value : Yaml.Value)
deriving Inhabited

namespace TableError

def expectedScalar (found : Yaml.Value) : String := "expected a scalar, found " ++ found.describe

/-- The messages of the error, the most general one first. -/
def messages : TableError → List String
  | malformed reason => ["Parse field mappings failed.", reason]
  | notAMapping => ["field mappings must be a YAML mapping at the top level"]
  | sequence path => ["sequences are not supported as field mappings (at '" ++ path ++ "')"]
  | unsupportedKey path key => ["unsupported key under '" ++ path ++ "'", expectedScalar key]
  | unsupportedValue path value => ["unsupported value at '" ++ path ++ "'", expectedScalar value]

end TableError

namespace FieldTable

/-- The key of a step below a path; the path of the whole document is empty. -/
def joinPath (path key : String) : String := if path.isEmpty then key else path ++ "." ++ key

mutual

/-- Adds what a value below a path binds. -/
def addValue (t : FieldTable) (path : String) : Yaml.Value → Except TableError FieldTable
  | .null => .ok t
  | .bool b => .ok (t.bind path (toString b))
  | .int n => .ok (t.bind path (toString n))
  | .float x => .ok (t.bind path (Yaml.Value.floatText x))
  | .string s => .ok (t.bind path s)
  | .sequence _ => .error (.sequence path)
  | .tagged tag v => .error (.unsupportedValue path (.tagged tag v))
  | .mapping entries => t.addEntries path entries

/-- Adds what the entries of a mapping at a path bind, in their order. -/
def addEntries (t : FieldTable) (path : String) :
    List (Yaml.Value × Yaml.Value) → Except TableError FieldTable
  | [] => .ok t
  | e :: es =>
    match t.addEntry path e with
    | .error e => .error e
    | .ok t => t.addEntries path es

def addEntry (t : FieldTable) (path : String) : Yaml.Value × Yaml.Value → Except TableError FieldTable
  | (k, v) =>
    match k.text? with
    | none => .error (.unsupportedKey path k)
    | some key => t.addValue (joinPath path key) v

end

/-- The table of a document: a mapping, or nothing at all. -/
def ofValue : Yaml.Value → Except TableError FieldTable
  | .null => .ok empty
  | .mapping entries => empty.addEntries "" entries
  | _ => .error .notAMapping

/-- The table that a text holds. A text without a document holds the empty one, and one that the reader refuses, with
the reason that `refusal` has for it, holds none. -/
def ofYaml (refusal : String → String) (text : String) : Except TableError FieldTable :=
  match Yaml.read? text with
  | none => .error (.malformed (refusal text))
  | some document => ofValue document

end FieldTable

end FilterQuery
