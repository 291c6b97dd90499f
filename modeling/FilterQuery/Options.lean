import FilterQuery.Envelope
import FilterQuery.Expr.Parser
import FilterQuery.Text.Quoted

/-!
# Options of a request

Beside the filter a request has a select list, paging and a mode. They are read from JSON: from an object,
where a missing member has its default and an unknown one is ignored, or from an array of up to four values in
the order of the fields. The first value that does not fit its field is reported.
-/

namespace FilterQuery

structure QueryOptions where
  /-- Field names with commas between them, or `*`. -/
  select : String := selectAll
  /-- The number of documents to return. -/
  top : Int64 := 500
  /-- The number of documents to skip. -/
  offset : Int64 := 0
  /-- Accept unclosed groups and ignore trailing tokens. -/
  lenient : Bool := false
deriving DecidableEq, Repr, Inhabited

def QueryOptions.mode (o : QueryOptions) : ParseMode := if o.lenient then .lenient else .strict

/-- Why a JSON value is not the options of a request. -/
inductive OptionsError where
  | wrongType (found : Json) (expected : String)
  | outOfRange (n : Int)
  | tooLong (length : Nat)
deriving Repr, Inhabited

namespace OptionsError

/-- What kind of value was found; a double is written so that it does not look like a whole number. -/
def kindOf : Json → String
  | .null => "null"
  | .bool b => "boolean `" ++ toString b ++ "`"
  | .int n => "integer `" ++ toString n ++ "`"
  | .float x => "floating point `" ++ String.ofList (x.text Json.floatLayout) ++ "`"
  | .string s => "string " ++ Text.quoted s
  | .array _ => "sequence"
  | .object _ => "map"

def message : OptionsError → String
  | wrongType found expected => "invalid type: " ++ kindOf found ++ ", expected " ++ expected
  | outOfRange n => "invalid value: integer `" ++ toString n ++ "`, expected i64"
  | tooLong length => "invalid length " ++ toString length ++ ", expected fewer elements in array"

end OptionsError

namespace QueryOptions

def readText : Json → Except OptionsError String
  | .string s => .ok s
  | j => .error (.wrongType j "a string")

/-- A whole number that a signed word of 64 bits holds. -/
def readWord : Json → Except OptionsError Int64
  | .int n =>
    if Int64.minValue.toInt ≤ n ∧ n ≤ Int64.maxValue.toInt then .ok (Int64.ofInt n)
    else .error (.outOfRange n)
  | j => .error (.wrongType j "i64")

def readFlag : Json → Except OptionsError Bool
  | .bool b => .ok b
  | j => .error (.wrongType j "a boolean")

def setSelect (o : QueryOptions) (j : Json) : Except OptionsError QueryOptions :=
  (readText j).map fun s => { o with select := s }

def setTop (o : QueryOptions) (j : Json) : Except OptionsError QueryOptions :=
  (readWord j).map fun n => { o with top := n }

def setOffset (o : QueryOptions) (j : Json) : Except OptionsError QueryOptions :=
  (readWord j).map fun n => { o with offset := n }

def setLenient (o : QueryOptions) (j : Json) : Except OptionsError QueryOptions :=
  (readFlag j).map fun b => { o with lenient := b }

/-- The options after one member of an object. -/
def setMember (o : QueryOptions) : String × Json → Except OptionsError QueryOptions
  | ("select", j) => o.setSelect j
  | ("top", j) => o.setTop j
  | ("offset", j) => o.setOffset j
  | ("lenient", j) => o.setLenient j
  | _ => .ok o

/-- The options after the values of an array, each for the next of the given fields. -/
def setItems (o : QueryOptions) :
    List (QueryOptions → Json → Except OptionsError QueryOptions) → List Json →
      Except OptionsError QueryOptions
  | set :: sets, j :: js =>
    match set o j with
    | .ok o => o.setItems sets js
    | .error e => .error e
  | _, _ => .ok o

def ofJson : Json → Except OptionsError QueryOptions
  | .object members => members.foldlM setMember {}
  | .array items =>
    match setItems {} [setSelect, setTop, setOffset, setLenient] items with
    | .ok o => if items.length ≤ 4 then .ok o else .error (.tooLong items.length)
    | .error e => .error e
  | j => .error (.wrongType j "struct QueryOptions")

end QueryOptions

end FilterQuery
