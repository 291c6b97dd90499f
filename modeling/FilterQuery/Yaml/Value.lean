import FilterQuery.Number.Shortest
import FilterQuery.Text.Quoted
import FilterQuery.Yaml.Tag
import FilterQuery.Yaml.Token

/-!
# The values of a YAML document

A value is what a node stands for once its tag and, for a plain scalar, its form are taken into account.
Mappings keep the order of their entries. A local tag is part of the value it is put on.
-/

namespace FilterQuery.Yaml

inductive Value where
  | null
  | bool (b : Bool)
  | int (n : Int)
  | float (x : Binary64)
  | string (s : String)
  | sequence (items : List Value)
  | mapping (entries : List (Value × Value))
  | tagged (tag : String) (value : Value)
deriving Inhabited

namespace Value

/-! ## Equality -/

/-- The name of a local tag without the mark that it may start with. -/
def bareTag (tag : String) : String :=
  match tag.toList with
  | '!' :: c :: cs => String.ofList (c :: cs)
  | _ => tag

mutual

/-- Whether two values are the same key. Whole numbers and doubles never are; two mappings are if their
entries are, in any order. -/
def same : Value → Value → Bool
  | null, null => true
  | bool a, bool b => a == b
  | int a, int b => a == b
  | float a, float b => a.sameNumber b
  | string a, string b => a == b
  | sequence as, sequence bs => sameItems as bs
  | mapping as, mapping bs => as.length == bs.length && allAmong as bs
  | tagged s a, tagged t b => bareTag s == bareTag t && same a b
  | _, _ => false

def sameItems : List Value → List Value → Bool
  | [], [] => true
  | a :: as, b :: bs => same a b && sameItems as bs
  | _, _ => false

def allAmong : List (Value × Value) → List (Value × Value) → Bool
  | [], _ => true
  | a :: as, bs => among a bs && allAmong as bs

def among : Value × Value → List (Value × Value) → Bool
  | (k, v), bs => bs.any fun b => same k b.1 && same v b.2

end

/-! ## Texts -/

/-- Numbers with a first digit between `10 ^ (-5)` and `10 ^ 15` have no power of ten, and exponents have a
sign only if they are negative. -/
def floatLayout : Binary64.Layout := ⟨-5, 16, false⟩

def floatText (x : Binary64) : String :=
  match x.value with
  | .notANumber => ".nan"
  | .infinite true => "-.inf"
  | .infinite false => ".inf"
  | .finite _ _ _ => String.ofList (x.text floatLayout)

/-- The text of a string, number or boolean. -/
def text? : Value → Option String
  | string s => some s
  | int n => some (toString n)
  | float x => some (floatText x)
  | bool b => some (toString b)
  | _ => none

mutual

/-- A value as a diagnostic shows it. -/
def describe : Value → String
  | null => "Null"
  | bool b => "Bool(" ++ toString b ++ ")"
  | int n => "Number(" ++ toString n ++ ")"
  | float x => "Number(" ++ floatText x ++ ")"
  | string s => "String(" ++ Text.quoted s ++ ")"
  | sequence items => "Sequence [" ++ ", ".intercalate (describeItems items) ++ "]"
  | mapping entries => "Mapping \x7b" ++ ", ".intercalate (describeEntries entries) ++ "\x7d"
  | tagged tag value => "TaggedValue \x7b tag: !" ++ bareTag tag ++ ", value: " ++ describe value ++ " \x7d"

def describeItems : List Value → List String
  | [] => []
  | v :: vs => describe v :: describeItems vs

def describeEntries : List (Value × Value) → List String
  | [] => []
  | e :: es => describeEntry e :: describeEntries es

def describeEntry : Value × Value → String
  | (k, v) => describeKey k ++ ": " ++ describe v

/-- In front of a colon strings, numbers and booleans are shown bare. -/
def describeKey : Value → String
  | string s => Text.quoted s
  | int n => toString n
  | float x => floatText x
  | bool b => toString b
  | v => describe v

end

/-! ## Scalars -/

def isNull (s : String) : Bool := ["null", "Null", "NULL", "~"].contains s

def bool? (s : String) : Option Bool :=
  if ["true", "True", "TRUE"].contains s then some true
  else if ["false", "False", "FALSE"].contains s then some false
  else none

/-- The value of a digit of a number system, upper-case or lower-case. -/
def digitIn? (base : Nat) (c : Char) : Option Nat := (hexDigit? c).filter (· < base)

/-- The number that digits of a base write, if there is at least one. -/
def natural? (base : Nat) : List Char → Option Nat
  | [] => none
  | ds => ds.foldlM (fun n c => (digitIn? base c).map (base * n + ·)) 0

/-- Two or more digits of which the first is a zero: no number, so that codes and dates stay texts. -/
def isZeroPadded (cs : List Char) : Bool :=
  let digits := match cs with
    | '-' :: ds => ds
    | '+' :: ds => ds
    | ds => ds
  1 < digits.length && digits.head? == some '0' && digits.all Char.isDigit

/-- The magnitude that a text without sign writes, in decimal or after the prefix of another base. -/
def magnitude? : List Char → Option Nat
  | '0' :: 'x' :: ds => natural? 16 ds
  | '0' :: 'o' :: ds => natural? 8 ds
  | '0' :: 'b' :: ds => natural? 2 ds
  | ds => if isZeroPadded ds then none else natural? 10 ds

/-- How a text fares as a whole number. -/
inductive WholeNumber where
  | no
  | fits (n : Int)
  /-- Beyond the words of 64 bits, but not beyond those of 128: no document may hold it. -/
  | refused
deriving DecidableEq, Repr

/-- A whole number fits if a signed or an unsigned word of 64 bits holds it. One that no word of 128 bits holds
is not taken as a whole number. -/
def wholeNumber (s : String) : WholeNumber :=
  let (negative, cs) := match s.toList with
    | '-' :: cs => (true, cs)
    | '+' :: cs => (false, cs)
    | cs => (false, cs)
  match magnitude? cs with
  | none => .no
  | some n =>
    if negative then
      if n ≤ Nat.pow 2 63 then .fits (-(n : Int)) else if n ≤ Nat.pow 2 127 then .refused else .no
    else if n < Nat.pow 2 64 then .fits n else if n < Nat.pow 2 128 then .refused else .no

/-- A double, where the words for infinities and NaN start with a point. -/
def float? (s : String) : Option Binary64 :=
  if [".inf", ".Inf", ".INF", "+.inf", "+.Inf", "+.INF"].contains s then some (.infinity false)
  else if ["-.inf", "-.Inf", "-.INF"].contains s then some (.infinity true)
  else if [".nan", ".NaN", ".NAN"].contains s then some .nan
  else Binary64.readFinite? s

/-- The value of a plain scalar without a tag, unless it is a number that no document may hold. -/
def ofPlain? (s : String) : Option Value :=
  if s.isEmpty || isNull s then some null
  else
    match bool? s with
    | some b => some (bool b)
    | none =>
      match wholeNumber s with
      | .fits n => some (int n)
      | .refused => none
      | .no =>
        match if isZeroPadded s.toList then none else float? s with
        | some x => some (float x)
        | none => some (string s)

/-- The value of a scalar with a tag of the core types that forces one: it must have the form of that type.
Other tags leave a text. -/
def ofTagged? (tag : String) (s : String) : Option Value :=
  match tag with
  | "tag:yaml.org,2002:bool" => (bool? s).map bool
  | "tag:yaml.org,2002:int" =>
    match wholeNumber s with
    | .fits n => some (int n)
    | _ => none
  | "tag:yaml.org,2002:float" => (float? s).map float
  | "tag:yaml.org,2002:null" => if isNull s then some null else none
  | _ => some (string s)

end Value

end FilterQuery.Yaml
