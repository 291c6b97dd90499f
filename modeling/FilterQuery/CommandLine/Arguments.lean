import FilterQuery.Options
import FilterQuery.Text.Terminal

/-!
# Arguments of the command

A setting takes a value, after it or attached by an equals sign; a flag takes none; each is given at most once.
The file of the table and the scope may come from the environment instead. Paging values may look like
arguments, other values may not, unless they are attached.

A value is looked at when the next argument has been recognised, so an argument that does not exist is reported
before a bad value in front of it.
-/

namespace FilterQuery.CommandLine

inductive Setting where
  | config
  | scope
  | filter
  | select
  | top
  | offset
deriving DecidableEq, Repr

inductive Flag where
  | lenient
  | pretty
deriving DecidableEq, Repr

namespace Setting

def ofName? : String → Option Setting
  | "config" => some config
  | "scope" => some scope
  | "filter" => some filter
  | "select" => some select
  | "top" => some top
  | "offset" => some offset
  | _ => none

/-- The setting with the name of its value, as usage messages show it. -/
def usage : Setting → String
  | config => "--config <CONFIG>"
  | scope => "--scope <SCOPE>"
  | filter => "--filter <FILTER>"
  | select => "--select <SELECT>"
  | top => "--top <TOP>"
  | offset => "--offset <OFFSET>"

/-- Whether a value of its own may start with a hyphen. -/
def takesHyphens : Setting → Bool
  | top | offset => true
  | _ => false

/-- The variable that stands in for the setting. -/
def environmentName? : Setting → Option String
  | config => some "ODATA_ELK_CONFIG"
  | scope => some "ODATA_ELK_SCOPE"
  | _ => none

end Setting

namespace Flag

def ofName? : String → Option Flag
  | "lenient" => some lenient
  | "pretty" => some pretty
  | _ => none

def usage : Flag → String
  | lenient => "--lenient"
  | pretty => "--pretty"

end Flag

/-! ## Errors -/

/-- Why a text is not a whole number of 64 bits. The first character at which that shows decides. -/
inductive NumberFault where
  | empty
  | invalidDigit
  | tooLarge
  | tooSmall
deriving DecidableEq, Repr, Inhabited

def NumberFault.message : NumberFault → String
  | empty => "cannot parse integer from empty string"
  | invalidDigit => "invalid digit found in string"
  | tooLarge => "number too large to fit in target type"
  | tooSmall => "number too small to fit in target type"

inductive UsageError where
  | unexpectedArgument (argument : String)
  | unexpectedValue (flag : Flag) (value : String)
  | missingValue (setting : Setting)
  | invalidValue (setting : Setting) (value : String) (fault : NumberFault)
  | repeated (usage : String)
  | missingArguments
deriving DecidableEq, Repr, Inhabited

/-- The wording of an error. Arguments are shown without the terminal sequences in them. -/
def UsageError.message : UsageError → String
  | unexpectedArgument a => "unexpected argument '" ++ Text.shown a ++ "' found"
  | unexpectedValue flag v =>
    "unexpected value '" ++ Text.shown v ++ "' for '" ++ flag.usage ++ "' found; no more were expected"
  | missingValue s => "a value is required for '" ++ s.usage ++ "' but none was supplied"
  | invalidValue s v fault =>
    "invalid value '" ++ Text.shown v ++ "' for '" ++ s.usage ++ "': " ++ fault.message
  | repeated usage => "the argument '" ++ usage ++ "' cannot be used multiple times"
  | missingArguments => "the following required arguments were not provided:"

/-! ## Values -/

/-- The number that digits add to `n`, which may not pass the limit. -/
def readDigits (limit : Nat) (beyond : NumberFault) (n : Nat) : List Char → Except NumberFault Nat
  | [] => .ok n
  | c :: cs =>
    if !c.isDigit then .error .invalidDigit
    else
      let n := 10 * n + Decimal.digitValue c
      if limit < n then .error beyond else readDigits limit beyond n cs

/-- Reads a whole number with an optional sign. -/
def readWord (s : String) : Except NumberFault Int64 :=
  match s.toList with
  | [] => .error .empty
  | '-' :: c :: cs => (readDigits (Nat.pow 2 63) .tooSmall 0 (c :: cs)).map fun n => Int64.ofInt (-(n : Int))
  | '+' :: c :: cs => (readDigits (Nat.pow 2 63 - 1) .tooLarge 0 (c :: cs)).map fun n => Int64.ofInt n
  | cs => (readDigits (Nat.pow 2 63 - 1) .tooLarge 0 cs).map fun n => Int64.ofInt n

/-- The arguments found so far. -/
structure Given where
  config : Option String := none
  scope : Option String := none
  filter : Option String := none
  select : Option String := none
  top : Option Int64 := none
  offset : Option Int64 := none
  lenient : Bool := false
  pretty : Bool := false
deriving Inhabited

namespace Given

def has (g : Given) : Setting → Bool
  | .config => g.config.isSome
  | .scope => g.scope.isSome
  | .filter => g.filter.isSome
  | .select => g.select.isSome
  | .top => g.top.isSome
  | .offset => g.offset.isSome

def number (s : Setting) (v : String) : Except UsageError Int64 :=
  (readWord v).mapError (.invalidValue s v)

/-- Gives a setting its value, which it may not have yet. A path is never empty. -/
def set (g : Given) (s : Setting) (v : String) : Except UsageError Given :=
  if g.has s then .error (.repeated s.usage)
  else
    match s with
    | .config => if v.isEmpty then .error (.missingValue .config) else .ok { g with config := some v }
    | .scope => .ok { g with scope := some v }
    | .filter => .ok { g with filter := some v }
    | .select => .ok { g with select := some v }
    | .top => (number s v).map fun n => { g with top := some n }
    | .offset => (number s v).map fun n => { g with offset := some n }

def raise (g : Given) (f : Flag) : Except UsageError Given :=
  match f with
  | .lenient => if g.lenient then .error (.repeated f.usage) else .ok { g with lenient := true }
  | .pretty => if g.pretty then .error (.repeated f.usage) else .ok { g with pretty := true }

/-- Takes a setting that was not given from the environment. -/
def setFrom (environment : String → Option String) (g : Given) (s : Setting) : Except UsageError Given :=
  if g.has s then .ok g
  else
    match s.environmentName?.bind environment with
    | some v => g.set s v
    | none => .ok g

end Given

/-! ## The command line -/

/-- The setting that the last argument belongs to. -/
inductive Pending where
  | none
  | awaiting (s : Setting)
  | holding (s : Setting) (v : String)
deriving Inhabited

/-- Arguments under way. After a double hyphen nothing is recognised any more. -/
structure Progress where
  given : Given := {}
  pending : Pending := .none
  isTrailing : Bool := false
deriving Inhabited

namespace Progress

/-- Looks at the value of the last setting. -/
def settle (p : Progress) : Except UsageError Progress :=
  match p.pending with
  | .none => .ok p
  | .awaiting s => .error (.missingValue s)
  | .holding s v => (p.given.set s v).map fun g => { p with given := g, pending := .none }

/-- Takes an argument as the value of the setting before it, if one waits. -/
def takeValue (p : Progress) (argument : String) : Except UsageError Progress :=
  match p.pending with
  | .awaiting s => .ok { p with pending := .holding s argument }
  | _ => .error (.unexpectedArgument argument)

/-- Takes an argument that starts with two hyphens. -/
def takeNamed (p : Progress) (name : String) (attached : Option String) : Except UsageError Progress :=
  match Setting.ofName? name, Flag.ofName? name, attached with
  | some s, _, some v => do
    let p ← p.settle
    return { p with given := ← p.given.set s v }
  | some s, _, none => do
    let p ← p.settle
    return { p with pending := .awaiting s }
  | none, some f, some v => .error (.unexpectedValue f v)
  | none, some f, none => do
    let p ← p.settle
    return { p with given := ← p.given.raise f }
  | none, none, _ => .error (.unexpectedArgument ("--" ++ name))

def awaitsHyphens (p : Progress) : Bool :=
  match p.pending with
  | .awaiting s => s.takesHyphens
  | _ => false

/-- The name before the first equals sign, and what follows it. -/
def splitAttached (cs : List Char) : String × Option String :=
  let name := cs.takeWhile (· != '=')
  match cs.drop name.length with
  | [] => (String.ofList name, none)
  | _ :: value => (String.ofList name, some (String.ofList value))

def take (p : Progress) (argument : String) : Except UsageError Progress :=
  if p.isTrailing then .error (.unexpectedArgument argument)
  else if p.awaitsHyphens then p.takeValue argument
  else
    match argument.toList with
    | ['-', '-'] => .ok { p with isTrailing := true }
    | '-' :: '-' :: cs =>
      let (name, attached) := splitAttached cs
      p.takeNamed name attached
    | '-' :: c :: _ => .error (.unexpectedArgument (String.ofList ['-', c]))
    | _ => p.takeValue argument

end Progress

/-- What the command is to do. -/
structure Arguments where
  config : String
  scope : String
  filter : String
  options : QueryOptions
  pretty : Bool
deriving DecidableEq, Repr, Inhabited

namespace Arguments

/-- Reads the arguments of the command, its own name left out. -/
def parse (environment : String → Option String) (arguments : List String) : Except UsageError Arguments := do
  let p ← arguments.foldlM Progress.take {}
  let p ← p.settle
  let g ← p.given.setFrom environment .config
  let g ← g.setFrom environment .scope
  match g.config, g.scope, g.filter with
  | some config, some scope, some filter =>
    let standard : QueryOptions := {}
    return ⟨config, scope, filter,
      ⟨g.select.getD standard.select, g.top.getD standard.top, g.offset.getD standard.offset, g.lenient⟩,
      g.pretty⟩
  | _, _, _ => .error .missingArguments

end Arguments

end FilterQuery.CommandLine
