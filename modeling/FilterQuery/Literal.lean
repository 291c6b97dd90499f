import FilterQuery.Number.Binary64

/-!
# Literals

The value of a comparison is text or a number. Which one it is follows from the token alone: a token in
single quotes is the text between them, a token that writes a finite number is that number, and any other
token is text as it stands.
-/

namespace FilterQuery

inductive Literal where
  | string (text : String)
  | number (value : Binary64)
deriving DecidableEq, Repr, Inhabited

namespace Literal

/-- The characters between a quote at the start and another one at the end. Nothing in between is unescaped. -/
def unquote? : List Char → Option (List Char)
  | '\'' :: rest => if rest.getLast? = some '\'' then some rest.dropLast else none
  | _ => none

/-- The literal that a value token stands for. -/
def ofToken (raw : String) : Literal :=
  match unquote? raw.toList with
  | some inner => string (String.ofList inner)
  | none =>
    match Binary64.readFinite? raw with
    | some x => number x
    | none => string raw

end Literal

end FilterQuery
