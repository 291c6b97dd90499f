/-!
# Errors of reading a filter

Every error names the byte offset in the filter that it is about. All but an unresolved field are errors of
the filter's form.
-/

namespace FilterQuery

inductive ParseError where
  /-- The filter ends where `expected` has to follow. -/
  | unexpectedEnd (expected : String) (position : Nat)
  | unsupportedOperator (operator : String) (position : Nat)
  /-- What stands at `position` does not close the group opened at `opened`. -/
  | unclosedGroup (opened : Nat) (position : Nat)
  | trailingToken (token : String) (position : Nat)
  | unresolvedField (field : String) (position : Nat)
deriving DecidableEq, Repr, Inhabited

namespace ParseError

def message : ParseError → String
  | unexpectedEnd expected _ => "malformed filter: unexpected end of input, expected " ++ expected
  | unsupportedOperator operator _ => "Unsupported comparison operator: " ++ operator
  | unclosedGroup opened _ =>
    "malformed filter: expected ')' to close the group opened at byte " ++ toString opened
  | trailingToken token _ => "malformed filter: unexpected token '" ++ token ++ "'"
  | unresolvedField field _ =>
    "Invalid filter field '" ++ field ++ "'. Please check that it is present in the backend field configuration"

def position : ParseError → Nat
  | unexpectedEnd _ p => p
  | unsupportedOperator _ p => p
  | unclosedGroup _ p => p
  | trailingToken _ p => p
  | unresolvedField _ p => p

def isSyntax : ParseError → Bool
  | unresolvedField _ _ => false
  | _ => true

end ParseError

end FilterQuery
