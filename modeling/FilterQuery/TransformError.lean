import FilterQuery.Expr.ParseError

/-!
# Errors of a request

A request fails because of what its sender wrote, which may be shown to them, or for a cause within, which may
not: its message does not mention the cause.
-/

namespace FilterQuery

/-- Where a name without a stored field was used. -/
inductive FieldContext where
  | filter
  | select
deriving DecidableEq, Repr, Inhabited

def FieldContext.name : FieldContext → String
  | filter => "filter"
  | select => "select"

/-- The category of an error that a host reports to its callers. -/
inductive ErrorKind where
  | badRequest
  | internalServerError
deriving DecidableEq, Repr, Inhabited

def ErrorKind.name : ErrorKind → String
  | badRequest => "BAD_REQUEST"
  | internalServerError => "INTERNAL_SERVER_ERROR"

inductive TransformError where
  /-- The filter has not the form of one. -/
  | malformed (error : ParseError)
  | unresolvedField (context : FieldContext) (field : String)
  /-- A failure that the sender of the request cannot have caused. -/
  | internal (cause : String)
deriving DecidableEq, Repr, Inhabited

namespace TransformError

/-- A field that does not resolve is an error of the request like one in the select list. -/
def ofParseError : ParseError → TransformError
  | .unresolvedField field _ => unresolvedField .filter field
  | e => malformed e

/-- The cause of an internal error for a document that cannot be written. -/
def unwritable : TransformError := internal "Serialize query document failed."

def message : TransformError → String
  | malformed e => e.message
  | unresolvedField context field =>
    "Invalid " ++ context.name ++ " field '" ++ field ++
      "'. Please check that it is present in the backend field configuration"
  | internal _ => "An unknown error occurred while building the search query"

def kind : TransformError → ErrorKind
  | malformed _ => .badRequest
  | unresolvedField _ _ => .badRequest
  | internal _ => .internalServerError

def isUserError (e : TransformError) : Bool := e.kind == .badRequest

/-- The byte offset in the filter, for errors of its form. -/
def position? : TransformError → Option Nat
  | malformed e => some e.position
  | _ => none

/-- An unresolved field of the filter has a wording as an error of the filter and one as an error of the request, and
the two are equal. -/
theorem message_ofParseError (e : ParseError) : (ofParseError e).message = e.message := by
  cases e with
  | unexpectedEnd | unsupportedOperator | unclosedGroup | trailingToken => rfl
  | unresolvedField field position =>
    have hcontext : "Invalid " ++ FieldContext.filter.name ++ " field '" = "Invalid filter field '" := by decide
    exact congrArg
      (· ++ field ++ "'. Please check that it is present in the backend field configuration") hcontext

end TransformError

end FilterQuery
