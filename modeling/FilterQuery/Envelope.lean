import FilterQuery.Query
import FilterQuery.Json.Printer
import FilterQuery.TransformError

/-!
# Query documents

The document sent to the search backend holds the query, the paging and the list of stored fields to return.
The list is written by the sender of the request as names with commas between them, or as `*` for every field.
Names are taken as they stand, blanks included, and each has to resolve in the scope of the request.
-/

namespace FilterQuery

/-- The select list that returns every stored field. -/
def selectAll : String := "*"

/-- The names between the commas of a select list, one more than there are commas. -/
def selectNames (select : String) : List String := (select.toList.splitOn ',').map String.ofList

/-- The stored field of a name in a select list. -/
def selectField (resolver : Resolver) (scope name : String) : Except TransformError String :=
  match resolver scope name with
  | some field => .ok field
  | none => .error (.unresolvedField .select name)

/-- The stored fields that a select list names, in its order and with its repetitions. -/
def projection (resolver : Resolver) (scope select : String) : Except TransformError (List String) :=
  if select = selectAll then .ok [selectAll]
  else (selectNames select).mapM (selectField resolver scope)

/-- A query with its paging and projection. -/
structure Envelope where
  query : Json
  size : Int64
  start : Int64
  includes : List String
deriving Inhabited

namespace Envelope

/-- The members of the document are written in this order. -/
def toJson (e : Envelope) : Json :=
  .object
    [("query", e.query), ("size", .int e.size.toInt), ("from", .int e.start.toInt),
     ("_source", .single "includes" (.array (e.includes.map .string)))]

/-- Wraps the query of an expression whose fields are resolved. -/
def assemble (resolver : Resolver) (scope : String) (expr : Expr) (select : String) (top offset : Int64) :
    Except TransformError Envelope :=
  match projection resolver scope select with
  | .error e => .error e
  | .ok includes => .ok ⟨expr.toQuery, top, offset, includes⟩

end Envelope

end FilterQuery
