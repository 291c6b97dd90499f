import FilterQuery.CommandLine.Arguments
import FilterQuery.FieldTable.File
import FilterQuery.Transform

/-!
# Running the command

The command prints the query document of a filter. It ends with 0 if there is one, with 2 if the request is
wrong, and with 1 if the table of fields cannot be read, whatever the request is. A run that fails prints
nothing but its error.
-/

namespace FilterQuery.CommandLine

/-- What a run leaves behind. -/
structure Outcome where
  code : UInt32
  stdout : String
  stderr : String
deriving DecidableEq, Repr, Inhabited

/-- A line of a report that a message goes on in is indented like the message. -/
def indentLines (message : String) : String :=
  String.ofList (message.toList.flatMap fun c => if c = '\n' then '\n' :: List.replicate 7 ' ' else [c])

/-- The causes of an error, numbered from the most general one. -/
def causes (n : Nat) : List String → String
  | [] => ""
  | m :: ms => "    " ++ toString n ++ ": " ++ indentLines m ++ "\n" ++ causes (n + 1) ms

/-- The report of a table that cannot be read. -/
def configurationReport (e : FileError) : String :=
  "Error: Load field mappings failed.\n\nCaused by:\n" ++ causes 0 e.messages

/-- The line of a request that is wrong. -/
def failureLine (e : TransformError) : String :=
  e.kind.name ++ ": " ++ e.message ++
    (match e.position? with
      | some n => " (at byte " ++ toString n ++ ")"
      | none => "")

/-- The run of a command, given what reading its file gave and what the reader of YAML says of a text that it
refuses. -/
def run (refusal : String → String) (a : Arguments) (file : FileContent) : Outcome :=
  match FieldTable.ofFile refusal a.config file with
  | .error e => ⟨1, "", configurationReport e⟩
  | .ok table =>
    let layout := if a.pretty then Json.Layout.indented else .compact
    match transform layout table.resolver a.scope a.filter a.options with
    | .ok document => ⟨0, document ++ "\n", ""⟩
    | .error e => ⟨if e.isUserError then 2 else 1, "", failureLine e ++ "\n"⟩

/-- The outcome of arguments that the command does not understand. -/
def usageOutcome (e : UsageError) : Outcome := ⟨2, "", "error: " ++ e.message ++ "\n"⟩

end FilterQuery.CommandLine
