import FilterQuery.FieldTable.Document

/-!
# Tables read from a file

A file is read as a whole before its text is looked at, and both steps have errors of their own. An error names
the file by the path it was asked for under.
-/

namespace FilterQuery

/-- What reading a file gave. -/
inductive FileContent where
  | text (text : String)
  | unreadable (reason : String)
deriving DecidableEq, Repr, Inhabited

namespace FileContent

/-- The content of a file with these bytes, which have to be UTF-8. -/
def ofBytes (bytes : ByteArray) : FileContent :=
  match String.fromUTF8? bytes with
  | some s => text s
  | none => unreadable "stream did not contain valid UTF-8"

/-- The system does not hand the file over, for the reason with this number and text. -/
def refused (code : UInt32) (text : String) : FileContent :=
  unreadable (text ++ " (os error " ++ toString code ++ ")")

end FileContent

/-- Why a file is not a table of fields. -/
inductive FileError where
  | unreadable (path reason : String)
  | unloadable (path : String) (error : TableError)
deriving Inhabited

/-- The messages of the error, the most general one first. -/
def FileError.messages : FileError → List String
  | unreadable path reason => ["Read field mappings from " ++ path ++ " failed.", reason]
  | unloadable path e => ("Load field mappings from " ++ path ++ " failed.") :: e.messages

/-- The table in the file at a path, given what reading it gave. -/
def FieldTable.ofFile (refusal : String → String) (path : String) : FileContent → Except FileError FieldTable
  | .unreadable reason => .error (.unreadable path reason)
  | .text text =>
    match ofYaml refusal text with
    | .ok t => .ok t
    | .error e => .error (.unloadable path e)

end FilterQuery
