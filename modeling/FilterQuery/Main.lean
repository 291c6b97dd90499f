import FilterQuery.CommandLine.Run

/-!
# The command

Reads the environment and the file that the arguments name, and prints the outcome of the run.
-/

open FilterQuery FilterQuery.CommandLine

/-- What an error of reading a file gives. All but two have the number and the text of the system. -/
def contentOf : IO.Error → FileContent
  | .alreadyExists _ code text | .interrupted _ code text | .noFileOrDirectory _ code text
  | .invalidArgument _ code text | .permissionDenied _ code text | .resourceExhausted _ code text
  | .inappropriateType _ code text | .noSuchThing _ code text | .otherError code text | .resourceBusy code text
  | .resourceVanished code text | .unsupportedOperation code text | .hardwareFault code text
  | .unsatisfiedConstraints code text | .illegalOperation code text | .protocolError code text
  | .timeExpired code text => .refused code text
  | .userError text => .unreadable text
  | .unexpectedEof => .unreadable "unexpected end of file"

/-- What reading a file gives. The file is read without asking for its size first, because the texts of that question
are not those of the system. -/
def readContent (path : String) : IO FileContent := do
  try
    return .ofBytes (← IO.FS.withFile path .read fun file => file.readBinToEnd)
  catch e =>
    return contentOf e

/-- The reader of this library has no reasons of its own, so every text that it refuses has this one. -/
def unexplained (_ : String) : String := "the text is not a YAML document"

def finish (o : Outcome) : IO UInt32 := do
  IO.print o.stdout
  IO.eprint o.stderr
  return o.code

def main (arguments : List String) : IO UInt32 := do
  let names := [Setting.config, .scope].filterMap Setting.environmentName?
  let settings ← names.mapM fun name => return (name, ← IO.getEnv name)
  match Arguments.parse (fun name => (settings.lookup name).join) arguments with
  | .error e => finish (usageOutcome e)
  | .ok a => finish (run unexplained a (← readContent a.config))
