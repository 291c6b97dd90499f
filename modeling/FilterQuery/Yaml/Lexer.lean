import FilterQuery.Yaml.Token
import FilterQuery.Yaml.Scalar.Block
import FilterQuery.Yaml.Scalar.Quoted

/-!
# Cutting a YAML text into tokens

A key of a mapping is known as one only when the colon after it is found. So a token that may start a key is
remembered as a candidate, one for each flow collection around it, and the colon turns the candidate into a
key. A candidate must be on the line of its colon and start at most 1024 bytes of UTF-8 before it. Tokens are
only ever added: each carries what its place as a key calls for, and the key tokens are put in at the end.

Block collections are open while lines are indented at least as far as they are. Each step of the lexer reads
at least one character, so the number of characters bounds the steps.
-/

namespace FilterQuery.Yaml

/-- What has to stand before a token because it starts a key. -/
inductive KeyRole where
  | none
  | key
  /-- The key is the first one of its block mapping. -/
  | firstKey
deriving DecidableEq, Repr, Inhabited

/-- A token that may turn out to start a key. -/
structure Candidate extends Position where
  index : Nat
  /-- In a block collection a line's first token has to be a key if others in the collection are. -/
  isRequired : Bool

structure Lexer where
  place : Cursor
  tokens : Array (KeyRole × Token)
  /-- The columns of the open block collections, innermost first. -/
  columns : List Nat
  /-- The candidates of the open flow collections, innermost first. -/
  outer : List (Option Candidate)
  candidate : Option Candidate
  /-- Whether a token here may start a key. -/
  mayStartKey : Bool

namespace Lexer

def start (cs : List Char) : Lexer := ⟨.start cs, #[], [], [], none, true⟩

def inFlow (s : Lexer) : Bool := !s.outer.isEmpty

def emit (s : Lexer) (t : Token) : Lexer := { s with tokens := s.tokens.push (.none, t) }

/-- The state after a token of `n` characters. -/
def emitMark (s : Lexer) (t : Token) (n : Nat) : Lexer := { s.emit t with place := s.place.skip n }

/-! ## Blanks between tokens -/

/-- The place of the next token. Tabs are only skipped where they cannot be indentation, and a byte order mark
only at the start of a line. A line break in a block collection lets a key start. -/
def skipTo (inFlow : Bool) (inComment mayStartKey : Bool) (here : Position) : List Char → Bool × Cursor
  | [] => (mayStartKey, ⟨here, []⟩)
  | c :: rest =>
    let next := here.after c
    if isBreak c then skipTo inFlow false (mayStartKey || !inFlow) next rest
    else if inComment || c == '#' then skipTo inFlow true mayStartKey next rest
    else if c == ' ' || (c == '\t' && (inFlow || !mayStartKey)) then skipTo inFlow false mayStartKey next rest
    else if c == byteOrderMark && here.column == 0 then skipTo inFlow false mayStartKey next rest
    else (mayStartKey, ⟨here, c :: rest⟩)

def skipBlanks (s : Lexer) : Lexer :=
  let (mayStartKey, place) := skipTo s.inFlow false s.mayStartKey s.place.toPosition s.place.rest
  { s with mayStartKey, place }

/-! ## Candidates for keys -/

/-- Drops the candidate of the innermost collection, which may not be one that has to be a key. -/
def dropCandidate (s : Lexer) : Option Lexer :=
  match s.candidate with
  | some c => if c.isRequired then none else some { s with candidate := none }
  | none => some s

/-- Makes the next token a candidate, if a key may start there. -/
def saveCandidate (s : Lexer) : Option Lexer :=
  if !s.mayStartKey then some s
  else do
    let s ← s.dropCandidate
    let isRequired := !s.inFlow && s.columns.head? == some s.place.column
    return { s with candidate := some ⟨s.place.toPosition, s.tokens.size, isRequired⟩ }

/-- A candidate whose colon cannot come any more. -/
def Candidate.isStale (p : Position) (c : Candidate) : Bool := c.line < p.line || c.offset + 1024 < p.offset

/-- A candidate, if it is not stale. A stale one that has to be a key is an error. -/
def refresh (p : Position) : Option Candidate → Option (Option Candidate)
  | none => some none
  | some c => if Candidate.isStale p c then (if c.isRequired then none else some none) else some (some c)

def dropStale (s : Lexer) : Option Lexer := do
  let candidate ← refresh s.place.toPosition s.candidate
  let outer ← s.outer.mapM (refresh s.place.toPosition)
  return { s with candidate, outer }

/-! ## Indentation -/

/-- Closes the block collections beyond a column. -/
def closeBeyond (stays : Nat → Bool) (tokens : Array (KeyRole × Token)) :
    List Nat → Array (KeyRole × Token) × List Nat
  | [] => (tokens, [])
  | c :: cs => if stays c then (tokens, c :: cs) else closeBeyond stays (tokens.push (.none, .blockEnd)) cs

/-- Closes the block collections that a line indented to the present column is not part of. -/
def unindent (s : Lexer) : Lexer :=
  if s.inFlow then s
  else
    let (tokens, columns) := closeBeyond (· ≤ s.place.column) s.tokens s.columns
    { s with tokens, columns }

def closeAll (s : Lexer) : Lexer :=
  if s.inFlow then s
  else
    let (tokens, columns) := closeBeyond (fun _ => false) s.tokens s.columns
    { s with tokens, columns }

/-- Whether a block collection at this column starts here. -/
def opensAt (s : Lexer) (column : Nat) : Bool :=
  !s.inFlow &&
    match s.columns with
    | [] => true
    | c :: _ => c < column

/-- Starts a block collection at the present column, unless one that is open has its entries there. -/
def indent (s : Lexer) (opening : Token) : Lexer :=
  if s.opensAt s.place.column then { s.emit opening with columns := s.place.column :: s.columns } else s

/-! ## Tokens -/

def documentMark (s : Lexer) (t : Token) : Option Lexer := do
  let s ← s.closeAll.dropCandidate
  return { s.emitMark t 3 with mayStartKey := false }

/-- Up to nine digits. -/
def scanVersionNumber (p : Cursor) : Option (Nat × Cursor) :=
  let (ds, p) := p.span Char.isDigit
  if ds.isEmpty || 9 < ds.length then none
  else some (ds.foldl (fun n c => 10 * n + (c.toNat - '0'.toNat)) 0, p)

def scanDirective (p : Cursor) : Option (Token × Cursor) := do
  let (name, p) := (p.skip 1).span isNameChar
  if name.isEmpty || !endsWord p.rest then none
  else
    let p := p.skipBlanks
    match String.ofList name with
    | "YAML" =>
      let (major, p) ← scanVersionNumber p
      if p.rest.head? ≠ some '.' then none
      else
        let (minor, p) ← scanVersionNumber (p.skip 1)
        let p ← p.endLine?
        return (.versionDirective major minor, p)
    | "TAG" =>
      let (handle, p) ← scanHandle p
      if handle ≠ ['!'] && (handle.length ≤ 1 || handle.getLast? ≠ some '!') then none
      else if !(p.rest.head?.any isBlank) then none
      else
        let q := p.skipBlanks
        let (text, p) ← scanTagText true [] q
        if p.column = q.column || !endsWord p.rest then none
        else
          let p ← p.endLine?
          return (.tagDirective ⟨String.ofList handle, text⟩, p)
    | _ => none

def directive (s : Lexer) : Option Lexer := do
  let s ← s.closeAll.dropCandidate
  let (t, place) ← scanDirective s.place
  return { s.emit t with place, mayStartKey := false }

def flowStart (s : Lexer) (t : Token) : Option Lexer := do
  let s ← s.saveCandidate
  return { s.emitMark t 1 with mayStartKey := true, outer := s.candidate :: s.outer, candidate := none }

def flowEnd (s : Lexer) (t : Token) : Option Lexer := do
  let s ← s.dropCandidate
  let s := match s.outer with
    | [] => s
    | c :: outer => { s with candidate := c, outer }
  return { s.emitMark t 1 with mayStartKey := false }

def flowEntry (s : Lexer) : Option Lexer := do
  let s ← s.dropCandidate
  return { s.emitMark .flowEntry 1 with mayStartKey := true }

def blockEntry (s : Lexer) : Option Lexer :=
  if !s.inFlow && !s.mayStartKey then none
  else do
    let s ← (s.indent .blockSequenceStart).dropCandidate
    return { s.emitMark .blockEntry 1 with mayStartKey := true }

def key (s : Lexer) : Option Lexer :=
  if !s.inFlow && !s.mayStartKey then none
  else do
    let s ← (s.indent .blockMappingStart).dropCandidate
    return { s.emitMark .key 1 with mayStartKey := !s.inFlow }

/-- A colon makes the candidate a key. Without a candidate it follows a key that has its own mark. -/
def value (s : Lexer) : Option Lexer :=
  match s.candidate with
  | some c =>
    let opens := s.opensAt c.column
    let role := if opens then KeyRole.firstKey else .key
    let s := { s with
      tokens := s.tokens.modify c.index fun t => (role, t.2)
      columns := if opens then c.column :: s.columns else s.columns
      candidate := none }
    some { s.emitMark .value 1 with mayStartKey := false }
  | none =>
    if !s.inFlow && !s.mayStartKey then none
    else some { (s.indent .blockMappingStart).emitMark .value 1 with mayStartKey := !s.inFlow }

/-- The name after the mark of an anchor or an alias. -/
def scanName (p : Cursor) : Option (String × Cursor) :=
  let (name, p) := (p.skip 1).span isNameChar
  if name.isEmpty then none
  else if endsWord p.rest || p.rest.head?.any "?:,]\x7d%@`".toList.contains then some (String.ofList name, p)
  else none

def reference (s : Lexer) (t : String → Token) : Option Lexer := do
  let s ← s.saveCandidate
  let (name, place) ← scanName s.place
  return { s.emit (t name) with place, mayStartKey := false }

def tag (s : Lexer) : Option Lexer := do
  let s ← s.saveCandidate
  let (t, place) ← scanTag s.inFlow s.place
  return { s.emit (.tag t) with place, mayStartKey := false }

def blockScalar (s : Lexer) (literal : Bool) : Option Lexer := do
  let s ← s.dropCandidate
  let scanned ← scanBlock literal s.columns.head? s.place
  return { s.emit (.scalar .block scanned.text) with place := scanned.after, mayStartKey := true }

def quotedScalar (s : Lexer) (single : Bool) : Option Lexer := do
  let s ← s.saveCandidate
  let scanned ← scanQuoted single s.place
  return { s.emit (.scalar .quoted scanned.text) with place := scanned.after, mayStartKey := false }

def plainScalar (s : Lexer) : Option Lexer := do
  let s ← s.saveCandidate
  let least := match s.columns with
    | [] => 0
    | c :: _ => c + 1
  let scanned ← scanPlain s.inFlow least s.place
  return { s.emit (.scalar .plain scanned.text) with
    place := scanned.after, mayStartKey := scanned.brokeLine }

/-- Marks that cannot start a plain scalar. A dash, question mark or colon can, where a word goes on. -/
def startsPlain (inFlow : Bool) (c : Char) (rest : List Char) : Bool :=
  if c == '-' then !(rest.head?.any isBlank)
  else if c == '?' || c == ':' then !inFlow && !endsWord rest
  else !",[]\x7b\x7d#&*!|>'\"%@`".toList.contains c && !isBlank c

/-- Reads the token that starts with `c`. -/
def token (s : Lexer) (c : Char) (rest : List Char) : Option Lexer :=
  let isIndicator := s.inFlow || endsWord rest
  if s.place.column == 0 && c == '%' then s.directive
  else if s.place.startsMark '-' then s.documentMark .documentStart
  else if s.place.startsMark '.' then s.documentMark .documentEnd
  else if c == '[' then s.flowStart .flowSequenceStart
  else if c == '\x7b' then s.flowStart .flowMappingStart
  else if c == ']' then s.flowEnd .flowSequenceEnd
  else if c == '\x7d' then s.flowEnd .flowMappingEnd
  else if c == ',' then s.flowEntry
  else if c == '-' && endsWord rest then s.blockEntry
  else if c == '?' && isIndicator then s.key
  else if c == ':' && isIndicator then s.value
  else if c == '*' then s.reference .aliasTo
  else if c == '&' then s.reference .anchor
  else if c == '!' then s.tag
  else if c == '|' && !s.inFlow then s.blockScalar true
  else if c == '>' && !s.inFlow then s.blockScalar false
  else if c == '\'' then s.quotedScalar true
  else if c == '"' then s.quotedScalar false
  else if startsPlain s.inFlow c rest then s.plainScalar
  else none

/-- Reads all tokens, the ends of open collections included. -/
def run : Nat → Lexer → Option Lexer
  | 0, _ => none
  | fuel + 1, s => do
    let s ← s.skipBlanks.dropStale
    match s.place.rest with
    | [] => s.closeAll.dropCandidate
    | c :: rest =>
      let s ← s.unindent.token c rest
      run fuel s

/-- The tokens with the marks of their keys. -/
def finished (s : Lexer) : List Token :=
  s.tokens.toList.flatMap fun (role, t) =>
    match role with
    | .none => [t]
    | .key => [.key, t]
    | .firstKey => [.blockMappingStart, .key, t]

end Lexer

/-- The tokens of a text, if its characters and marks are those of a YAML stream. -/
def tokens? (text : String) : Option (List Token) :=
  let cs := text.toList
  if !cs.all isPermitted then none
  else
    let cs := uniformBreaks cs
    ((Lexer.start cs).run (cs.length + 1)).map Lexer.finished

end FilterQuery.Yaml
