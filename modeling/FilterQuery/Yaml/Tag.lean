import FilterQuery.Yaml.Chars

/-!
# Tags

A tag is written as a handle and a suffix, and directives of the document say which text a handle stands for.
Percent signs in a suffix escape the bytes of a character, and nothing forces them to form one, so the text of
a tag is a list of bytes. A zero byte ends it.
-/

namespace FilterQuery.Yaml

/-- The UTF-8 bytes of a tag. -/
abbrev TagBytes := List UInt8

namespace TagBytes

def ofChars (cs : List Char) : TagBytes := (String.ofList cs).toUTF8.toList

/-- The text of a tag, if its bytes are one. -/
def text? (bytes : TagBytes) : Option String := String.fromUTF8? ⟨bytes.toArray⟩

end TagBytes

/-- A character that may stand in a tag. Within angle brackets and in directives commas and square brackets
are characters of a tag too. -/
def isTagChar (bracketed : Bool) (c : Char) : Bool :=
  isNameChar c || ";/?:@&=+$.%!~*'()".toList.contains c || (bracketed && ",[]".toList.contains c)

def hexDigit? (c : Char) : Option Nat :=
  if '0' ≤ c ∧ c ≤ '9' then some (c.toNat - '0'.toNat)
  else if 'a' ≤ c ∧ c ≤ 'f' then some (c.toNat - 'a'.toNat + 10)
  else if 'A' ≤ c ∧ c ≤ 'F' then some (c.toNat - 'A'.toNat + 10)
  else none

/-- How many bytes follow a leading byte of UTF-8. -/
def continuationCount? (b : Nat) : Option Nat :=
  if b < 0x80 then some 0
  else if b < 0xC0 then none
  else if b < 0xE0 then some 1
  else if b < 0xF0 then some 2
  else if b < 0xF8 then some 3
  else none

/-- The bytes of tag characters with their escapes undone. An escaped leading byte has to be followed by as
many escaped continuation bytes as it announces; `pending` of them are still to come. -/
def unescapeTag (pending : Nat) : List Char → Option TagBytes
  | [] => if pending = 0 then some [] else none
  | '%' :: a :: b :: cs =>
    match hexDigit? a, hexDigit? b with
    | some x, some y =>
      let byte := 16 * x + y
      let left? :=
        match pending with
        | 0 => continuationCount? byte
        | left + 1 => if 0x80 ≤ byte ∧ byte < 0xC0 then some left else none
      match left? with
      | some left => (unescapeTag left cs).map (UInt8.ofNat byte :: ·)
      | none => none
    | _, _ => none
  | c :: cs =>
    if c = '%' ∨ pending ≠ 0 then none
    else (unescapeTag 0 cs).map (UInt8.ofNat c.toNat :: ·)

/-- Reads tag characters after `start`, which is already part of the tag. -/
def scanTagText (bracketed : Bool) (start : List Char) (p : Cursor) : Option (TagBytes × Cursor) := do
  let (cs, p) := p.span (isTagChar bracketed)
  let bytes ← unescapeTag 0 cs
  return ((TagBytes.ofChars start ++ bytes).takeWhile (· != 0), p)

/-- A handle: an exclamation mark, name characters, and a second mark if there is one. -/
def scanHandle (p : Cursor) : Option (List Char × Cursor) :=
  if p.rest.head? ≠ some '!' then none
  else
    let (name, p) := (p.skip 1).span isNameChar
    if p.rest.head? = some '!' then some ('!' :: name ++ ['!'], p.skip 1) else some ('!' :: name, p)

/-- A tag as it is written. Without a handle the suffix is the whole tag. -/
structure WrittenTag where
  handle : String
  suffix : TagBytes
deriving DecidableEq, Repr, Inhabited

/-- Reads a tag from its exclamation mark on. In a flow collection a comma may end it. -/
def scanTag (inFlow : Bool) (p : Cursor) : Option (WrittenTag × Cursor) := do
  let (tag, p) ←
    if (p.rest.drop 1).head? = some '<' then do
      let q := p.skip 2
      let (suffix, p) ← scanTagText true [] q
      if p.rest.head? = some '>' && p.column != q.column then
        some ((⟨"", suffix⟩ : WrittenTag), p.skip 1)
      else none
    else do
      let (handle, q) ← scanHandle p
      if 1 < handle.length && handle.getLast? = some '!' then
        let (suffix, p) ← scanTagText false [] q
        if p.column != q.column then some (⟨String.ofList handle, suffix⟩, p) else none
      else
        let (suffix, p) ← scanTagText false (handle.drop 1) q
        some (if suffix.isEmpty then ⟨"", TagBytes.ofChars handle⟩ else ⟨"!", suffix⟩, p)
  if (inFlow && p.rest.head? = some ',') || endsWord p.rest then return (tag, p) else none

/-- What a handle stands for. -/
structure TagHandle where
  handle : String
  start : TagBytes
deriving DecidableEq, Repr, Inhabited

/-- Every document knows the handle of local tags and the one of the core types. -/
def defaultHandles : List TagHandle :=
  [⟨"!", TagBytes.ofChars ['!']⟩, ⟨"!!", TagBytes.ofChars "tag:yaml.org,2002:".toList⟩]

/-- The full text of a written tag, if its handle is known. -/
def WrittenTag.resolve? (handles : List TagHandle) (tag : WrittenTag) : Option TagBytes :=
  if tag.handle.isEmpty then some tag.suffix
  else (handles.find? fun h => h.handle == tag.handle).map fun h => h.start ++ tag.suffix

end FilterQuery.Yaml
