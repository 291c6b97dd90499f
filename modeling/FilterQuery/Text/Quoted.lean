import FilterQuery.Text.Hidden

/-!
# Quoted texts in diagnostics

A text that a diagnostic reports is put in double quotes. Quotes, backslashes and the usual controls are
written with a backslash, and a character without a visible form by its code point.
-/

namespace FilterQuery.Text

/-- The code point in lower-case hexadecimal, without padding, in braces. -/
def codePoint (c : Char) : List Char :=
  '\\' :: 'u' :: '\x7b' :: Nat.toDigits 16 c.toNat ++ ['\x7d']

def quotedChar (c : Char) : List Char :=
  if c = '"' then ['\\', '"']
  else if c = '\\' then ['\\', '\\']
  else if c = '\n' then ['\\', 'n']
  else if c = '\r' then ['\\', 'r']
  else if c = '\t' then ['\\', 't']
  else if c = '\x00' then ['\\', '0']
  else if isHidden c then codePoint c
  else [c]

def quoted (s : String) : String :=
  String.ofList ('"' :: s.toList.flatMap quotedChar ++ ['"'])

end FilterQuery.Text
