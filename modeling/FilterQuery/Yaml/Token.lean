import FilterQuery.Yaml.Tag

/-!
# Tokens of a YAML text

The marks and scalars of a text, with indentation turned into tokens: a block collection has a start, where
its first entry is indented further than what holds it, and an end, where a line is indented less. The end of
the list is the end of the stream.
-/

namespace FilterQuery.Yaml

/-- How a scalar is written. Only a plain one is more than text. -/
inductive Style where
  | plain
  | quoted
  | block
deriving DecidableEq, Repr, Inhabited

inductive Token where
  | versionDirective (major minor : Nat)
  | tagDirective (handle : TagHandle)
  | documentStart
  | documentEnd
  | blockSequenceStart
  | blockMappingStart
  | blockEnd
  | flowSequenceStart
  | flowSequenceEnd
  | flowMappingStart
  | flowMappingEnd
  | blockEntry
  | flowEntry
  | key
  | value
  | aliasTo (name : String)
  | anchor (name : String)
  | tag (tag : WrittenTag)
  | scalar (style : Style) (text : String)
deriving DecidableEq, Repr, Inhabited

end FilterQuery.Yaml
