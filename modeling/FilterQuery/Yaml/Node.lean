import FilterQuery.Yaml.Lexer

/-!
# The nodes of a YAML text

A document is a tree of nodes: scalars, sequences, mappings and aliases, each but the last with an optional
anchor and tag. The tree is read from the tokens by descent. An entry that is not written is an empty plain
scalar.

Where tokens are left after the document, the stream holds a second one, and is refused.
-/

namespace FilterQuery.Yaml

/-- What may stand before a node. `ρ` is how anchors are named. -/
structure Props (ρ : Type) where
  anchor : Option ρ
  tag : Option TagBytes
deriving Inhabited

inductive Node (ρ : Type) where
  | aliasTo (target : ρ)
  | scalar (props : Props ρ) (style : Style) (text : String)
  | sequence (props : Props ρ) (items : List (Node ρ))
  | mapping (props : Props ρ) (entries : List (Node ρ × Node ρ))
deriving Inhabited

namespace Node

/-- The node of an entry that is not written. -/
def empty : Node String := scalar ⟨none, none⟩ .plain ""

/-- Something read from `ts`, and the tokens after it. -/
structure Parsed (α : Type) (ts : List Token) where
  result : α
  rest : List Token
  notLonger : rest.length ≤ ts.length

/-- Something read from at least one token. -/
structure Consumed (α : Type) (ts : List Token) where
  result : α
  rest : List Token
  shorter : rest.length < ts.length

/-- Tokens before which the key or value of a block mapping is missing. -/
def endsBlockValue : Token → Bool
  | .key | .value | .blockEnd => true
  | _ => false

/-- Tokens before which an item of a block sequence is missing. -/
def endsBlockItem : Token → Bool
  | .blockEntry | .blockEnd => true
  | _ => false

/-- Tokens before which an item of a sequence without indentation is missing. -/
def endsIndentlessItem : Token → Bool
  | .blockEntry | .key | .value | .blockEnd => true
  | _ => false

/-- Tokens before which the value of a pair in a flow sequence is missing. -/
def endsPairValue : Token → Bool
  | .flowEntry | .flowSequenceEnd => true
  | _ => false

/-- Tokens in place of the key of a pair in a flow sequence. -/
def endsPairKey : Token → Bool
  | .value | .flowEntry | .flowSequenceEnd => true
  | _ => false

/-- Tokens before which the value in a flow mapping is missing. -/
def endsFlowValue : Token → Bool
  | .flowEntry | .flowMappingEnd => true
  | _ => false

/-- Tokens before which the key in a flow mapping is missing. -/
def endsFlowKey : Token → Bool
  | .value | .flowEntry | .flowMappingEnd => true
  | _ => false

/-- The anchor and the tag before a node, in either order, with the tag's handle resolved. -/
def readProps (handles : List TagHandle) (ts : List Token) : Option (Parsed (Props String) ts) :=
  match ts with
  | .anchor a :: .tag t :: rest =>
    (t.resolve? handles).map fun t => ⟨⟨some a, some t⟩, rest, by simp; omega⟩
  | .tag t :: .anchor a :: rest =>
    (t.resolve? handles).map fun t => ⟨⟨some a, some t⟩, rest, by simp; omega⟩
  | .anchor a :: rest => some ⟨⟨some a, none⟩, rest, by simp⟩
  | .tag t :: rest => (t.resolve? handles).map fun t => ⟨⟨none, some t⟩, rest, by simp⟩
  | rest => some ⟨⟨none, none⟩, rest, Nat.le_refl _⟩

/-- The entries of a flow collection after its first one have a comma before them. -/
def skipComma (isFirst : Bool) (ts : List Token) : Option { rest : List Token // rest.length ≤ ts.length } :=
  match isFirst, ts with
  | true, ts => some ⟨ts, Nat.le_refl _⟩
  | false, .flowEntry :: rest => some ⟨rest, by simp⟩
  | false, _ => none

/-- An anchor or a tag without a node is an empty scalar; where there is neither, a node is missing. -/
def lone {ts : List Token} (before : Parsed (Props String) ts) : Option (Consumed (Node String) ts) :=
  if h : before.rest.length < ts.length then some ⟨scalar before.result .plain "", before.rest, h⟩ else none

mutual

/-- A node. Block collections may only start in a block context, and a sequence without indentation of its own
only as the key or value of a block mapping. -/
def read (handles : List TagHandle) (inBlock mayBeIndentless : Bool) (ts : List Token) :
    Option (Consumed (Node String) ts) :=
  match ts with
  | .aliasTo name :: rest => some ⟨aliasTo name, rest, by simp⟩
  | ts =>
    match readProps handles ts with
    | none => none
    | some before =>
      have hle := before.notLonger
      match hrest : before.rest with
      | .scalar style text :: rest =>
        some ⟨scalar before.result style text, rest, by
          rw [hrest, List.length_cons] at hle; omega⟩
      | .flowSequenceStart :: rest =>
        have : rest.length < ts.length := by rw [hrest, List.length_cons] at hle; omega
        match readFlowSequence handles true rest with
        | none => none
        | some items =>
          some ⟨sequence before.result items.result, items.rest, Nat.lt_trans items.shorter this⟩
      | .flowMappingStart :: rest =>
        have : rest.length < ts.length := by rw [hrest, List.length_cons] at hle; omega
        match readFlowMapping handles true rest with
        | none => none
        | some entries =>
          some ⟨mapping before.result entries.result, entries.rest, Nat.lt_trans entries.shorter this⟩
      | .blockSequenceStart :: rest =>
        have : rest.length < ts.length := by rw [hrest, List.length_cons] at hle; omega
        match inBlock, readBlockSequence handles rest with
        | true, some items =>
          some ⟨sequence before.result items.result, items.rest, Nat.lt_trans items.shorter this⟩
        | _, _ => none
      | .blockMappingStart :: rest =>
        have : rest.length < ts.length := by rw [hrest, List.length_cons] at hle; omega
        match inBlock, readBlockMapping handles rest with
        | true, some entries =>
          some ⟨mapping before.result entries.result, entries.rest, Nat.lt_trans entries.shorter this⟩
        | _, _ => none
      | .blockEntry :: rest =>
        have : rest.length < ts.length := by rw [hrest, List.length_cons] at hle; omega
        if mayBeIndentless then
          match readIndentless handles rest with
          | none => none
          | some items =>
            some ⟨sequence before.result items.result, items.rest, Nat.lt_of_le_of_lt items.notLonger this⟩
        else lone before
      | _ => lone before
termination_by 3 * ts.length + 0

/-- A node, or the empty one if a token comes that it is missing before. -/
def readUnless (missing : Token → Bool) (handles : List TagHandle) (inBlock mayBeIndentless : Bool)
    (ts : List Token) : Option (Parsed (Node String) ts) :=
  match ts with
  | [] => none
  | t :: rest =>
    if missing t then some ⟨empty, t :: rest, Nat.le_refl _⟩
    else
      match read handles inBlock mayBeIndentless (t :: rest) with
      | none => none
      | some node => some ⟨node.result, node.rest, Nat.le_of_lt node.shorter⟩
termination_by 3 * ts.length + 1

/-- The items of a block sequence and its end. -/
def readBlockSequence (handles : List TagHandle) (ts : List Token) :
    Option (Consumed (List (Node String)) ts) :=
  match ts with
  | .blockEnd :: rest => some ⟨[], rest, by simp⟩
  | .blockEntry :: rest =>
    match readUnless endsBlockItem handles true false rest with
    | none => none
    | some item =>
      have := item.notLonger
      match readBlockSequence handles item.rest with
      | none => none
      | some items => some ⟨item.result :: items.result, items.rest, by
          have := items.shorter; simp only [List.length_cons]; omega⟩
  | _ => none
termination_by 3 * ts.length + 2

/-- The items of a sequence without indentation, the mark of the first one having been read. It ends before
the first token that is no such mark. -/
def readIndentless (handles : List TagHandle) (ts : List Token) : Option (Parsed (List (Node String)) ts) :=
  match readUnless endsIndentlessItem handles true false ts with
  | none => none
  | some item =>
    have hle := item.notLonger
    match hrest : item.rest with
    | .blockEntry :: rest =>
      have : rest.length < ts.length := by rw [hrest, List.length_cons] at hle; omega
      match readIndentless handles rest with
      | none => none
      | some items => some ⟨item.result :: items.result, items.rest, by have := items.notLonger; omega⟩
    | rest => some ⟨[item.result], rest, hrest ▸ hle⟩
termination_by 3 * ts.length + 2

/-- A value after its mark, or the empty one if there is no mark. -/
def readValue (missing : Token → Bool) (handles : List TagHandle) (inBlock : Bool) (ts : List Token) :
    Option (Parsed (Node String) ts) :=
  match ts with
  | .value :: rest =>
    match readUnless missing handles inBlock inBlock rest with
    | none => none
    | some node => some ⟨node.result, node.rest, by
        have := node.notLonger; simp only [List.length_cons]; omega⟩
  | ts => some ⟨empty, ts, Nat.le_refl _⟩
termination_by 3 * ts.length + 0

/-- The entries of a block mapping and its end. -/
def readBlockMapping (handles : List TagHandle) (ts : List Token) :
    Option (Consumed (List (Node String × Node String)) ts) :=
  match ts with
  | .blockEnd :: rest => some ⟨[], rest, by simp⟩
  | .key :: rest =>
    match readUnless endsBlockValue handles true true rest with
    | none => none
    | some key =>
      have := key.notLonger
      match readValue endsBlockValue handles true key.rest with
      | none => none
      | some value =>
        have := value.notLonger
        match readBlockMapping handles value.rest with
        | none => none
        | some entries => some ⟨(key.result, value.result) :: entries.result, entries.rest, by
            have := entries.shorter; simp only [List.length_cons]; omega⟩
  | _ => none
termination_by 3 * ts.length + 2

/-- The key of a pair in a flow sequence. A token in place of the key is passed over. -/
def readPairKey (handles : List TagHandle) (ts : List Token) : Option (Parsed (Node String) ts) :=
  match ts with
  | [] => none
  | t :: rest =>
    if endsPairKey t then some ⟨empty, rest, by simp⟩
    else
      match read handles false false (t :: rest) with
      | none => none
      | some node => some ⟨node.result, node.rest, Nat.le_of_lt node.shorter⟩
termination_by 3 * ts.length + 1

/-- The items of a flow sequence and its end. A pair among them is a mapping of its own. -/
def readFlowSequence (handles : List TagHandle) (isFirst : Bool) (ts : List Token) :
    Option (Consumed (List (Node String)) ts) :=
  match ts with
  | .flowSequenceEnd :: rest => some ⟨[], rest, by simp⟩
  | ts =>
    match skipComma isFirst ts with
    | none => none
    | some ⟨entry, hle⟩ =>
      match entry, hle with
      | .flowSequenceEnd :: rest, hle => some ⟨[], rest, by rw [List.length_cons] at hle; omega⟩
      | .key :: rest, hle =>
        have : rest.length < ts.length := by rw [List.length_cons] at hle; omega
        match readPairKey handles rest with
        | none => none
        | some key =>
          have := key.notLonger
          match readValue endsPairValue handles false key.rest with
          | none => none
          | some value =>
            have := value.notLonger
            match readFlowSequence handles false value.rest with
            | none => none
            | some items =>
              some ⟨mapping ⟨none, none⟩ [(key.result, value.result)] :: items.result, items.rest, by
                have := items.shorter; omega⟩
      | entry, hle =>
        match read handles false false entry with
        | none => none
        | some item =>
          have := item.shorter
          match readFlowSequence handles false item.rest with
          | none => none
          | some items => some ⟨item.result :: items.result, items.rest, by
              have := items.shorter; omega⟩
termination_by 3 * ts.length + 2

/-- The entries of a flow mapping and its end. An entry that is no pair is a key without a value. -/
def readFlowMapping (handles : List TagHandle) (isFirst : Bool) (ts : List Token) :
    Option (Consumed (List (Node String × Node String)) ts) :=
  match ts with
  | .flowMappingEnd :: rest => some ⟨[], rest, by simp⟩
  | ts =>
    match skipComma isFirst ts with
    | none => none
    | some ⟨entry, hle⟩ =>
      match entry, hle with
      | .flowMappingEnd :: rest, hle => some ⟨[], rest, by rw [List.length_cons] at hle; omega⟩
      | .key :: rest, hle =>
        have : rest.length < ts.length := by rw [List.length_cons] at hle; omega
        match readUnless endsFlowKey handles false false rest with
        | none => none
        | some key =>
          have := key.notLonger
          match readValue endsFlowValue handles false key.rest with
          | none => none
          | some value =>
            have := value.notLonger
            match readFlowMapping handles false value.rest with
            | none => none
            | some entries => some ⟨(key.result, value.result) :: entries.result, entries.rest, by
                have := entries.shorter; omega⟩
      | entry, hle =>
        match read handles false false entry with
        | none => none
        | some key =>
          have := key.shorter
          match readFlowMapping handles false key.rest with
          | none => none
          | some entries => some ⟨(key.result, empty) :: entries.result, entries.rest, by
              have := entries.shorter; omega⟩
termination_by 3 * ts.length + 2

end

/-! ## Documents -/

/-- The directives of a document, up to its first other token. At most one gives the version, which is 1.1 or
1.2, and none gives a handle a second meaning. -/
def readDirectives (hasVersion : Bool) (handles : List TagHandle) :
    List Token → Option (List TagHandle × List Token)
  | .versionDirective major minor :: rest =>
    if hasVersion || major ≠ 1 || (minor ≠ 1 && minor ≠ 2) then none
    else readDirectives true handles rest
  | .tagDirective h :: rest =>
    if handles.any fun other => other.handle == h.handle then none
    else readDirectives hasVersion (handles ++ [h]) rest
  | rest => some (handles, rest)

/-- Tokens before which the node of a document is missing. -/
def endsDocument : Token → Bool
  | .versionDirective _ _ | .tagDirective _ | .documentStart | .documentEnd => true
  | _ => false

/-- Whether nothing but marks of a document's end is left. -/
def isFinished (ts : List Token) : Bool :=
  ts.all fun
    | .documentEnd => true
    | _ => false

/-- The node of the only document of a stream, if it holds one. -/
def ofTokens? (ts : List Token) : Option (Option (Node String)) := do
  match ts with
  | [] => return none
  | t :: rest =>
    let isExplicit := match t with
      | .documentEnd => false
      | t => endsDocument t
    if isExplicit then
      let (handles, rest) ← readDirectives false [] ts
      match rest with
      | .documentStart :: rest =>
        if rest.head?.all endsDocument then
          if isFinished rest then return some empty else none
        else
          let node ← read (handles ++ defaultHandles) true false rest
          if isFinished node.rest then return some node.result else none
      | _ => none
    else
      let node ← read defaultHandles true false (t :: rest)
      if isFinished node.rest then return some node.result else none

end Node

end FilterQuery.Yaml
