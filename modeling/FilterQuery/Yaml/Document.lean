import FilterQuery.Text.Blank
import FilterQuery.Yaml.Node
import FilterQuery.Yaml.Value

/-!
# Reading a YAML document

The value of a text is that of its only document's node, with every alias replaced by the value of the node it
names. Anchors are numbered in the order of the text, and a number is the count of the names seen before. So a
name that is given a second time takes the number that the next new name takes too, and of the nodes with one
number the last one counts, wherever the alias stands.

Three limits keep the value of a short text small: collections nest 128 deep at most, an alias inside its own
node counting each time round; aliases are followed at most a hundred times for each mark of the text; and a
mapping does not hold a key twice.
-/

namespace FilterQuery.Yaml

namespace Node

/-! ## Anchors -/

/-- The names of anchors with their numbers. -/
abbrev Names := List (String × Nat)

/-- Gives a name its number, in place of the one it had. -/
def Names.add (names : Names) (name : String) : Nat × Names :=
  let n := names.length
  (n, (name, n) :: names.filter fun b => b.1 != name)

def numberProps (names : Names) (props : Props String) : Props Nat × Names :=
  match props.anchor with
  | none => (⟨none, props.tag⟩, names)
  | some name =>
    let (n, names) := names.add name
    (⟨some n, props.tag⟩, names)

mutual

/-- The node with numbers for names, unless an alias names no anchor before it. -/
def number? (names : Names) : Node String → Option (Node Nat × Names)
  | aliasTo name => (names.lookup name).map fun n => (aliasTo n, names)
  | scalar props style text =>
    let (props, names) := numberProps names props
    some (scalar props style text, names)
  | sequence props items => do
    let (props, names) := numberProps names props
    let (items, names) ← numberItems? names items
    return (sequence props items, names)
  | mapping props entries => do
    let (props, names) := numberProps names props
    let (entries, names) ← numberEntries? names entries
    return (mapping props entries, names)

def numberItems? (names : Names) : List (Node String) → Option (List (Node Nat) × Names)
  | [] => some ([], names)
  | x :: xs => do
    let (x, names) ← number? names x
    let (xs, names) ← numberItems? names xs
    return (x :: xs, names)

def numberEntries? (names : Names) :
    List (Node String × Node String) → Option (List (Node Nat × Node Nat) × Names)
  | [] => some ([], names)
  | e :: es => do
    let (e, names) ← numberEntry? names e
    let (es, names) ← numberEntries? names es
    return (e :: es, names)

def numberEntry? (names : Names) : Node String × Node String → Option ((Node Nat × Node Nat) × Names)
  | (k, v) => do
    let (k, names) ← number? names k
    let (v, names) ← number? names v
    return ((k, v), names)

end

def anchor? : Node Nat → Option Nat
  | aliasTo _ => none
  | scalar props _ _ => props.anchor
  | sequence props _ => props.anchor
  | mapping props _ => props.anchor

mutual

/-- The nodes with an anchor, the last one first, before those of `found`. -/
def anchored (found : List (Nat × Node Nat)) (node : Node Nat) : List (Nat × Node Nat) :=
  let found := match node.anchor? with
    | some n => (n, node) :: found
    | none => found
  match node with
  | aliasTo _ => found
  | scalar _ _ _ => found
  | sequence _ items => anchoredItems found items
  | mapping _ entries => anchoredEntries found entries

def anchoredItems (found : List (Nat × Node Nat)) : List (Node Nat) → List (Nat × Node Nat)
  | [] => found
  | x :: xs => anchoredItems (anchored found x) xs

def anchoredEntries (found : List (Nat × Node Nat)) : List (Node Nat × Node Nat) → List (Nat × Node Nat)
  | [] => found
  | e :: es => anchoredEntries (anchoredEntry found e) es

def anchoredEntry (found : List (Nat × Node Nat)) : Node Nat × Node Nat → List (Nat × Node Nat)
  | (k, v) => anchored (anchored found k) v

end

mutual

/-- The marks of a node: one for a scalar or an alias, and the start and end of a collection. -/
def marks : Node Nat → Nat
  | aliasTo _ => 1
  | scalar _ _ _ => 1
  | sequence _ items => 2 + marksOfItems items
  | mapping _ entries => 2 + marksOfEntries entries

def marksOfItems : List (Node Nat) → Nat
  | [] => 0
  | x :: xs => marks x + marksOfItems xs

def marksOfEntries : List (Node Nat × Node Nat) → Nat
  | [] => 0
  | e :: es => marksOfEntry e + marksOfEntries es

def marksOfEntry : Node Nat × Node Nat → Nat
  | (k, v) => marks k + marks v

end

/-! ## Values -/

/-- The name of a local tag: what follows its exclamation mark, or the mark itself if nothing does. -/
def localTag? : Option TagBytes → Option String
  | some (0x21 :: rest) => TagBytes.text? (if rest.isEmpty then [0x21] else rest)
  | _ => none

/-- The value of a scalar, less a local tag. A core tag says what it has to be; else its form does. -/
def scalarValue? (tag : Option TagBytes) (style : Style) (text : String) : Option Value :=
  match tag.filter fun bytes => bytes.head? != some 0x21 with
  | some bytes => Value.ofTagged? ((TagBytes.text? bytes).getD "") text
  | none => if style = .plain then Value.ofPlain? text else some (.string text)

/-- What an expansion knows of the whole document. -/
structure Expansion where
  anchored : List (Nat × Node Nat)
  maxJumps : Nat

/-- A value, and how many aliases have been followed by then. -/
abbrev Expanded := Option (Value × Nat)

/-- Puts a local tag on a value. Tags of other kinds leave no trace. -/
def withTag (tag : Option TagBytes) (value : Value) : Value :=
  match localTag? tag with
  | some name => .tagged name value
  | none => value

/-- The items of a sequence, one after the other. -/
def expandItems (expand : Nat → Node Nat → Expanded) (jumps : Nat) :
    List (Node Nat) → Option (List Value × Nat)
  | [] => some ([], jumps)
  | x :: xs => do
    let (v, jumps) ← expand jumps x
    let (vs, jumps) ← expandItems expand jumps xs
    return (v :: vs, jumps)

/-- The entries of a mapping, one after the other, which ends at a key that was there before. -/
def expandEntries (expand : Nat → Node Nat → Expanded) (jumps : Nat) (seen : List Value) :
    List (Node Nat × Node Nat) → Option (List (Value × Value) × Nat)
  | [] => some ([], jumps)
  | (k, v) :: es => do
    let (key, jumps) ← expand jumps k
    if seen.any fun other => other.same key then none
    else
      let (value, jumps) ← expand jumps v
      let (entries, jumps) ← expandEntries expand jumps (key :: seen) es
      return ((key, value) :: entries, jumps)

/-- The node that an alias stands for, and the count of aliases with it. -/
def Expansion.follow? (x : Expansion) (jumps n : Nat) : Option (Node Nat × Nat) :=
  if x.maxJumps < jumps + 1 then none else (x.anchored.lookup n).map fun node => (node, jumps + 1)

/-- The value of a node within at most `depth` nested collections. -/
def Expansion.expand? (x : Expansion) (depth : Nat) (jumps : Nat) (node : Node Nat) : Expanded :=
  let start? : Option (Node Nat × Nat) :=
    match node with
    | aliasTo n => x.follow? jumps n
    | node => some (node, jumps)
  match start? with
  | none => none
  | some (node, jumps) =>
    match node, depth with
    | aliasTo _, _ => none
    | scalar props style text, _ =>
      (scalarValue? props.tag style text).map fun v => (withTag props.tag v, jumps)
    | sequence _ _, 0 => none
    | mapping _ _, 0 => none
    | sequence props items, depth + 1 =>
      (expandItems (x.expand? depth) jumps items).map fun (vs, jumps) =>
        (withTag props.tag (.sequence vs), jumps)
    | mapping props entries, depth + 1 =>
      (expandEntries (x.expand? depth) jumps [] entries).map fun (es, jumps) =>
        (withTag props.tag (.mapping es), jumps)

/-- How deep collections may nest. -/
def maxDepth : Nat := 128

/-- The value of the node of a document. -/
def value? (node : Node String) : Option Value := do
  let (node, _) ← number? [] node
  let x : Expansion := ⟨anchored [] node, 100 * node.marks⟩
  let (v, _) ← x.expand? maxDepth 0 node
  return v

end Node

/-- The value of a YAML text with at most one document. Without a document it is null, and white space of any
kind makes no document. -/
def read? (text : String) : Option Value :=
  if Text.isBlank text then some .null
  else do
    let ts ← tokens? text
    match ← Node.ofTokens? ts with
    | none => return .null
    | some node => node.value?

end FilterQuery.Yaml
