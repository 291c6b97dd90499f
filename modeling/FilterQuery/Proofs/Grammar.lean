import FilterQuery.Token
import FilterQuery.Expr.Basic

/-!
# The grammar of filters

What a filter says, without a reader: a relation between the texts of its tokens and the tree they write.

* a disjunction is a sequence of one or more conjunctions with `or` between them,
* a conjunction is a sequence of one or more terms with `and` between them,
* a term is a disjunction in parentheses, or a name, an operator and a value.

The two sequences differ in their word and in what they join, so they are one relation over a `Connective`. A
sequence of one operand is that operand. A text does not tell whether it is a word of the grammar: any text
but `(` may be a name, and any text at all a value.

That a list of texts has at most one tree is shown where the reader is compared with the grammar
(`Acceptance.lean`), because every derivation is a run of the reader.
-/

namespace FilterQuery

/-- The two words that join operands. -/
inductive Connective where
  | and
  | or
deriving DecidableEq, Repr

namespace Connective

def keyword : Connective → String
  | and => "and"
  | or => "or"

def combine : Connective → List Expr → Expr
  | and => .and
  | or => .or

/-- The tree of a sequence of operands: a single one stands for itself. -/
def join (c : Connective) : List Expr → Expr
  | [e] => e
  | es => c.combine es

/-- The text is the word of the connective, in capitals or not. -/
def Spells (c : Connective) (text : String) : Prop :=
  text.toList.map Char.toLower = c.keyword.toList

end Connective

namespace Grammar

/-- The phrases of the grammar: terms, and the sequences of either connective. -/
inductive Level where
  | term
  | chain (c : Connective)
deriving DecidableEq, Repr

end Grammar

/-- What a connective joins: `and` joins terms, `or` joins conjunctions. -/
def Connective.operand : Connective → Grammar.Level
  | and => .term
  | or => .chain .and

namespace Grammar

variable (resolve : String → Option String)

mutual

/-- The texts are a phrase of the level, and write the tree. -/
inductive Derives : Level → List String → Expr → Prop
  | comparison {name operator value field : String} {op : CompareOp} (hp : name ≠ "(")
      (hf : resolve name = some field) (ho : CompareOp.ofKeyword? operator = some op) :
      Derives .term [name, operator, value] (.comparison ⟨field, name, op, .ofToken value⟩)
  | group {texts : List String} {e : Expr} (h : Derives (.chain .or) texts e) :
      Derives .term ("(" :: texts ++ [")"]) e
  | chain {c : Connective} {texts : List String} {es : List Expr} (h : Joined c texts es) :
      Derives (.chain c) texts (c.join es)

/-- The texts are one or more operands of the connective, with its word between each two. -/
inductive Joined : Connective → List String → List Expr → Prop
  | one {c : Connective} {texts : List String} {e : Expr} (h : Derives c.operand texts e) :
      Joined c texts [e]
  | snoc {c : Connective} {before texts : List String} {word : String} {es : List Expr} {e : Expr}
      (hs : Joined c before es) (hw : c.Spells word) (h : Derives c.operand texts e) :
      Joined c (before ++ word :: texts) (es ++ [e])

end

end Grammar

end FilterQuery
