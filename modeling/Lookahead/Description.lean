import Lookahead.Token

/-!
# Description — a grammar as it is written down

A description names a start symbol, lists the terminals and the non-terminals, and gives the rules.
All symbols are names; nothing is checked yet.

- `Production`: a rule between names, with the part of the source that it was read from.
- `Description`: the four parts.
- `Description.words`: the words that make up a description, in the order of the format.
- `Description.IsSentence`: the word sequences of the format.
- `Description.text`: a description written out, one part a line.
-/

namespace Lookahead

/-! ## Parts -/

/-- A part of a source text, from the offset `start` up to `stop`, with the line and the column of
`start`. -/
structure SourceSpan where
  start : Int
  stop : Int
  line : Int
  column : Int
  deriving DecidableEq, Repr

structure Production where
  head : String
  alternate : List String
  span : Option SourceSpan := none
  deriving DecidableEq, Repr

structure Description where
  start : String
  terminals : List String
  nonTerminals : List String
  productions : List Production
  deriving DecidableEq, Repr

/-- The production as a rule is written: the head, an arrow, the names of the alternate and a
dot. -/
def Production.text (p : Production) : String :=
  p.head ++ " -> " ++ String.intercalate " " p.alternate ++ " ."

/-! ## The format -/

/-- The four parts of a description, each with a `Part.label` of its own. -/
inductive Part
  | start
  | terminals
  | nonTerminals
  | rules
  deriving DecidableEq, Repr

/-- The label that a part begins with. -/
def Part.label : Part → String
  | .start => ":Start:"
  | .terminals => ":Terminals:"
  | .nonTerminals => ":NonTerminals:"
  | .rules => ":Rules:"

namespace Word

def label (p : Part) : Word := ⟨.label, p.label⟩

def name (n : String) : Word := ⟨.name, n⟩

def arrow : Word := ⟨.arrow, "->"⟩

def dot : Word := ⟨.dot, "."⟩

end Word

/-- The words of a production: head, arrow, alternate and dot. -/
def Production.words (p : Production) : List Word :=
  Word.name p.head :: Word.arrow :: p.alternate.map Word.name ++ [Word.dot]

namespace Description

def words (d : Description) : List Word :=
  [Word.label .start, Word.name d.start]
    ++ Word.label .terminals :: d.terminals.map Word.name
    ++ Word.label .nonTerminals :: d.nonTerminals.map Word.name
    ++ Word.label .rules :: d.productions.flatMap Production.words

/-- The format asks for at least one terminal, one non-terminal and one production, and for at least
one name in each alternate. -/
def Complete (d : Description) : Prop :=
  d.terminals ≠ [] ∧ d.nonTerminals ≠ [] ∧ d.productions ≠ [] ∧
    ∀ p ∈ d.productions, p.alternate ≠ []

/-- `ws` are the `words` of a `Complete` description. -/
def IsSentence (ws : List Word) : Prop :=
  ∃ d : Description, d.Complete ∧ ws = d.words

/-- The description written out: a line for each of the first three parts, the label of the rules,
and a line for each production. -/
def text (d : Description) : String :=
  let part (p : Part) (names : List String) : String :=
    p.label ++ " " ++ String.intercalate " " names
  String.intercalate "\n"
    ([part .start [d.start], part .terminals d.terminals, part .nonTerminals d.nonTerminals,
      Part.label .rules] ++ d.productions.map Production.text)

end Description

end Lookahead
