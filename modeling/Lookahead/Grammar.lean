import Lookahead.Description
import Lookahead.SymbolTable

/-!
# Grammar — rules between symbol ids

- `Rule`: a head and an alternate. The alternate of an empty rule holds the empty derivation alone.
- `Grammar`: the symbols, which of them are terminals and non-terminals, the rules in the order of
  their declaration, and the start symbol.
- `Grammar.production`: a rule by name.
- `Grammar.describe`: a grammar by name.
-/

namespace Lookahead

structure Rule where
  head : SymbolId
  alternate : List Entry
  index : Nat := 0
  deriving DecidableEq, Repr

def Rule.isEpsilon (r : Rule) : Bool :=
  r.alternate == [.empty]

/-- A grammar over symbol ids. The lists `terminals` and `nonTerminals` stand for sets: no id occurs
twice in one of them, and their order means nothing. -/
structure Grammar where
  symbols : SymbolTable
  terminals : List SymbolId
  nonTerminals : List SymbolId
  rules : List Rule
  start : SymbolId

namespace Grammar

def startName (g : Grammar) : Except Fault String :=
  g.symbols.nameOf g.start

/-- The name of an element of an alternate. `.endOfInput` has none. -/
def elementName (g : Grammar) : Entry → Except Fault String
  | .symbol id => g.symbols.nameOf id
  | .empty => .ok emptyName
  | .endOfInput => .error .endHasNoNumber

/-- `r` by name. The alternate is looked up before the head. -/
def production (g : Grammar) (r : Rule) : Except Fault Production := do
  let alternate ← r.alternate.mapM g.elementName
  let head ← g.symbols.nameOf r.head
  return ⟨head, alternate, none⟩

def ruleText (g : Grammar) (r : Rule) : Except Fault String := do
  let p ← g.production r
  return p.text

/-- `g` by name, with its terminals and its non-terminals in id order. -/
def describe (g : Grammar) : Except Fault Description := do
  let start ← g.startName
  let terminals ← (inIdOrder g.terminals).mapM g.symbols.nameOf
  let nonTerminals ← (inIdOrder g.nonTerminals).mapM g.symbols.nameOf
  let productions ← g.rules.mapM g.production
  return ⟨start, terminals, nonTerminals, productions⟩

/-- The start symbol by name, and the numbers of terminals, non-terminals and rules. -/
def summary (g : Grammar) : Except Fault String := do
  let start ← g.startName
  return "Grammar(start=" ++ Text.quoted start ++
    ", terminals=" ++ toString g.terminals.length ++
    ", non_terminals=" ++ toString g.nonTerminals.length ++
    ", rules=" ++ toString g.rules.length ++ ")"

end Grammar

end Lookahead
