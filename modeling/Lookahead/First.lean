import Lookahead.Grammar
import Lookahead.Saturation

/-!
# First — FIRST sets of all symbols

The FIRST set of a terminal is the terminal itself. The sets of the non-terminals start empty, and
each rule adds the FIRST set of its alternate to the set of its head, rule by rule in the order of
declaration, until a whole pass adds nothing.
-/

namespace Lookahead
namespace Grammar

/-- The map before the first pass: `{t}` for each terminal `t`, and an empty row for each
non-terminal, even if it is listed as a terminal too. -/
def initialFirst (g : Grammar) : SetMap :=
  ⟨g.nonTerminals.map (fun id => (id, [])) ++
    (g.terminals.filter (· ∉ g.nonTerminals)).map fun id => (id, [.symbol id])⟩

/-- `m` with what `r` adds to the row of its head: `firstOf` of its alternate. -/
def extendFirst (m : SetMap) (r : Rule) : Except Fault SetMap := do
  let new ← m.firstOf r.alternate
  m.extend? r.head new

def firstPass (g : Grammar) (m : SetMap) : Except Fault SetMap :=
  g.rules.foldlM extendFirst m

/-- An upper bound for the `size` of the FIRST sets: each of the rows holds terminals and `.empty`
at most. -/
def firstCapacity (g : Grammar) : Nat :=
  (g.nonTerminals.length + g.terminals.length) * (g.terminals.length + 1)

/-- The FIRST sets of `g`, and the number of passes up to the one that adds nothing. -/
def first (g : Grammar) : Except Fault (SetMap × Nat) :=
  SetMap.saturate g.firstPass g.firstCapacity g.initialFirst

end Grammar
end Lookahead
