import Lookahead.Description
import Lookahead.Symbol

/-!
# Description/WellFormed — which descriptions are grammars

The condition speaks of names and lists alone.

- `Description.Declares`: a name that is listed, or the start symbol.
- `Description.WellFormed`: reserved names are not declared, terminals are nothing else, rules use
  what is declared, and the start symbol has a rule.
-/

namespace Lookahead
namespace Description

/-- `name` stands for a symbol: it is a terminal, a non-terminal or the start symbol. -/
def Declares (d : Description) (name : String) : Prop :=
  name ∈ d.terminals ∨ name ∈ d.nonTerminals ∨ name = d.start

/-- `name` stands for a non-terminal, as all listed ones and the start symbol do. -/
def DeclaresNonTerminal (d : Description) (name : String) : Prop :=
  name ∈ d.nonTerminals ∨ name = d.start

instance (d : Description) (name : String) : Decidable (d.Declares name) :=
  inferInstanceAs (Decidable (_ ∨ _ ∨ _))

instance (d : Description) (name : String) : Decidable (d.DeclaresNonTerminal name) :=
  inferInstanceAs (Decidable (_ ∨ _))

structure WellFormed (d : Description) : Prop where
  unreserved : ∀ name ∈ d.start :: d.terminals ++ d.nonTerminals,
    name ≠ emptyName ∧ name ≠ endName
  disjoint : ∀ name ∈ d.terminals, ¬d.DeclaresNonTerminal name
  heads : ∀ p ∈ d.productions, d.DeclaresNonTerminal p.head
  alternates : ∀ p ∈ d.productions,
    p.alternate = [] ∨ p.alternate = [emptyName] ∨ ∀ name ∈ p.alternate, d.Declares name
  startRule : ∃ p ∈ d.productions, p.head = d.start

end Description
end Lookahead
