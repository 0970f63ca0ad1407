import Lookahead.Grammar
import Mathlib.Logic.Relation

/-!
# Derivation — what sentential forms derive

A sentential form is a sequence of symbols. A derivation step puts the symbols of an alternate in
the place of one occurrence of the head of its rule.

- `Grammar.Step`: one derivation step.
- `Grammar.Derives`: any number of them.
- `Grammar.Derives.append`: the parts of a form derive side by side.
- `Grammar.Reduced`: every non-terminal occurs in a form derived from the start symbol and derives a
  word of terminals.
-/

namespace Lookahead

/-- The symbols of `r.alternate`. The entry `.empty` stands for none. -/
def Rule.body (r : Rule) : List SymbolId :=
  r.alternate.filterMap fun
    | .symbol id => some id
    | _ => none

namespace Grammar

/-! ## Derivation steps -/

inductive Step (g : Grammar) : List SymbolId → List SymbolId → Prop
  | rule {r : Rule} (h : r ∈ g.rules) (before after : List SymbolId) :
      Step g (before ++ r.head :: after) (before ++ r.body ++ after)

def Derives (g : Grammar) : List SymbolId → List SymbolId → Prop :=
  Relation.ReflTransGen g.Step

namespace Step

variable {g : Grammar} {u v : List SymbolId}

theorem append_left (w : List SymbolId) (h : g.Step u v) : g.Step (w ++ u) (w ++ v) := by
  cases h with
  | @rule r hr before after =>
    simpa [List.append_assoc] using Step.rule hr (w ++ before) after

theorem append_right (w : List SymbolId) (h : g.Step u v) : g.Step (u ++ w) (v ++ w) := by
  cases h with
  | @rule r hr before after =>
    simpa [List.append_assoc] using Step.rule hr before (after ++ w)

end Step

namespace Derives

variable {g : Grammar} {u v u' v' : List SymbolId}

theorem append_left (w : List SymbolId) (h : g.Derives u v) : g.Derives (w ++ u) (w ++ v) := by
  induction h with
  | refl => exact Relation.ReflTransGen.refl
  | tail _ hstep ih => exact ih.tail (hstep.append_left w)

theorem append_right (w : List SymbolId) (h : g.Derives u v) : g.Derives (u ++ w) (v ++ w) := by
  induction h with
  | refl => exact Relation.ReflTransGen.refl
  | tail _ hstep ih => exact ih.tail (hstep.append_right w)

/-- Two parts, `u` and `v`, derive side by side. -/
theorem append (hu : g.Derives u u') (hv : g.Derives v v') : g.Derives (u ++ v) (u' ++ v') :=
  (hu.append_right v).trans (hv.append_left u')

/-- The head of a rule derives the `body` of the rule. -/
theorem of_rule {r : Rule} (h : r ∈ g.rules) : g.Derives [r.head] r.body := by
  have hstep : g.Step [r.head] r.body := by
    simpa using Step.rule h [] []
  exact Relation.ReflTransGen.single hstep

end Derives

/-! ## Words and reduced grammars -/

/-- `w` consists of terminals alone. -/
def IsWord (g : Grammar) (w : List SymbolId) : Prop :=
  ∀ x ∈ w, x ∈ g.terminals

/-- `x` occurs in some form that is derived from `g.start`. -/
def Reachable (g : Grammar) (x : SymbolId) : Prop :=
  ∃ before after : List SymbolId, g.Derives [g.start] (before ++ x :: after)

/-- `x` derives some `IsWord`. -/
def Productive (g : Grammar) (x : SymbolId) : Prop :=
  ∃ w, g.IsWord w ∧ g.Derives [x] w

def Reduced (g : Grammar) : Prop :=
  ∀ x ∈ g.nonTerminals, g.Reachable x ∧ g.Productive x

end Grammar
end Lookahead
