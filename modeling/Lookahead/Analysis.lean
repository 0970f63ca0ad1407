import Lookahead.Follow

/-!
# Analysis — FIRST and FOLLOW together, by id and by name

- `Grammar.analyze`: the FIRST sets, then the FOLLOW sets.
- `Analysis.label`: the name of an entry.
- `Analysis.firstByName`, `Analysis.followByName`: the sets of the non-terminals by name.
-/

namespace Lookahead

structure Analysis where
  grammar : Grammar
  first : SetMap
  follow : SetMap
  firstPasses : Nat
  followPasses : Nat

/-- Label sets by name: one pair for each non-terminal. -/
abbrev NamedSets := List (String × List String)

def Grammar.analyze (g : Grammar) : Except Fault Analysis := do
  let (first, firstPasses) ← g.first
  let (follow, followPasses) ← g.follow first
  return ⟨g, first, follow, firstPasses, followPasses⟩

namespace Analysis

def label (a : Analysis) : Entry → Except Fault String
  | .symbol id => a.grammar.symbols.nameOf id
  | .empty => .ok emptyName
  | .endOfInput => .ok endName

/-- The row of the non-terminal `id` in `sets`, by name and with each label once. The labels of the
row are looked up before the name of `id`. -/
def namedRow (a : Analysis) (sets : SetMap) (id : SymbolId) :
    Except Fault (String × List String) := do
  let row ← sets.row id
  let labels ← row.mapM a.label
  let name ← a.grammar.symbols.nameOf id
  return (name, labels.eraseDups)

/-- `namedRow` of every non-terminal, in id order. -/
def byName (a : Analysis) (sets : SetMap) : Except Fault NamedSets :=
  (inIdOrder a.grammar.nonTerminals).mapM (a.namedRow sets)

def firstByName (a : Analysis) : Except Fault NamedSets :=
  a.byName a.first

def followByName (a : Analysis) : Except Fault NamedSets :=
  a.byName a.follow

end Analysis

/-- The sets of `analyze` as `NamedSets`: first FIRST, then FOLLOW. -/
def Grammar.namedSets (g : Grammar) : Except Fault (NamedSets × NamedSets) := do
  let a ← g.analyze
  let first ← a.firstByName
  let follow ← a.followByName
  return (first, follow)

end Lookahead
