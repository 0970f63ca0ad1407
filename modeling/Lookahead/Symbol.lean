/-!
# Symbol — classes, ids, reserved names and set entries

Symbols are known by number. Two things that are no symbols stand beside them in FIRST and FOLLOW
sets and in rules: the empty derivation and the end of input. Their names are reserved.

- `SymbolClass`: terminal, non-terminal, or the class of the empty derivation, which no symbol has.
- `Entry`: a symbol or one of the two markers.
- `isReservedName`: the names that no symbol may have in a description.
-/

namespace Lookahead

/-- The ids of declared symbols count from zero; other integers are ids of nothing. -/
abbrev SymbolId := Int

/-- `ids` with `id` as the last one, if it is new. -/
def addId (ids : List SymbolId) (id : SymbolId) : List SymbolId :=
  if id ∈ ids then ids else ids ++ [id]

/-- `ids` from the lowest to the highest. -/
def inIdOrder (ids : List SymbolId) : List SymbolId :=
  ids.mergeSort fun a b => decide (a ≤ b)

@[simp]
theorem mem_addId {ids : List SymbolId} {id x : SymbolId} :
    x ∈ addId ids id ↔ x ∈ ids ∨ x = id := by
  unfold addId
  split
  · next h =>
    constructor
    · exact Or.inl
    · rintro (hx | rfl)
      · exact hx
      · exact h
  · simp

@[simp]
theorem mem_inIdOrder {ids : List SymbolId} {x : SymbolId} : x ∈ inIdOrder ids ↔ x ∈ ids :=
  List.mem_mergeSort

inductive SymbolClass
  | terminal
  | nonTerminal
  | empty
  deriving DecidableEq, Repr

def SymbolClass.text : SymbolClass → String
  | .terminal => "terminal"
  | .nonTerminal => "nonterminal"
  | .empty => "empty"

/-- The class whose `text` is `s`. -/
def SymbolClass.ofText? (s : String) : Option SymbolClass :=
  [SymbolClass.terminal, .nonTerminal, .empty].find? (·.text == s)

theorem SymbolClass.ofText?_text (c : SymbolClass) : ofText? c.text = some c := by
  cases c <;> decide

/-! ## Reserved names -/

/-- The name of the empty derivation, in descriptions and in sets. -/
def emptyName : String := "EMPTY"

/-- The name of the end of input, in sets. -/
def endName : String := "$"

def isEmptyName (name : String) : Bool :=
  name == emptyName

def isReservedName (name : String) : Bool :=
  isEmptyName name || name == endName

/-! ## Entries -/

/-- An element of a rule or of a set: a symbol, or one of the two markers. -/
inductive Entry
  | symbol (id : SymbolId)
  | empty
  | endOfInput
  deriving DecidableEq, Repr

/-- The entry by number. The markers are shown by their words. -/
def Entry.text : Entry → String
  | .symbol id => toString id
  | .empty => "EMPTY"
  | .endOfInput => "END"

end Lookahead
