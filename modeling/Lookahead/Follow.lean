import Lookahead.First

/-!
# Follow — FOLLOW sets of the non-terminals

The FOLLOW set of the start symbol holds the end of input. Each place of a non-terminal in an
alternate adds the FIRST set of what follows there, without the empty derivation; where nothing has
to follow, it adds the FOLLOW set of the head. Again rule by rule, until a whole pass adds nothing.
-/

namespace Lookahead
namespace Grammar

/-- The map before the first pass: empty rows for the non-terminals, with `.endOfInput` in that of
the start symbol. -/
def initialFollow (g : Grammar) : Except Fault SetMap :=
  SetMap.extend? ⟨g.nonTerminals.map fun id => (id, [])⟩ g.start [.endOfInput]

/-- What a place adds to the set of the non-terminal that stands there, when `rest` follows it in
a rule for `head`. -/
def followOf (first : SetMap) (head : SymbolId) (rest : List Entry) (follow : SetMap) :
    Except Fault EntrySet := do
  let next ← first.firstOf rest
  if .empty ∈ next then
    let inherited ← follow.row head
    return next.withoutEmpty.union inherited
  else return next

/-- `follow` after the places of an alternate for `head` have added their `followOf`, from left to
right. -/
def extendFollowBy (g : Grammar) (first : SetMap) (head : SymbolId) :
    List Entry → SetMap → Except Fault SetMap
  | [], follow => .ok follow
  | .symbol id :: rest, follow =>
      if id ∈ g.nonTerminals then do
        let new ← followOf first head rest follow
        let follow ← follow.extend? id new
        g.extendFollowBy first head rest follow
      else g.extendFollowBy first head rest follow
  | _ :: rest, follow => g.extendFollowBy first head rest follow

/-- `follow` with what the places of `r` add. A rule for the empty derivation adds nothing. -/
def extendFollow (g : Grammar) (first follow : SetMap) (r : Rule) : Except Fault SetMap :=
  if r.isEpsilon then .ok follow else g.extendFollowBy first r.head r.alternate follow

def followPass (g : Grammar) (first follow : SetMap) : Except Fault SetMap :=
  g.rules.foldlM (g.extendFollow first) follow

/-- An upper bound for the `size` of the FOLLOW sets: each row holds entries of `first` and
`.endOfInput` at most. -/
def followCapacity (g : Grammar) (first : SetMap) : Nat :=
  g.nonTerminals.length * (first.size + 1)

/-- The FOLLOW sets of `g` by the sets `first`, and the number of passes up to the one that adds
nothing. -/
def follow (g : Grammar) (first : SetMap) : Except Fault (SetMap × Nat) := do
  let start ← g.initialFollow
  SetMap.saturate (g.followPass first) (g.followCapacity first) start

end Grammar
end Lookahead
