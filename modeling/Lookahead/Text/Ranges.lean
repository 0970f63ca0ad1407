/-!
# Ranges — classes of code points as tables

A class of characters is given by a table of closed ranges of code points, written in ascending
order.

- `Ranges`: such a table.
- `Ranges.covers`: lookup, which stops at the first range that begins beyond the code point.
-/

namespace Lookahead
namespace Text

/-- A table of closed ranges `(first, last)` of code points, in ascending order. -/
abbrev Ranges := List (Nat × Nat)

/-- Whether the code point `n` lies in a range of the table. No range behind one that begins beyond
`n` is looked at. -/
def Ranges.covers : Ranges → Nat → Bool
  | [], _ => false
  | r :: rest, n => decide (r.1 ≤ n) && (decide (n ≤ r.2) || Ranges.covers rest n)

end Text
end Lookahead
