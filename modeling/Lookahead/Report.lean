import Lookahead.Analysis

/-!
# Report — sets and tables as text

- `labelLe`: ordinary labels by code point, then the empty derivation, then the end of input.
- `setText`: a set between braces, its labels in that order.
- `tableText`: a title and one line for each name, the names in ascending order and aligned on the
  right.
-/

namespace Lookahead

/-- The place of `label` among other labels: 0 for an ordinary one, and the markers behind them. -/
def labelRank (label : String) : Nat :=
  if label = emptyName then 1 else if label = endName then 2 else 0

def labelLe (a b : String) : Bool :=
  decide (labelRank a < labelRank b) || (labelRank a == labelRank b && decide (a ≤ b))

/-- The `labels` between braces, ordinary ones by code points and then the markers. A label that
occurs several times is written several times. -/
def setText (labels : List String) : String :=
  "\x7b" ++ String.intercalate ", " (labels.mergeSort labelLe) ++ "\x7d"

/-- `s` with blanks in front of it, up to the length `width`. -/
def alignRight (width : Nat) (s : String) : String :=
  String.ofList (List.replicate (width - s.length) ' ') ++ s

namespace NamedSets

/-- The length of the longest name in `sets`. -/
def width (sets : NamedSets) : Nat :=
  (sets.map fun row => row.1.length).foldl max 0

def nameLe (a b : String × List String) : Bool :=
  decide (a.1 ≤ b.1)

def rowText (width : Nat) (row : String × List String) : String :=
  alignRight width row.1 ++ " : " ++ setText row.2

end NamedSets

def tableText (title : String) (sets : NamedSets) : String :=
  let rows :=
    if sets.isEmpty then ["(none)"]
    else (sets.mergeSort NamedSets.nameLe).map (NamedSets.rowText sets.width)
  String.intercalate "\n" (("[" ++ title ++ "]") :: rows)

end Lookahead
