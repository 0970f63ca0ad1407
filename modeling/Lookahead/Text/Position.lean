/-!
# Position — places in a text

A place is known by its offset, which counts characters from the start, and by its line and
column, which count from one. A line feed belongs to the line that it ends.

- `Position.after`: the place behind some characters.
- `lineBounds`: the first offset of the line around a place, and the offset where that line ends.
- `excerpt`: that line, and below it a caret under the place.
-/

namespace Lookahead
namespace Text

structure Position where
  offset : Nat := 0
  line : Nat := 1
  column : Nat := 1
  deriving DecidableEq, Repr

namespace Position

/-- The place behind `c`, which stands at `p`. -/
def next (p : Position) (c : Char) : Position :=
  if c = '\n' then ⟨p.offset + 1, p.line + 1, 1⟩ else ⟨p.offset + 1, p.line, p.column + 1⟩

/-- The place behind `cs`, which begin at `p`. -/
def after (p : Position) (cs : List Char) : Position :=
  cs.foldl next p

@[simp]
theorem after_nil (p : Position) : p.after [] = p := rfl

@[simp]
theorem after_cons (p : Position) (c : Char) (cs : List Char) :
    p.after (c :: cs) = (p.next c).after cs := rfl

theorem after_append (p : Position) (cs ds : List Char) :
    p.after (cs ++ ds) = (p.after cs).after ds :=
  List.foldl_append

@[simp]
theorem offset_next (p : Position) (c : Char) : (p.next c).offset = p.offset + 1 := by
  unfold next
  split <;> rfl

theorem offset_after (p : Position) (cs : List Char) :
    (p.after cs).offset = p.offset + cs.length := by
  induction cs generalizing p with
  | nil => rfl
  | cons c cs ih => rw [after_cons, ih, offset_next, List.length_cons]; omega

/-- The line and the column of `p` as they are shown, `line:column`. -/
def text (p : Position) : String :=
  toString p.line ++ ":" ++ toString p.column

end Position

/-! ## The line around a place -/

/-- Whether `c` is no line feed, and so does not end its line. -/
def staysOnLine (c : Char) : Bool := c != '\n'

/-- The line around `offset`, by the offset of its first character and the offset behind its last
one. It begins behind the last line feed before `offset` and ends at the first line feed from
`offset` on. An `offset` beyond the end of `source` belongs to the last line. -/
def lineBounds (source : List Char) (offset : Nat) : Nat × Nat :=
  let before := source.take offset
  let behind := source.drop offset
  (before.length - (before.reverse.takeWhile staysOnLine).length,
    before.length + (behind.takeWhile staysOnLine).length)

/-- The line of `source` around `offset`, and below it a caret under `offset`. -/
def excerpt (source : List Char) (offset : Nat) : String :=
  let (first, stop) := lineBounds source offset
  String.ofList ((source.drop first).take (stop - first) ++
    '\n' :: List.replicate (offset - first) ' ' ++ ['^'])

end Text
end Lookahead
