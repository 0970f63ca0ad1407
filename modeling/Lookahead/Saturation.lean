import Lookahead.SetMap

/-!
# Saturation — passes until nothing is added

- `SetMap.saturate`: repeats a pass over a map as long as it adds entries, and counts the passes,
  the last one, which adds nothing, included.
- `SetMap.saturate_of_pass`, `SetMap.saturate_of_fault`: one pass at a time.
-/

namespace Lookahead
namespace SetMap

/-- `capacity` is a number of entries that no map on the way exceeds, so a full map cannot grow. -/
def saturate (pass : SetMap → Except Fault SetMap) (capacity : Nat) (m : SetMap) :
    Except Fault (SetMap × Nat) :=
  match pass m with
  | .error e => .error e
  | .ok grown =>
      if m.size < grown.size ∧ m.size < capacity then
        match saturate pass capacity grown with
        | .error e => .error e
        | .ok (final, passes) => .ok (final, passes + 1)
      else .ok (grown, 1)
  termination_by capacity - m.size

theorem saturate_of_fault {pass : SetMap → Except Fault SetMap} {capacity : Nat} {m : SetMap}
    {e : Fault} (h : pass m = .error e) : saturate pass capacity m = .error e := by
  rw [saturate, h]

theorem saturate_of_pass {pass : SetMap → Except Fault SetMap} {capacity : Nat}
    {m grown : SetMap} (h : pass m = .ok grown) :
    saturate pass capacity m =
      if m.size < grown.size ∧ m.size < capacity then
        (saturate pass capacity grown).map fun r => (r.1, r.2 + 1)
      else .ok (grown, 1) := by
  rw [saturate, h]
  simp only
  split
  · cases saturate pass capacity grown <;> rfl
  · rfl

end SetMap
end Lookahead
