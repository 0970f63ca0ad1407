/-!
# Replacement — every occurrence of a text by another

- `replaceAll`: occurrences are found from left to right, and none overlaps the one before.
- `replaceAll_append`, `replaceAll_cons`: an occurrence in front, and a character that begins none.
- `replaceAll_singleton`: a single character is replaced wherever it stands.
-/

namespace Lookahead
namespace Text

/-- What `replaceAll` makes of a text whose first `skip` characters belong to an occurrence that is
replaced already. -/
def replaceFrom (old new : List Char) : Nat → List Char → List Char
  | _, [] => []
  | skip + 1, _ :: rest => replaceFrom old new skip rest
  | 0, c :: rest =>
      if old.isPrefixOf (c :: rest) then new ++ replaceFrom old new (old.length - 1) rest
      else c :: replaceFrom old new 0 rest

/-- The text with `new` in the place of each `old`, which is not empty. -/
def replaceAll (old new text : List Char) : List Char :=
  replaceFrom old new 0 text

variable {old new rest : List Char} {c : Char}

theorem replaceFrom_eq (skip : Nat) (text : List Char) :
    replaceFrom old new skip text = replaceAll old new (text.drop skip) := by
  induction text generalizing skip with
  | nil => simp [replaceAll, replaceFrom]
  | cons c rest ih =>
      cases skip with
      | zero => rfl
      | succ skip => exact ih skip

theorem replaceAll_append (hold : old ≠ []) :
    replaceAll old new (old ++ rest) = new ++ replaceAll old new rest := by
  cases old with
  | nil => exact absurd rfl hold
  | cons c tail =>
      have hfront : (c :: tail).isPrefixOf (c :: (tail ++ rest)) = true :=
        List.isPrefixOf_iff_prefix.2 (List.prefix_append (c :: tail) rest)
      rw [List.cons_append, replaceAll, replaceFrom, if_pos hfront, replaceFrom_eq]
      simp

theorem replaceAll_cons (h : ¬old <+: c :: rest) :
    replaceAll old new (c :: rest) = c :: replaceAll old new rest := by
  have hfront : ¬old.isPrefixOf (c :: rest) = true := fun hfront =>
    h (List.isPrefixOf_iff_prefix.1 hfront)
  rw [replaceAll, replaceFrom, if_neg hfront]
  rfl

theorem replaceAll_singleton (c : Char) (new text : List Char) :
    replaceAll [c] new text = text.flatMap fun d => if d = c then new else [d] := by
  induction text with
  | nil => rfl
  | cons d rest ih =>
      rw [List.flatMap_cons, ← ih]
      by_cases hd : d = c
      · subst hd
        rw [if_pos rfl]
        exact replaceAll_append (List.cons_ne_nil d [])
      · have hfront : ¬[c] <+: d :: rest := by simpa using Ne.symm hd
        rw [if_neg hd, replaceAll_cons hfront]
        rfl

end Text
end Lookahead
