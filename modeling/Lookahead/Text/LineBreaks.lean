import Lookahead.Text.Replacement

/-!
# LineBreaks — one form for every line break

- `unifyBreaks`: a carriage return with a line feed behind it, and any other carriage return,
  becomes one line feed, from left to right.
- `replaceBreaks`: the same by two replacements, first of the pairs and then of what is left.
- `return_not_mem_unifyBreaks`: no carriage return is left.
- `unifyBreaks_of_no_return`: a text without carriage returns stays as it is.
- `replaceBreaks_eq_unifyBreaks`: both ways agree.
-/

namespace Lookahead
namespace Text

def unifyBreaks : List Char → List Char
  | '\r' :: '\n' :: rest => '\n' :: unifyBreaks rest
  | '\r' :: rest => '\n' :: unifyBreaks rest
  | c :: rest => c :: unifyBreaks rest
  | [] => []

def replaceBreaks (cs : List Char) : List Char :=
  replaceAll ['\r'] ['\n'] (replaceAll ['\r', '\n'] ['\n'] cs)

theorem return_not_mem_unifyBreaks (cs : List Char) : '\r' ∉ unifyBreaks cs := by
  fun_induction unifyBreaks cs with
  | case1 rest ih => simp [ih]
  | case2 rest _ ih => simp [ih]
  | case3 c rest hc _ ih =>
    have : '\r' ≠ c := by
      rintro rfl
      simp_all
    simp [ih, this]
  | case4 => simp

theorem unifyBreaks_of_no_return {cs : List Char} (h : '\r' ∉ cs) : unifyBreaks cs = cs := by
  fun_induction unifyBreaks cs with
  | case1 rest ih => simp at h
  | case2 rest _ ih => simp at h
  | case3 c rest _ _ ih => rw [ih fun hr => h (List.mem_cons_of_mem _ hr)]
  | case4 => rfl

/-- Both ways agree because `replaceBreaks` takes the pairs first: a pair in two parts would be two
breaks. -/
theorem replaceBreaks_eq_unifyBreaks (cs : List Char) : replaceBreaks cs = unifyBreaks cs := by
  unfold replaceBreaks
  fun_induction unifyBreaks cs with
  | case1 rest ih =>
    have hpair : replaceAll ['\r', '\n'] ['\n'] ('\r' :: '\n' :: rest) =
        '\n' :: replaceAll ['\r', '\n'] ['\n'] rest :=
      replaceAll_append (List.cons_ne_nil _ _)
    rw [hpair, replaceAll_cons (by simp), ih]
  | case2 rest hlone ih =>
    -- the first replacement passes over this carriage return, and the second finds it
    have hpair : ¬['\r', '\n'] <+: '\r' :: rest := by
      rintro ⟨behind, hbehind⟩
      exact hlone behind (by simpa using hbehind.symm)
    rw [replaceAll_cons hpair, ← ih]
    exact replaceAll_append (List.cons_ne_nil _ _)
  | case3 c rest _ hreturn ih =>
    have hc : '\r' ≠ c := fun hc => hreturn hc.symm
    rw [replaceAll_cons (by simp [hc]), replaceAll_cons (by simp [hc]), ih]
  | case4 => rfl

example : replaceAll ['\r', '\n'] ['\n'] (replaceAll ['\r'] ['\n'] ['\r', '\n']) =
    ['\n', '\n'] := by decide

/-- `unifyBreaks` leaves nothing to replace. -/
theorem replaceBreaks_unifyBreaks (cs : List Char) :
    replaceBreaks (unifyBreaks cs) = unifyBreaks cs := by
  rw [replaceBreaks_eq_unifyBreaks]
  exact unifyBreaks_of_no_return (return_not_mem_unifyBreaks cs)

end Text
end Lookahead
