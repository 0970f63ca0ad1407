import Lookahead.Report
import Mathlib.Data.List.Forall2
import Mathlib.Data.List.Nodup
import Mathlib.Data.List.Perm.Basic
import Mathlib.Data.Prod.Lex
import Mathlib.Data.String.Basic
import Mathlib.Order.Bounds.Defs

/-!
# Arrangement — texts of sets do not depend on the order in which sets are kept

Labels and rows are sorted before they are written. The keys that they are sorted by tell all labels
apart, and all rows with distinct names, so that any order of them gives the same text.

- `ascending`: a list sorted by a key.
- `labelKey`: the key of a label; no two labels have the same.
- `ascending_labelKey`: a set in order, the ordinary labels first and then the two markers.
- `NamedSets.Reorders`: the same rows and labels in another order.
- `NamedSets.tableText_of_reorders`: they give the same table.
- `NamedSets.ShowsRow`, `exists_rows`: the rows of a table and how they are aligned.
- `texts_ignore_order`: all of this together.
-/

namespace Lookahead

/-! ## Lists in parts, and lists in order -/

/-- All occurrences of `a` and `b` can be put behind the elements with `other x`, which are those
that are neither. -/
theorem perm_others_append {α : Type} [DecidableEq α] {a b : α} (hab : a ≠ b) {other : α → Bool}
    (hother : ∀ x, other x = true ↔ x ≠ a ∧ x ≠ b) (xs : List α) :
    xs.Perm (xs.filter other ++
      (List.replicate (xs.count a) a ++ List.replicate (xs.count b) b)) := by
  apply List.perm_iff_count.2
  intro x
  simp only [List.count_append, List.count_replicate]
  -- `x` is counted in exactly one of the three parts
  by_cases hx : other x = true
  · have hne := (hother x).1 hx
    simp [List.count_filter hx, hne.1.symm, hne.2.symm]
  · have hnone : (xs.filter other).count x = 0 :=
      List.count_eq_zero_of_not_mem fun hmem => hx (List.mem_filter.1 hmem).2
    by_cases ha : x = a
    · subst ha
      simp [hnone, hab.symm]
    · have hb : x = b := by
        by_contra hb
        exact hx ((hother x).2 ⟨ha, hb⟩)
      subst hb
      simp [hnone, hab]

section Ascending

variable {α κ : Type} [LinearOrder κ] {xs ys : List α}

def ascending (key : α → κ) (xs : List α) : List α :=
  xs.mergeSort fun a b => decide (key a ≤ key b)

theorem ascending_perm (key : α → κ) (xs : List α) : (ascending key xs).Perm xs :=
  List.mergeSort_perm xs _

theorem pairwise_ascending (key : α → κ) (xs : List α) :
    (ascending key xs).Pairwise fun a b => key a ≤ key b := by
  have htrans : ∀ a b c, decide (key a ≤ key b) = true → decide (key b ≤ key c) = true →
      decide (key a ≤ key c) = true := by
    simpa using fun a b c (hab : key a ≤ key b) (hbc : key b ≤ key c) => hab.trans hbc
  have htotal : ∀ a b, (decide (key a ≤ key b) || decide (key b ≤ key a)) = true := by
    simpa using fun a b => le_total (key a) (key b)
  simpa [ascending] using List.pairwise_mergeSort htrans htotal xs

/-- If the keys in `xs` are distinct, then an arrangement `ys` with ascending keys is
`ascending key xs`. -/
theorem ascending_eq_of_perm {key : α → κ} (hkeys : ∀ a ∈ xs, ∀ b ∈ xs, key a = key b → a = b)
    (h : xs.Perm ys) (hys : ys.Pairwise fun a b => key a ≤ key b) : ascending key xs = ys := by
  have hsame : (ascending key xs).Perm ys := (ascending_perm key xs).trans h
  apply List.Perm.eq_of_pairwise _ (pairwise_ascending key xs) hys hsame
  intro a b ha hb hab hba
  have ha : a ∈ xs := (ascending_perm key xs).mem_iff.1 ha
  have hb : b ∈ xs := h.mem_iff.2 hb
  exact hkeys a ha b hb (le_antisymm hab hba)

theorem ascending_of_perm {key : α → κ} (hkeys : ∀ a ∈ xs, ∀ b ∈ xs, key a = key b → a = b)
    (h : xs.Perm ys) : ascending key xs = ascending key ys :=
  ascending_eq_of_perm hkeys (h.trans (ascending_perm key ys).symm) (pairwise_ascending key ys)

end Ascending

/-! ## Labels -/

variable {labels labels' : List String} {label : String}

def labelKey (label : String) : Nat ×ₗ String :=
  toLex (labelRank label, label)

theorem labelKey_injective : Function.Injective labelKey := by
  intro a b h
  exact congrArg (fun key => (ofLex key).2) h

theorem mergeSort_labelLe (labels : List String) :
    labels.mergeSort labelLe = ascending labelKey labels := by
  have hle : labelLe = fun a b => decide (labelKey a ≤ labelKey b) := by
    funext a b
    apply Bool.eq_iff_iff.2
    simp [labelLe, labelKey, Prod.Lex.le_iff]
  rw [hle]
  rfl

theorem setText_eq (labels : List String) :
    setText labels =
      "\x7b" ++ String.intercalate ", " (ascending labelKey labels) ++ "\x7d" := by
  rw [setText, mergeSort_labelLe]

theorem setText_of_perm (h : labels.Perm labels') : setText labels = setText labels' := by
  have hsame : ascending labelKey labels = ascending labelKey labels' :=
    ascending_of_perm (fun _ _ _ _ hkey => labelKey_injective hkey) h
  rw [setText_eq, setText_eq, hsame]

/-- `label` is that of no marker. -/
def isOrdinary (label : String) : Bool :=
  label ≠ emptyName ∧ label ≠ endName

theorem labelRank_of_isOrdinary (h : isOrdinary label = true) : labelRank label = 0 := by
  have hne : label ≠ emptyName ∧ label ≠ endName := by simpa [isOrdinary] using h
  simp [labelRank, hne]

/-- `emptyName` and then `endName`, each as often as it is among `labels`. -/
def markers (labels : List String) : List String :=
  List.replicate (labels.count emptyName) emptyName ++
    List.replicate (labels.count endName) endName

theorem mem_markers (h : label ∈ markers labels) : label = emptyName ∨ label = endName := by
  rcases List.mem_append.1 h with h | h
  · exact Or.inl (List.eq_of_mem_replicate h)
  · exact Or.inr (List.eq_of_mem_replicate h)

theorem perm_markers (labels : List String) :
    labels.Perm (labels.filter isOrdinary ++ markers labels) :=
  perm_others_append (by decide) (by simp [isOrdinary]) labels

/-- Sorting by `labelKey` puts the ordinary labels first, in ascending order, and the `markers`
behind them. -/
theorem ascending_labelKey (labels : List String) :
    ascending labelKey labels =
      ascending id (labels.filter isOrdinary) ++ markers labels := by
  -- ordinary labels have the rank `0`, the markers `1` and `2`
  have hrank : ∀ a ∈ ascending id (labels.filter isOrdinary), labelRank a = 0 := by
    intro a ha
    have hmem : a ∈ labels.filter isOrdinary := (ascending_perm id _).mem_iff.1 ha
    exact labelRank_of_isOrdinary (List.mem_filter.1 hmem).2
  have hempty : labelRank emptyName = 1 := by decide
  have hend : labelRank endName = 2 := by decide
  -- the key separates the labels, so this ascending arrangement is the sorted one
  apply ascending_eq_of_perm fun _ _ _ _ hkey => labelKey_injective hkey
  · exact (perm_markers labels).trans ((ascending_perm id _).symm.append_right _)
  · refine List.pairwise_append.2 ⟨?_, ?_, ?_⟩
    · apply (pairwise_ascending id (labels.filter isOrdinary)).imp_of_mem
      intro a b ha hb hab
      simpa [labelKey, Prod.Lex.le_iff, hrank a ha, hrank b hb] using hab
    · refine List.pairwise_append.2 ⟨?_, ?_, ?_⟩
      · simp [List.pairwise_replicate]
      · simp [List.pairwise_replicate]
      · intro a ha b hb
        rw [List.eq_of_mem_replicate ha, List.eq_of_mem_replicate hb]
        simp [labelKey, Prod.Lex.le_iff, hempty, hend]
    · intro a ha b hb
      rcases mem_markers hb with rfl | rfl
      · simp [labelKey, Prod.Lex.le_iff, hrank a ha, hempty]
      · simp [labelKey, Prod.Lex.le_iff, hrank a ha, hend]

/-! ## Rows -/

namespace NamedSets

variable {sets sets' : NamedSets} {title : String}

/-- `sets'` is `sets` with the rows in another order and the labels of each row in another order. -/
def Reorders (sets sets' : NamedSets) : Prop :=
  ∃ middle, sets.Perm middle ∧
    List.Forall₂ (fun row row' => row.1 = row'.1 ∧ row.2.Perm row'.2) middle sets'

/-- The name of `row`, and its labels as `setText`. -/
def shown (row : String × List String) : String × String :=
  (row.1, setText row.2)

theorem Reorders.shown_perm (h : sets.Reorders sets') :
    (sets.map shown).Perm (sets'.map shown) := by
  rcases h with ⟨middle, hperm, hrows⟩
  have hsame : List.Forall₂ (· = ·) (middle.map shown) (sets'.map shown) := by
    refine List.forall₂_map_left_iff.2 (List.forall₂_map_right_iff.2 (hrows.imp ?_))
    intro row row' hrow
    simp [shown, hrow.1, setText_of_perm hrow.2]
  rw [List.forall₂_eq_eq_eq] at hsame
  exact hsame ▸ hperm.map shown

/-- The lines of `tableText` behind its title. -/
def lines (sets : NamedSets) : List String :=
  if sets.isEmpty then ["(none)"] else (ascending Prod.fst sets).map (rowText sets.width)

theorem tableText_eq (title : String) (sets : NamedSets) :
    tableText title sets = String.intercalate "\n" (("[" ++ title ++ "]") :: sets.lines) :=
  rfl

/-- The rows can be sorted before or after their sets are written out. -/
theorem map_rowText_ascending (width : Nat) (sets : NamedSets) :
    (ascending Prod.fst sets).map (rowText width) =
      (ascending Prod.fst (sets.map shown)).map fun row =>
        alignRight width row.1 ++ " : " ++ row.2 := by
  have hshown : (ascending Prod.fst sets).map shown = ascending Prod.fst (sets.map shown) :=
    List.map_mergeSort fun _ _ _ _ => rfl
  rw [← hshown, List.map_map]
  rfl

theorem map_fst_shown (sets : NamedSets) : (sets.map shown).map Prod.fst = sets.map Prod.fst := by
  simp [shown, Function.comp_def]

/-- `sets.width` depends on the names alone, so it is the same for `shown` rows. -/
theorem width_eq (sets : NamedSets) :
    sets.width = ((sets.map shown).map fun row => row.1.length).foldl max 0 := by
  simp [width, shown, Function.comp_def]

theorem lines_of_reorders (hnames : (sets.map Prod.fst).Nodup) (h : sets.Reorders sets') :
    sets.lines = sets'.lines := by
  have hshown := h.shown_perm
  have hempty : sets.isEmpty = sets'.isEmpty := by simpa using hshown.isEmpty_eq
  have hwidth : sets.width = sets'.width := by
    rw [width_eq, width_eq, (hshown.map fun row => row.1.length).foldl_eq]
  have hkeys : ∀ a ∈ sets.map shown, ∀ b ∈ sets.map shown, a.1 = b.1 → a = b :=
    List.inj_on_of_nodup_map ((map_fst_shown sets).symm ▸ hnames)
  rw [lines, lines, hempty, hwidth, map_rowText_ascending, map_rowText_ascending,
    ascending_of_perm hkeys hshown]

theorem tableText_of_reorders (hnames : (sets.map Prod.fst).Nodup) (h : sets.Reorders sets')
    (title : String) : tableText title sets = tableText title sets' := by
  rw [tableText_eq, tableText_eq, lines_of_reorders hnames h]

/-- If the names are distinct, those of the sorted rows are strictly ascending. -/
theorem pairwise_names (hnames : (sets.map Prod.fst).Nodup) :
    ((ascending Prod.fst sets).map Prod.fst).Pairwise (· < ·) := by
  have hordered : ((ascending Prod.fst sets).map Prod.fst).Pairwise (· ≤ ·) :=
    List.pairwise_map.2 (pairwise_ascending Prod.fst sets)
  have hdistinct : ((ascending Prod.fst sets).map Prod.fst).Nodup :=
    ((ascending_perm Prod.fst sets).map Prod.fst).nodup_iff.2 hnames
  exact hordered.imp₂ (fun _ _ => lt_of_le_of_ne) hdistinct

theorem isGreatest_width (h : sets ≠ []) :
    IsGreatest {n | ∃ row ∈ sets, row.1.length = n} sets.width := by
  rcases List.exists_cons_of_ne_nil h with ⟨row, rest, rfl⟩
  have hmax : ((row :: rest).map fun row => row.1.length).max? =
      some (NamedSets.width (row :: rest)) := by
    rw [List.map_cons, List.max?_cons']
    simp [NamedSets.width]
  rcases List.max?_eq_some_iff.1 hmax with ⟨hmem, hle⟩
  refine ⟨List.mem_map.1 hmem, ?_⟩
  rintro n ⟨row', hrow', rfl⟩
  exact hle _ (List.mem_map_of_mem hrow')

/-- `line` is blanks and the name, `width` characters in all, and then the separator and
`setText row.2`. -/
def ShowsRow (width : Nat) (row : String × List String) (line : String) : Prop :=
  ∃ front, line = front ++ " : " ++ setText row.2 ∧ front.length = width ∧
    ∃ n, front.toList = List.replicate n ' ' ++ row.1.toList

theorem showsRow_rowText {width : Nat} {row : String × List String} (h : row.1.length ≤ width) :
    ShowsRow width row (rowText width row) := by
  refine ⟨alignRight width row.1, rfl, ?_, width - row.1.length, ?_⟩
  · simp [alignRight]
    omega
  · simp [alignRight]

/-- If `sets` is nonempty and its names are distinct, each of `sets.lines` shows one of the sorted
`rows`, in order, with the greatest length of a name as the `width`. -/
theorem exists_rows (hnames : (sets.map Prod.fst).Nodup) (h : sets ≠ []) :
    ∃ rows : NamedSets, rows.Perm sets ∧ (rows.map Prod.fst).Pairwise (· < ·) ∧
      ∃ width, IsGreatest {n | ∃ row ∈ sets, row.1.length = n} width ∧
        List.Forall₂ (ShowsRow width) rows sets.lines := by
  have hwidth := isGreatest_width h
  have hperm := ascending_perm Prod.fst sets
  refine ⟨ascending Prod.fst sets, hperm, pairwise_names hnames, sets.width, hwidth, ?_⟩
  have hlines : sets.lines = (ascending Prod.fst sets).map (rowText sets.width) := by
    simp [lines, h]
  rw [hlines]
  refine List.forall₂_map_right_iff.2 (List.forall₂_same.2 ?_)
  intro row hrow
  exact showsRow_rowText (hwidth.2 ⟨row, hperm.mem_iff.1 hrow, rfl⟩)

end NamedSets

/-! ## Texts -/

/-- `setText` and `tableText` do not depend on the order of labels and rows. `setText` has the
ordinary labels in ascending order and the `markers` behind them. `tableText` has the title and
`(none)`, or a line for each row, with the names strictly ascending and all sets at the same
offset. -/
theorem texts_ignore_order :
    (∀ labels labels' : List String, labels.Perm labels' → setText labels = setText labels') ∧
      (∀ labels : List String, ∃ ordinary : List String,
        ordinary.Perm (labels.filter isOrdinary) ∧ ordinary.Pairwise (· ≤ ·) ∧
          setText labels =
            "\x7b" ++ String.intercalate ", " (ordinary ++ markers labels) ++ "\x7d") ∧
      (∀ (title : String) (sets sets' : NamedSets), (sets.map Prod.fst).Nodup →
        sets.Reorders sets' → tableText title sets = tableText title sets') ∧
      (∀ title : String, tableText title [] = "[" ++ title ++ "]\n(none)") ∧
      ∀ (title : String) (sets : NamedSets), (sets.map Prod.fst).Nodup → sets ≠ [] →
        ∃ (rows : NamedSets) (lines : List String) (width : Nat),
          tableText title sets = String.intercalate "\n" (("[" ++ title ++ "]") :: lines) ∧
            rows.Perm sets ∧ (rows.map Prod.fst).Pairwise (· < ·) ∧
            IsGreatest {n | ∃ row ∈ sets, row.1.length = n} width ∧
            List.Forall₂ (NamedSets.ShowsRow width) rows lines := by
  refine ⟨fun _ _ => setText_of_perm, ?_, ?_, ?_, ?_⟩
  · intro labels
    refine ⟨ascending id (labels.filter isOrdinary), ascending_perm id _,
      pairwise_ascending id _, ?_⟩
    rw [setText_eq, ascending_labelKey]
  · intro title sets sets' hnames h
    exact NamedSets.tableText_of_reorders hnames h title
  · intro title
    simp [NamedSets.tableText_eq, NamedSets.lines, String.append_assoc]
  · intro title sets hnames h
    rcases NamedSets.exists_rows hnames h with ⟨rows, hperm, hnames, width, hwidth, hrows⟩
    exact ⟨rows, sets.lines, width, NamedSets.tableText_eq title sets, hperm, hnames, hwidth, hrows⟩

/-- A map with rows and labels out of order, and with both markers. -/
def unsorted : NamedSets :=
  [("S", ["$", "b", "EMPTY", "a"]), ("AB", [])]

def unsortedAgain : NamedSets :=
  [("AB", []), ("S", ["a", "EMPTY", "$", "b"])]

theorem reorders_unsorted : unsorted.Reorders unsortedAgain := by
  have hlabels : ["$", "b", "EMPTY", "a"].Perm ["a", "EMPTY", "$", "b"] := by decide
  exact ⟨_, List.Perm.swap _ _ [], .cons ⟨rfl, List.Perm.refl []⟩ (.cons ⟨rfl, hlabels⟩ .nil)⟩

theorem ignore_order_unsorted :
    (unsorted.map Prod.fst).Nodup ∧ unsorted ≠ [] ∧ unsorted.Reorders unsortedAgain ∧
      setText ["$", "b", "EMPTY", "a"] = setText ["a", "EMPTY", "$", "b"] ∧
      tableText "FIRST" unsorted = tableText "FIRST" unsortedAgain ∧
      ∃ (rows : NamedSets) (lines : List String) (width : Nat),
        tableText "FIRST" unsorted = String.intercalate "\n" (("[" ++ "FIRST" ++ "]") :: lines) ∧
          rows.Perm unsorted ∧ (rows.map Prod.fst).Pairwise (· < ·) ∧
          IsGreatest {n | ∃ row ∈ unsorted, row.1.length = n} width ∧
          List.Forall₂ (NamedSets.ShowsRow width) rows lines := by
  have hnames : (unsorted.map Prod.fst).Nodup := by decide
  have hrows : unsorted ≠ [] := by decide
  have hlabels : ["$", "b", "EMPTY", "a"].Perm ["a", "EMPTY", "$", "b"] := by decide
  rcases texts_ignore_order with ⟨hsets, _, htables, _, hlayout⟩
  exact ⟨hnames, hrows, reorders_unsorted, hsets _ _ hlabels,
    htables "FIRST" _ _ hnames reorders_unsorted, hlayout "FIRST" _ hnames hrows⟩

example : tableText "FIRST" unsorted = "[FIRST]\nAB : \x7b\x7d\n S : \x7ba, b, EMPTY, $\x7d" := by
  cbv

end Lookahead
