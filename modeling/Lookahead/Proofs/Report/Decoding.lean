import Lookahead.Proofs.Printed
import Lookahead.Proofs.Rearranged
import Lookahead.Proofs.Report.Arrangement
import Mathlib

/-!
# Decoding — a table is read back

Names hold none of the characters that a table puts between them. So the rows, and the labels of each
row, can be taken from the text again, and two maps with the same table are the same.

- `Plain`: a text that no separator is in.
- `decodeSet`, `decodeRow`, `decodeTable`: from texts to sets, rows and tables.
- `NamedSets.decodeTable_tableText`: what is read back are the rows, up to their order.
- `NamedSets.ResultOf`: the FIRST or the FOLLOW sets of a grammar, by name.
- `tables_tell_sets_apart`: two maps with the same table are the same.
-/

namespace Lookahead

open Validation

/-! ## Texts without separators -/

/-- The characters of a table that are neither in names nor in labels. -/
def separators : List Char :=
  ['\n', ' ', ':', '\x7b', ',', '\x7d']

/-- `s` is nonempty and holds none of the `separators`. -/
def Plain (s : String) : Prop :=
  s ≠ "" ∧ ∀ c ∈ separators, c ∉ s.toList

variable {labels : List String} {label s : String} {row : String × List String} {width : Nat}

theorem plain_of_isName (h : IsName s) : Plain s := by
  have hnone : separators.all (fun c => !Text.isNameChar c) = true := by decide +kernel
  refine ⟨h.1, fun c hc hmem => ?_⟩
  have hname : Text.isNameChar c = true := h.2 c hmem
  simpa [hname] using List.all_eq_true.1 hnone c hc

theorem plain_endName : Plain endName := by
  simp [Plain, endName, separators]

/-- Each name in `sets` is a name of the format, and each label is such a name or `endName`. -/
def NamedSets.HasNames (sets : NamedSets) : Prop :=
  ∀ row ∈ sets, IsName row.1 ∧ ∀ label ∈ row.2, IsName label ∨ label = endName

theorem NamedSets.HasNames.plain {sets : NamedSets} (h : sets.HasNames) (hrow : row ∈ sets) :
    Plain row.1 ∧ ∀ label ∈ row.2, Plain label := by
  refine ⟨plain_of_isName (h row hrow).1, fun label hlabel => ?_⟩
  rcases (h row hrow).2 label hlabel with hname | rfl
  · exact plain_of_isName hname
  · exact plain_endName

/-! ## Sets -/

theorem filter_intercalate {keep : Char → Bool} (between : List Char) (parts : List (List Char)) :
    (between.intercalate parts).filter keep =
      (between.filter keep).intercalate (parts.map (List.filter keep)) := by
  induction parts with
  | nil => rfl
  | cons part rest ih =>
      cases rest with
      | nil => simp [List.intercalate_singleton]
      | cons next rest =>
          simp only [List.map_cons] at ih ⊢
          simp [List.intercalate_cons_cons, ih]

/-- A brace or a blank, which tells nothing about the labels. -/
def isOrnament (c : Char) : Bool :=
  c = ' ' || c = '\x7b' || c = '\x7d'

/-- The nonempty pieces of `text` between the commas, without ornaments. -/
def decodeSet (text : List Char) : List String :=
  (((text.filter (!isOrnament ·)).splitOn ',').filter (· ≠ [])).map String.ofList

theorem Plain.filter_toList (h : Plain label) :
    label.toList.filter (!isOrnament ·) = label.toList := by
  apply List.filter_eq_self.2
  intro c hc
  have hne : c ∉ separators := fun hmem => h.2 c hmem hc
  simp only [separators, List.mem_cons, not_or] at hne
  simp [isOrnament, hne]

/-- Without its blanks, the list of `labels` has only commas between them. -/
theorem filter_labels (h : ∀ label ∈ labels, Plain label) :
    (String.intercalate ", " labels).toList.filter (!isOrnament ·) =
      [','].intercalate (labels.map String.toList) := by
  have hparts : (labels.map String.toList).map (List.filter (!isOrnament ·)) =
      labels.map String.toList := by
    rw [List.map_map]
    apply List.map_congr_left
    intro label hlabel
    exact (h label hlabel).filter_toList
  calc
    (String.intercalate ", " labels).toList.filter (!isOrnament ·)
        = ([',', ' '].intercalate (labels.map String.toList)).filter (!isOrnament ·) := by
          simp
    _ = [','].intercalate ((labels.map String.toList).map (List.filter (!isOrnament ·))) :=
          filter_intercalate _ _
    _ = [','].intercalate (labels.map String.toList) :=
          congrArg _ hparts

/-- The pieces between the commas are the `labels`; for no labels, `splitOn` gives an empty piece,
which is dropped. -/
theorem split_labels (h : ∀ label ∈ labels, Plain label) :
    (([','].intercalate (labels.map String.toList)).splitOn ',').filter (· ≠ []) =
      labels.map String.toList := by
  have hcommas : ∀ part ∈ labels.map String.toList, ',' ∉ part :=
    List.forall_mem_map.2 fun label hlabel => (h label hlabel).2 ',' (by decide)
  have hparts : ∀ part ∈ labels.map String.toList, decide (part ≠ []) = true :=
    List.forall_mem_map.2 fun label hlabel => by simpa using (h label hlabel).1
  by_cases hnil : labels.map String.toList = []
  · -- there is one empty piece, which the filter drops
    simp [hnil]
  · rw [List.splitOn_intercalate ',' hcommas hnil, List.filter_eq_self.2 hparts]

/-- `decodeSet` gives the labels back in the order in which `setText` writes them. -/
theorem decodeSet_setText (h : ∀ label ∈ labels, Plain label) :
    decodeSet (setText labels).toList = ascending labelKey labels := by
  have hplain : ∀ label ∈ ascending labelKey labels, Plain label :=
    fun label hlabel => h label ((ascending_perm labelKey labels).mem_iff.1 hlabel)
  have htext : (setText labels).toList.filter (!isOrnament ·) =
      (String.intercalate ", " (ascending labelKey labels)).toList.filter (!isOrnament ·) := by
    simp [setText_eq, isOrnament]
  rw [decodeSet, htext, filter_labels hplain, split_labels hplain]
  simp

/-! ## Rows -/

theorem mem_of_mem_intercalate {c : Char} {between : List Char} {parts : List (List Char)}
    (h : c ∈ between.intercalate parts) : c ∈ between ∨ ∃ part ∈ parts, c ∈ part := by
  induction parts with
  | nil => simp at h
  | cons part rest ih =>
      cases rest with
      | nil => exact Or.inr ⟨part, by simp, by simpa [List.intercalate_singleton] using h⟩
      | cons next rest =>
          rw [List.intercalate_cons_cons, List.append_assoc, List.mem_append, List.mem_append] at h
          rcases h with h | h | h
          · exact Or.inr ⟨part, List.mem_cons_self, h⟩
          · exact Or.inl h
          · rcases ih h with hbetween | ⟨part', hpart', hc⟩
            · exact Or.inl hbetween
            · exact Or.inr ⟨part', List.mem_cons_of_mem part hpart', hc⟩

theorem mem_setText {c : Char} (h : c ∈ (setText labels).toList) :
    c ∈ ['\x7b', ',', ' ', '\x7d'] ∨ ∃ label ∈ labels, c ∈ label.toList := by
  simp only [setText_eq, String.toList_append, String.toList_intercalate, List.mem_append] at h
  rcases h with (h | h) | h
  · exact Or.inl (by simpa using Or.inl h)
  · rcases mem_of_mem_intercalate h with h | ⟨part, hpart, hc⟩
    · exact Or.inl (List.mem_cons_of_mem _ (List.mem_append_left ['\x7d'] h))
    · rcases List.mem_map.1 hpart with ⟨label, hlabel, rfl⟩
      exact Or.inr ⟨label, (ascending_perm labelKey labels).mem_iff.1 hlabel, hc⟩
  · exact Or.inl (List.mem_append_right ['\x7b', ',', ' '] h)

/-- `setText labels` holds no separator but a brace, a comma or a blank. -/
theorem not_mem_setText (h : ∀ label ∈ labels, Plain label) {c : Char} (hc : c ∈ separators)
    (hbetween : c ∉ ['\x7b', ',', ' ', '\x7d']) : c ∉ (setText labels).toList := by
  intro hmem
  rcases mem_setText hmem with hmem | ⟨label, hlabel, hmem⟩
  · exact hbetween hmem
  · exact (h label hlabel).2 c hc hmem

/-- The name and the labels from the two sides of the colon in `line`, or `none` without exactly one
colon. -/
def decodeRow (line : List Char) : Option (String × List String) :=
  match line.splitOn ':' with
  | [front, set] => some (String.ofList (front.filter (!isOrnament ·)), decodeSet set)
  | _ => none

namespace NamedSets

/-- `rowText` has some blanks, the name and a blank in front of the colon, and `setText row.2`
behind it. -/
theorem exists_front (width : Nat) (row : String × List String) :
    ∃ n, (rowText width row).toList =
      (List.replicate n ' ' ++ row.1.toList ++ [' ']) ++ ':' :: ' ' :: (setText row.2).toList :=
  ⟨width - row.1.length, by simp [rowText, alignRight]⟩

theorem decodeRow_rowText (hname : Plain row.1) (hlabels : ∀ label ∈ row.2, Plain label) :
    decodeRow (rowText width row).toList = some (row.1, ascending labelKey row.2) := by
  rcases exists_front width row with ⟨n, hline⟩
  have hfront : ':' ∉ List.replicate n ' ' ++ row.1.toList ++ [' '] := by
    have hcolon : ':' ∉ row.1.toList := hname.2 ':' (by decide)
    simp [hcolon]
  have hset : ':' ∉ ' ' :: (setText row.2).toList := by
    have hcolon : ':' ∉ (setText row.2).toList := not_mem_setText hlabels (by decide) (by decide)
    simp [hcolon]
  have hblank : decodeSet (' ' :: (setText row.2).toList) = decodeSet (setText row.2).toList := by
    simp [decodeSet, isOrnament]
  -- the colon of the row is the only one in its line
  have hpieces : (rowText width row).toList.splitOn ':' =
      [List.replicate n ' ' ++ row.1.toList ++ [' '], ' ' :: (setText row.2).toList] := by
    rw [hline, List.splitOn_append_cons_self_of_not_mem hfront, List.splitOn_eq_singleton hset]
  have hblanks : (List.replicate n ' ' ++ row.1.toList ++ [' ']).filter (!isOrnament ·) =
      row.1.toList := by
    rw [List.filter_append, List.filter_append, hname.filter_toList]
    simp [isOrnament]
  simp only [decodeRow, hpieces, hblanks, hblank, decodeSet_setText hlabels, String.ofList_toList]

theorem newline_not_mem_rowText (hname : Plain row.1) (hlabels : ∀ label ∈ row.2, Plain label) :
    '\n' ∉ (rowText width row).toList := by
  rcases exists_front width row with ⟨n, hline⟩
  have hfront : '\n' ∉ row.1.toList := hname.2 '\n' (by decide)
  have hset : '\n' ∉ (setText row.2).toList := not_mem_setText hlabels (by decide) (by decide)
  rw [hline]
  simp [hfront, hset]

/-! ## Tables -/

variable {sets sets' : NamedSets} {title : String}

/-- `sets` as `tableText` writes it: the rows and the labels of each row in ascending order. -/
def arranged (sets : NamedSets) : NamedSets :=
  (ascending Prod.fst sets).map fun row => (row.1, ascending labelKey row.2)

theorem reorders_arranged (sets : NamedSets) : sets.Reorders sets.arranged := by
  refine ⟨ascending Prod.fst sets, (ascending_perm Prod.fst sets).symm, ?_⟩
  apply List.forall₂_map_right_iff.2
  apply List.forall₂_same.2
  intro row _
  exact ⟨rfl, (ascending_perm labelKey row.2).symm⟩

/-- `decodeRow` takes the line `(none)` for no row. -/
theorem decodeRow_none : decodeRow "(none)".toList = none := by
  decide

theorem filterMap_decodeRow_lines (h : sets.HasNames) :
    (sets.lines.map String.toList).filterMap decodeRow = sets.arranged := by
  by_cases hnil : sets = []
  · subst hnil
    simpa [lines, arranged, ascending] using decodeRow_none
  · have hrows : ∀ row ∈ ascending Prod.fst sets,
        decodeRow (rowText sets.width row).toList = some (row.1, ascending labelKey row.2) := by
      intro row hrow
      have hplain := h.plain ((ascending_perm Prod.fst sets).mem_iff.1 hrow)
      exact decodeRow_rowText hplain.1 hplain.2
    have hlines : sets.lines = (ascending Prod.fst sets).map (rowText sets.width) := by
      simp [lines, hnil]
    calc
      (sets.lines.map String.toList).filterMap decodeRow
          = (ascending Prod.fst sets).filterMap fun row =>
              decodeRow (rowText sets.width row).toList := by
            simp only [hlines, List.filterMap_map, Function.comp_def]
      _ = (ascending Prod.fst sets).filterMap fun row =>
              some (row.1, ascending labelKey row.2) :=
            List.filterMap_congr hrows
      _ = sets.arranged := by
            rw [List.filterMap_eq_map']
            rfl

theorem newline_not_mem_lines (h : sets.HasNames) : ∀ line ∈ sets.lines, '\n' ∉ line.toList := by
  intro line hline
  unfold lines at hline
  split at hline
  · cases List.mem_singleton.1 hline
    decide
  · rcases List.mem_map.1 hline with ⟨row, hrow, rfl⟩
    have hplain := h.plain ((ascending_perm Prod.fst sets).mem_iff.1 hrow)
    exact newline_not_mem_rowText hplain.1 hplain.2

theorem lines_ne_nil (sets : NamedSets) : sets.lines ≠ [] := by
  by_cases hnil : sets = []
  · simp [lines, hnil]
  · have hne : ascending Prod.fst sets ≠ [] :=
      fun hempty => hnil (List.nil_perm.1 (hempty ▸ ascending_perm Prod.fst sets))
    simp [lines, hnil, hne]

/-- The rows that `decodeRow` finds in the lines behind the `title`. -/
def decodeTable (title text : String) : NamedSets :=
  ((text.toList.drop (title.toList.length + 3)).splitOn '\n').filterMap decodeRow

/-- `decodeTable` gives the rows of `tableText` back as `sets.arranged`, whatever the `title` is. -/
theorem decodeTable_tableText (h : sets.HasNames) (title : String) :
    decodeTable title (tableText title sets) = sets.arranged := by
  have htext : (tableText title sets).toList =
      ('[' :: title.toList ++ [']', '\n']) ++ ['\n'].intercalate (sets.lines.map String.toList) := by
    rw [tableText_eq, String.intercalate_cons_of_ne_nil (lines_ne_nil sets)]
    simp
  have hlength : title.toList.length + 3 = ('[' :: title.toList ++ [']', '\n']).length := by
    simp
  have hlines : ∀ line ∈ sets.lines.map String.toList, '\n' ∉ line :=
    List.forall_mem_map.2 (newline_not_mem_lines h)
  have hne : sets.lines.map String.toList ≠ [] := by
    simpa using lines_ne_nil sets
  rw [decodeTable, htext, hlength, List.drop_left, List.splitOn_intercalate '\n' hlines hne,
    filterMap_decodeRow_lines h]

/-! ## Maps -/

theorem lookup_eq_some_iff (hnames : (sets.map Prod.fst).Nodup) {name : String} :
    sets.lookup name = some labels ↔ (name, labels) ∈ sets := by
  constructor
  · intro hlookup
    rcases List.lookup_eq_some_iff.1 hlookup with ⟨before, after, rfl, _⟩
    simp
  · exact Analysis.lookup_of_mem hnames

theorem Reorders.nodup_names (h : sets.Reorders sets') (hnames : (sets.map Prod.fst).Nodup) :
    (sets'.map Prod.fst).Nodup := by
  rcases h with ⟨middle, hperm, hrows⟩
  have hsame : List.Forall₂ (· = ·) (middle.map Prod.fst) (sets'.map Prod.fst) :=
    List.forall₂_map_left_iff.2 (List.forall₂_map_right_iff.2 (hrows.imp fun _ _ hrow => hrow.1))
  rw [List.forall₂_eq_eq_eq] at hsame
  exact hsame ▸ (hperm.map Prod.fst).nodup_iff.1 hnames

/-- `Reorders` makes no difference to `labels?`, if the names are distinct. -/
theorem Reorders.labels?_eq (h : sets.Reorders sets') (hnames : (sets.map Prod.fst).Nodup) :
    sets.labels? = sets'.labels? := by
  have hnames' := h.nodup_names hnames
  rcases h with ⟨middle, hperm, hrows⟩
  apply NamedSets.labels?_eq
  · intro name labels hlookup
    have hmem := hperm.mem_iff.1 ((lookup_eq_some_iff hnames).1 hlookup)
    rcases exists_left_of_forall₂ hrows.flip hmem with ⟨⟨_, labels'⟩, hrow, rfl, hlabels⟩
    exact ⟨labels', (lookup_eq_some_iff hnames').2 hrow, hlabels.subset⟩
  · intro name labels' hlookup
    have hmem := (lookup_eq_some_iff hnames').1 hlookup
    rcases exists_left_of_forall₂ hrows hmem with ⟨⟨_, labels⟩, hrow, rfl, hlabels⟩
    have hrow := hperm.mem_iff.2 hrow
    exact ⟨labels, (lookup_eq_some_iff hnames).2 hrow, hlabels.symm.subset⟩

theorem labels?_eq_of_tableText (hnames : (sets.map Prod.fst).Nodup)
    (hnames' : (sets'.map Prod.fst).Nodup) (h : sets.HasNames) (h' : sets'.HasNames)
    (htext : tableText title sets = tableText title sets') : sets.labels? = sets'.labels? := by
  have hrows : sets.arranged = sets'.arranged :=
    calc
      sets.arranged = decodeTable title (tableText title sets) :=
        (decodeTable_tableText h title).symm
      _ = decodeTable title (tableText title sets') := congrArg _ htext
      _ = sets'.arranged := decodeTable_tableText h' title
  calc
    sets.labels? = sets.arranged.labels? := (reorders_arranged sets).labels?_eq hnames
    _ = sets'.arranged.labels? := congrArg _ hrows
    _ = sets'.labels? := ((reorders_arranged sets').labels?_eq hnames').symm

end NamedSets

/-! ## Results -/

theorem Description.mem_mentions_of_declares {d : Description} {name : String}
    (h : d.Declares name) : name ∈ d.mentions := by
  simp only [mentions, List.mem_append, List.mem_cons]
  rcases h with h | h | h
  · exact Or.inl (Or.inl (Or.inr h))
  · exact Or.inl (Or.inr h)
  · exact Or.inl (Or.inl (Or.inl h))

namespace NamedSets

variable {sets : NamedSets}

/-- `sets` is the FIRST or the FOLLOW map, by name, of the grammar that `source` describes. -/
def ResultOf (sets : NamedSets) (source : List Char) : Prop :=
  ∃ d found all g first follow, Description.read source = .ok d ∧
    validate found d = .ok (all, .accepted g) ∧ g.namedSets = .ok (first, follow) ∧
    (sets = first ∨ sets = follow)

/-- If `sets` shows the sets of a description that was read, then `sets.HasNames`. -/
theorem hasNames_of_showsAll {source : List Char} {d : Description} {a : Analysis} {table : SetMap}
    (hread : Description.read source = .ok d) (hd : d.WellFormed) (ha : a.grammar.Represents d)
    (h : a.ShowsAll table sets) : sets.HasNames := by
  have hnames : ∀ id name, a.grammar.symbols.nameOf id = .ok name → IsName name := by
    intro id name hname
    have hdeclares : d.Declares name := (ha.exists_nameOf_iff hd).1 ⟨id, hname⟩
    exact Description.isName_of_read hread name (Description.mem_mentions_of_declares hdeclares)
  rintro ⟨name, labels⟩ hrow
  rcases h.exists_row ((lookup_eq_some_iff h.keys_nodup).2 hrow) with
    ⟨id, _, entries, hname, _, hshows⟩
  refine ⟨hnames id name hname, fun label hlabel => ?_⟩
  rcases hshows.exists_entry label hlabel with ⟨e, _, hlabelOf⟩
  -- of the two markers, only `emptyName` is spelled like a name
  cases e with
  | symbol t => exact Or.inl (hnames t label hlabelOf)
  | empty =>
      cases hlabelOf
      exact Or.inl isName_emptyName
  | endOfInput =>
      cases hlabelOf
      exact Or.inr rfl

theorem ResultOf.hasNames {source : List Char} (h : sets.ResultOf source) :
    (sets.map Prod.fst).Nodup ∧ sets.HasNames := by
  rcases h with ⟨d, found, all, g, first, follow, hread, haccepted, hsets, hresult⟩
  rcases represents_of_accepted haccepted with ⟨_, hd, hg⟩
  rcases (hg.wellFormed hd).exists_analysis with ⟨a, hanalyze, hsolves⟩
  rcases hsolves.exists_byName (hg.named hd) with ⟨_, _, hfirst, hfollow, hall, hall'⟩
  rcases hsolves.grammar_eq with rfl
  cases hsets.symm.trans (Analysis.namedSets_eq hanalyze hfirst hfollow)
  rcases hresult with rfl | rfl
  · exact ⟨hall.keys_nodup, hasNames_of_showsAll hread hd hg hall⟩
  · exact ⟨hall'.keys_nodup, hasNames_of_showsAll hread hd hg hall'⟩

end NamedSets

/-- If `tableText` is the same for `sets` and `sets'`, then they have the same `labels?`. This holds
of all maps with distinct names and `HasNames`, and so of all FIRST and FOLLOW maps of sources that
are accepted. -/
theorem tables_tell_sets_apart :
    (∀ (title : String) (sets sets' : NamedSets), (sets.map Prod.fst).Nodup →
        (sets'.map Prod.fst).Nodup → sets.HasNames → sets'.HasNames →
        tableText title sets = tableText title sets' → sets.labels? = sets'.labels?) ∧
      ∀ (title : String) (source source' : List Char) (sets sets' : NamedSets),
        sets.ResultOf source → sets'.ResultOf source' →
        tableText title sets = tableText title sets' → sets.labels? = sets'.labels? := by
  constructor
  · intro title sets sets' hnames hnames' h h' htext
    exact NamedSets.labels?_eq_of_tableText hnames hnames' h h' htext
  · intro title source source' sets sets' h h' htext
    exact NamedSets.labels?_eq_of_tableText h.hasNames.1 h'.hasNames.1 h.hasNames.2 h'.hasNames.2
      htext

/-- The non-terminals and the rules of `untidySource` in another order. -/
def tidiedSource : List Char :=
  ":Start: S :Terminals: a b :NonTerminals: S A :Rules: S -> a S A. A -> EMPTY.".toList

def tidied : Description where
  start := "S"
  terminals := ["a", "b"]
  nonTerminals := ["S", "A"]
  productions :=
    [⟨"S", ["a", "S", "A"], some ⟨53, 64, 1, 54⟩⟩, ⟨"A", ["EMPTY"], some ⟨65, 76, 1, 66⟩⟩]

def tidiedGrammar : Grammar where
  symbols :=
    ⟨[⟨"a", .terminal⟩, ⟨"b", .terminal⟩, ⟨"S", .nonTerminal⟩, ⟨"A", .nonTerminal⟩],
      by decide, by decide⟩
  terminals := [0, 1]
  nonTerminals := [2, 3]
  rules := [⟨2, [.symbol 0, .symbol 2, .symbol 3], 0⟩, ⟨3, [.empty], 1⟩]
  start := 2

theorem resultOf_untidy : NamedSets.ResultOf [("A", ["$"]), ("S", ["$"])] untidySource := by
  have hread : Description.read untidySource = .ok untidy := by decide +kernel
  have haccepted : validate [] untidy = .ok ([], .accepted untidyGrammar) := rfl
  have hsets : untidyGrammar.namedSets =
      .ok ([("A", ["EMPTY"]), ("S", ["a"])], [("A", ["$"]), ("S", ["$"])]) := by
    cbv
  exact ⟨_, _, _, _, _, _, hread, haccepted, hsets, Or.inr rfl⟩

theorem resultOf_tidied : NamedSets.ResultOf [("S", ["$"]), ("A", ["$"])] tidiedSource := by
  have hread : Description.read tidiedSource = .ok tidied := by decide +kernel
  have haccepted : validate [] tidied = .ok ([], .accepted tidiedGrammar) := rfl
  have hsets : tidiedGrammar.namedSets =
      .ok ([("S", ["a"]), ("A", ["EMPTY"])], [("S", ["$"]), ("A", ["$"])]) := by
    cbv
  exact ⟨_, _, _, _, _, _, hread, haccepted, hsets, Or.inr rfl⟩

theorem tell_apart_unsorted :
    (unsorted.map Prod.fst).Nodup ∧ (unsortedAgain.map Prod.fst).Nodup ∧
      unsorted.HasNames ∧ unsortedAgain.HasNames ∧
      tableText "FIRST" unsorted = tableText "FIRST" unsortedAgain ∧
      unsorted.labels? = unsortedAgain.labels? ∧
      NamedSets.ResultOf [("A", ["$"]), ("S", ["$"])] untidySource ∧
      NamedSets.ResultOf [("S", ["$"]), ("A", ["$"])] tidiedSource ∧
      tableText "FOLLOW" [("A", ["$"]), ("S", ["$"])] =
        tableText "FOLLOW" [("S", ["$"]), ("A", ["$"])] ∧
      NamedSets.labels? [("A", ["$"]), ("S", ["$"])] =
        NamedSets.labels? [("S", ["$"]), ("A", ["$"])] := by
  have hnames : (unsorted.map Prod.fst).Nodup := by decide
  have hnames' : (unsortedAgain.map Prod.fst).Nodup := by decide
  have hall : unsorted.HasNames := by
    simp [unsorted, NamedSets.HasNames, IsName, endName]
    decide +kernel
  have hall' : unsortedAgain.HasNames := by
    simp [unsortedAgain, NamedSets.HasNames, IsName, endName]
    decide +kernel
  have htext : tableText "FIRST" unsorted = tableText "FIRST" unsortedAgain :=
    NamedSets.tableText_of_reorders hnames reorders_unsorted "FIRST"
  have hfollow : tableText "FOLLOW" [("A", ["$"]), ("S", ["$"])] =
      tableText "FOLLOW" [("S", ["$"]), ("A", ["$"])] := by
    cbv
  rcases tables_tell_sets_apart with ⟨hmaps, hresults⟩
  exact ⟨hnames, hnames', hall, hall', htext, hmaps _ _ _ hnames hnames' hall hall' htext,
    resultOf_untidy, resultOf_tidied, hfollow,
    hresults _ _ _ _ _ resultOf_untidy resultOf_tidied hfollow⟩

end Lookahead
