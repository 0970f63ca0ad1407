import Lookahead.Analysis
import Lookahead.Proofs.Grammar.FollowExact
import Lookahead.Proofs.Validation.Acceptance

/-!
# Naming — the sets of an accepted grammar by name

Symbols and markers share the labels of the sets by name. On the grammar of an accepted description
no two entries have the same label, so the sets by name say what the sets by id say.

- `Grammar.IsEntry`, `Grammar.Named`: the entries of sets, and what is asked of names of symbols.
- `Analysis.Labels`: an entry and its label; `Analysis.LabelsApart`: neither has two of the other.
- `Analysis.Shows`, `Analysis.ShowsAll`: a set by name beside the set by id, and all of them.
- `Analysis.exists_showsAll`: sets of entries can always be given by name.
- `Analysis.Solves`, `Grammar.WellFormed.exists_analysis`: both kinds of sets of a well-formed
  grammar.
- `byName_of_accepted`: the FIRST and FOLLOW sets by name of an accepted description.
-/

namespace Lookahead

open Validation

variable {found all : Diagnostics} {d : Description} {g : Grammar} {a : Analysis} {sets : SetMap}
variable {id : SymbolId} {e : Entry} {name label : String} {row : EntrySet} {labels : List String}

/-! ## Names of symbols -/

namespace Grammar

/-- What FIRST and FOLLOW sets of `g` hold: terminals, `.empty` and `.endOfInput`. -/
def IsEntry (g : Grammar) : Entry → Prop
  | .symbol id => id ∈ g.terminals
  | .empty => True
  | .endOfInput => True

structure Named (g : Grammar) : Prop where
  nodup : g.nonTerminals.Nodup
  exists_name : ∀ id, g.Declares id → ∃ name, g.symbols.nameOf id = .ok name
  unreserved : ∀ id name, g.symbols.nameOf id = .ok name → name ≠ emptyName ∧ name ≠ endName

namespace Represents

/-- If `g` represents a well-formed `d`, the names of ids in `g.symbols` are exactly the names that
`d` declares. -/
theorem exists_nameOf_iff (hg : g.Represents d) (hd : d.WellFormed) :
    (∃ id, g.symbols.nameOf id = .ok name) ↔ d.Declares name := by
  have hclean := (hg.symbols.wellFormed_iff.1 hd).1
  rw [SymbolTable.exists_nameOf_iff, hg.symbols.mem_names_iff hclean]

theorem exists_name (hg : g.Represents d) (h : g.Declares id) :
    ∃ name, g.symbols.nameOf id = .ok name := by
  rcases h with h | h
  · rcases SymbolTable.hasClass_iff.1 ((hg.mem_terminals id).1 h) with ⟨name, hid⟩
    exact ⟨name, SymbolTable.nameOf_eq_ok hid⟩
  · rcases SymbolTable.hasClass_iff.1 ((hg.mem_nonTerminals id).1 h) with ⟨name, hid⟩
    exact ⟨name, SymbolTable.nameOf_eq_ok hid⟩

theorem named (hg : g.Represents d) (hd : d.WellFormed) : g.Named where
  nodup := hg.nonTerminals_nodup
  exists_name := fun _ h => hg.exists_name h
  unreserved := by
    intro id name h
    refine hd.unreserved name ?_
    rcases (hg.exists_nameOf_iff hd).1 ⟨id, h⟩ with hname | hname | rfl
    · simp [hname]
    · simp [hname]
    · simp

end Represents
end Grammar

/-! ## Labels of entries -/

namespace Analysis

/-- `a.label` gives `label` for `e`, and `e` can occur in a set. -/
def Labels (a : Analysis) (e : Entry) (label : String) : Prop :=
  a.grammar.IsEntry e ∧ a.label e = .ok label

theorem exists_label (h : a.grammar.Named) (he : a.grammar.IsEntry e) :
    ∃ label, a.label e = .ok label := by
  cases e with
  | symbol id => exact h.exists_name id (Or.inl he)
  | empty => exact ⟨emptyName, rfl⟩
  | endOfInput => exact ⟨endName, rfl⟩

/-- In a `Named` grammar, no symbol has `emptyName` or `endName` for its label. -/
theorem label_symbol_ne (h : a.grammar.Named) (id : SymbolId) :
    a.label (.symbol id) ≠ .ok emptyName ∧ a.label (.symbol id) ≠ .ok endName :=
  ⟨fun hlabel => (h.unreserved id _ hlabel).1 rfl, fun hlabel => (h.unreserved id _ hlabel).2 rfl⟩

theorem label_injective (h : a.grammar.Named) {e e' : Entry} (he : a.label e = .ok label)
    (he' : a.label e' = .ok label) : e = e' := by
  have hmarkers : emptyName ≠ endName := by decide
  -- two symbols differ in their names, a symbol and a marker by the reserved names
  cases e with
  | symbol id =>
      cases e' with
      | symbol id' => exact congrArg Entry.symbol ((a.grammar.symbols.biUnique_nameOf).1 he he')
      | empty => exact absurd (he.trans he'.symm) (label_symbol_ne h id).1
      | endOfInput => exact absurd (he.trans he'.symm) (label_symbol_ne h id).2
  | empty =>
      cases e' with
      | symbol id => exact absurd (he'.trans he.symm) (label_symbol_ne h id).1
      | empty => rfl
      | endOfInput => exact absurd (Except.ok.inj (he.trans he'.symm)) hmarkers
  | endOfInput =>
      cases e' with
      | symbol id => exact absurd (he'.trans he.symm) (label_symbol_ne h id).2
      | empty => exact absurd (Except.ok.inj (he'.trans he.symm)) hmarkers
      | endOfInput => rfl

theorem biUnique_labels (h : a.grammar.Named) : Relator.BiUnique a.Labels := by
  constructor
  · intro e e' label he he'
    exact label_injective h he.2 he'.2
  · intro e label label' he he'
    exact Except.ok.inj (he.2.symm.trans he'.2)

/-- Every entry has a label, `Labels` is one-to-one, and no symbol has the label of a marker. -/
structure LabelsApart (a : Analysis) : Prop where
  exists_label : ∀ e, a.grammar.IsEntry e → ∃ label, a.label e = .ok label
  biUnique : Relator.BiUnique a.Labels
  symbol_ne : ∀ id, a.label (.symbol id) ≠ .ok emptyName ∧ a.label (.symbol id) ≠ .ok endName

theorem labelsApart (h : a.grammar.Named) : a.LabelsApart where
  exists_label := fun _ he => exists_label h he
  biUnique := biUnique_labels h
  symbol_ne := label_symbol_ne h

/-! ## Sets by name -/

/-- `labels` has the labels of the entries of `row` and no others. Neither list has repeats, so
their lengths are equal. -/
structure Shows (a : Analysis) (row : EntrySet) (labels : List String) : Prop where
  mem_iff : ∀ e label, a.grammar.IsEntry e → a.label e = .ok label → (label ∈ labels ↔ e ∈ row)
  isEntry : ∀ e ∈ row, a.grammar.IsEntry e
  exists_entry : ∀ label ∈ labels, ∃ e ∈ row, a.label e = .ok label
  row_nodup : row.Nodup
  labels_nodup : labels.Nodup
  length_eq : labels.length = row.length

theorem shows_of_forall₂ (h : a.grammar.Named) (hrow : row.Nodup)
    (hall : List.Forall₂ a.Labels row labels) : a.Shows row labels where
  mem_iff := by
    intro e label he hlabel
    constructor
    · intro hmem
      rcases exists_left_of_forall₂ hall hmem with ⟨e', he', hlabel'⟩
      -- the label is in the row for `e'`, which can only be `e`
      rw [label_injective h hlabel hlabel'.2]
      exact he'
    · intro hmem
      rcases exists_left_of_forall₂ hall.flip hmem with ⟨label', hlabel', hsame⟩
      rw [(biUnique_labels h).2 ⟨he, hlabel⟩ hsame]
      exact hlabel'
  isEntry := by
    intro e hmem
    rcases exists_left_of_forall₂ hall.flip hmem with ⟨label, _, hlabel⟩
    exact hlabel.1
  exists_entry := by
    intro label hmem
    rcases exists_left_of_forall₂ hall hmem with ⟨e, he, hlabel⟩
    exact ⟨e, he, hlabel.2⟩
  row_nodup := hrow
  labels_nodup := (List.rel_nodup (biUnique_labels h) hall).1 hrow
  length_eq := hall.length_eq.symm

/-- Every non-terminal has a row in `sets`, without repeats and with `IsEntry` for all of it. -/
def HasEntries (a : Analysis) (sets : SetMap) : Prop :=
  ∀ id ∈ a.grammar.nonTerminals,
    ∃ row, sets.get? id = some row ∧ row.Nodup ∧ ∀ e ∈ row, a.grammar.IsEntry e

/-- `named` has one row for each non-terminal, in id order and under a name of its own, and that row
`Shows` the row of `sets`. -/
structure ShowsAll (a : Analysis) (sets : SetMap) (named : NamedSets) : Prop where
  keys : (inIdOrder a.grammar.nonTerminals).mapM a.grammar.symbols.nameOf =
    .ok (named.map Prod.fst)
  keys_nodup : (named.map Prod.fst).Nodup
  rows : ∀ id ∈ a.grammar.nonTerminals, ∃ name row labels,
    a.grammar.symbols.nameOf id = .ok name ∧ sets.get? id = some row ∧
      named.lookup name = some labels ∧ a.Shows row labels

theorem exists_namedRow (h : a.grammar.Named) (hsets : a.HasEntries sets)
    (hid : id ∈ a.grammar.nonTerminals) :
    ∃ name row labels, a.namedRow sets id = .ok (name, labels) ∧
      a.grammar.symbols.nameOf id = .ok name ∧ sets.get? id = some row ∧ a.Shows row labels := by
  rcases hsets id hid with ⟨row, hrow, hnodup, hentries⟩
  rcases h.exists_name id (Or.inr hid) with ⟨name, hname⟩
  rcases mapM_total fun e he => exists_label h (hentries e he) with ⟨labels, hlabels⟩
  have hall : List.Forall₂ a.Labels row labels :=
    (List.forall₂_and_left _ _).2 ⟨hentries, forall₂_of_mapM hlabels⟩
  have hshows : a.Shows row labels := shows_of_forall₂ h hnodup hall
  refine ⟨name, row, labels, ?_, hname, hrow, hshows⟩
  -- distinct entries have distinct labels, so that leaving out repeats leaves out nothing
  have hdistinct : labels.eraseDups = labels := eraseDups_of_nodup hshows.labels_nodup
  simp [namedRow, SetMap.row, hrow, hlabels, hname, hdistinct, bind, Except.bind, pure, Except.pure]

theorem nameOf_of_namedRow {named : String × List String}
    (h : a.namedRow sets id = .ok named) : a.grammar.symbols.nameOf id = .ok named.1 := by
  rcases bind_eq_ok_iff.1 h with ⟨row, _, h⟩
  rcases bind_eq_ok_iff.1 h with ⟨labels, _, h⟩
  rcases bind_eq_ok_iff.1 h with ⟨name, hname, h⟩
  cases h
  exact hname

/-- If all names of `named` are distinct, `named.lookup` finds each row under its name. -/
theorem lookup_of_mem {named : NamedSets} (hnodup : (named.map Prod.fst).Nodup)
    (h : (name, labels) ∈ named) : named.lookup name = some labels := by
  rcases List.append_of_mem h with ⟨before, after, rfl⟩
  refine List.lookup_eq_some_iff.2 ⟨before, after, rfl, fun row hrow => ?_⟩
  rw [List.map_append, List.nodup_append] at hnodup
  have hne := hnodup.2.2 row.1 (List.mem_map_of_mem hrow) name (by simp)
  simpa using hne.symm

theorem exists_showsAll (h : a.grammar.Named) (hsets : a.HasEntries sets) :
    ∃ named, a.byName sets = .ok named ∧ a.ShowsAll sets named := by
  have htotal : ∀ id ∈ inIdOrder a.grammar.nonTerminals, ∃ row, a.namedRow sets id = .ok row := by
    intro id hid
    rcases exists_namedRow h hsets (mem_inIdOrder.1 hid) with ⟨name, _, labels, hrow, _⟩
    exact ⟨(name, labels), hrow⟩
  rcases mapM_total htotal with ⟨named, hnamed⟩
  have hrows := forall₂_of_mapM hnamed
  have hkeys : List.Forall₂ (fun id name => a.grammar.symbols.nameOf id = .ok name)
      (inIdOrder a.grammar.nonTerminals) (named.map Prod.fst) :=
    List.forall₂_map_right_iff.2 (hrows.imp fun _ _ => nameOf_of_namedRow)
  -- no two ids share a name, so distinct ids give distinct names
  have hnodup : (named.map Prod.fst).Nodup := by
    have hids : (inIdOrder a.grammar.nonTerminals).Nodup :=
      (List.mergeSort_perm _ _).nodup_iff.2 h.nodup
    exact (List.rel_nodup a.grammar.symbols.biUnique_nameOf hkeys).1 hids
  refine ⟨named, hnamed, mapM_of_forall₂ hkeys, hnodup, ?_⟩
  intro id hid
  rcases exists_namedRow h hsets hid with ⟨name, row, labels, hnamedRow, hname, hrow, hshows⟩
  rcases exists_left_of_forall₂ hrows.flip (mem_inIdOrder.2 hid) with ⟨_, hmem, hsame⟩
  cases hnamedRow.symm.trans hsame
  exact ⟨name, row, labels, hname, hrow, lookup_of_mem hnodup hmem, hshows⟩

theorem namedSets_eq {first follow : NamedSets} (hanalyze : g.analyze = .ok a)
    (hfirst : a.firstByName = .ok first) (hfollow : a.followByName = .ok follow) :
    g.namedSets = .ok (first, follow) :=
  bind_eq_ok_iff.2 ⟨a, hanalyze,
    bind_eq_ok_iff.2 ⟨first, hfirst, bind_eq_ok_iff.2 ⟨follow, hfollow, rfl⟩⟩⟩

end Analysis

/-! ## The sets of a grammar -/

/-- `a` is the result of `g.analyze`: `a.first` is `LeastFirst` and `a.follow` is `LeastFollow` for
it. -/
structure Analysis.Solves (a : Analysis) (g : Grammar) : Prop where
  grammar_eq : a.grammar = g
  first_eq : g.first = .ok (a.first, a.firstPasses)
  follow_eq : g.follow a.first = .ok (a.follow, a.followPasses)
  leastFirst : g.LeastFirst a.first
  leastFollow : g.LeastFollow a.first a.follow

theorem Grammar.WellFormed.exists_analysis (hg : g.WellFormed) :
    ∃ a, g.analyze = .ok a ∧ a.Solves g := by
  rcases hg.exists_leastFirst with ⟨first, passes, hfirst, hleast⟩
  rcases hg.exists_leastFollow hleast with ⟨follow, passes', hfollow, hleast'⟩
  refine ⟨⟨g, first, follow, passes, passes'⟩, ?_, rfl, hfirst, hfollow, hleast, hleast'⟩
  simp [Grammar.analyze, hfirst, hfollow, bind, Except.bind, pure, Except.pure]

namespace Analysis.Solves

theorem isEntry_of_mem_firstEntries (h : e ∈ g.firstEntries) : g.IsEntry e := by
  rcases List.mem_cons.1 h with rfl | h
  · trivial
  · rcases List.mem_map.1 h with ⟨t, ht, rfl⟩
    exact ht

theorem isEntry_of_mem_followEntries {first : SetMap} (hfirst : first.Within g.firstEntries)
    (h : e ∈ Grammar.followEntries first) : g.IsEntry e := by
  rcases List.mem_cons.1 h with rfl | h
  · trivial
  · rcases List.mem_flatMap.1 h with ⟨row, hrow, he⟩
    exact isEntry_of_mem_firstEntries ((hfirst row hrow).2 he)

theorem hasEntries_first (h : a.Solves g) : a.HasEntries a.first := by
  rcases h with ⟨rfl, _, _, hfirst, _⟩
  intro id hid
  rcases SetMap.exists_row_iff.2 ((hfirst.domain id).2 (Or.inr hid)) with ⟨row, hrow⟩
  rcases hfirst.within.of_get? hrow with ⟨hnodup, hentries⟩
  exact ⟨row, hrow, hnodup, fun e he => isEntry_of_mem_firstEntries (hentries he)⟩

theorem hasEntries_follow (h : a.Solves g) : a.HasEntries a.follow := by
  rcases h with ⟨rfl, _, hfollow, hfirst, hleast⟩
  intro id hid
  rcases SetMap.exists_row_iff.2 ((hleast.domain id).2 hid) with ⟨row, hrow⟩
  rcases (Grammar.follow_within hfollow).of_get? hrow with ⟨hnodup, hentries⟩
  exact ⟨row, hrow, hnodup, fun e he => isEntry_of_mem_followEntries hfirst.within (hentries he)⟩

theorem exists_byName (h : a.Solves g) (hg : g.Named) :
    ∃ first follow, a.firstByName = .ok first ∧ a.followByName = .ok follow ∧
      a.ShowsAll a.first first ∧ a.ShowsAll a.follow follow := by
  have hnamed : a.grammar.Named := h.grammar_eq ▸ hg
  rcases exists_showsAll hnamed h.hasEntries_first with ⟨first, hfirst, hshows⟩
  rcases exists_showsAll hnamed h.hasEntries_follow with ⟨follow, hfollow, hshows'⟩
  exact ⟨first, follow, hfirst, hfollow, hshows, hshows'⟩

end Analysis.Solves

/-- If `validate` accepts `g`, both maps by name are worked out. Each has exactly one row for each
non-terminal, under its name, and a label is in that row exactly if its entry is in the set, since
the labels are apart. -/
theorem byName_of_accepted (h : validate found d = .ok (all, .accepted g)) :
    ∃ a first follow, g.analyze = .ok a ∧ a.grammar = g ∧ a.LabelsApart ∧
      a.firstByName = .ok first ∧ a.ShowsAll a.first first ∧
      a.followByName = .ok follow ∧ a.ShowsAll a.follow follow := by
  rcases represents_of_accepted h with ⟨_, hd, hg⟩
  rcases (hg.wellFormed hd).exists_analysis with ⟨a, hanalyze, hsolves⟩
  rcases hsolves.exists_byName (hg.named hd) with ⟨first, follow, hfirst, hfollow, hall, hall'⟩
  have hapart : a.LabelsApart := Analysis.labelsApart (hsolves.grammar_eq ▸ hg.named hd)
  exact ⟨a, first, follow, hanalyze, hsolves.grammar_eq, hapart, hfirst, hall, hfollow, hall'⟩

/-- Two of the terminals look like `endName` and `emptyName`, and the start symbol is not listed. -/
def lookalikes : Description where
  start := "S"
  terminals := ["END", "empty"]
  nonTerminals := ["A"]
  productions := [⟨"S", ["END", "A", "S", "empty"], none⟩, ⟨"S", [], none⟩, ⟨"A", ["S"], none⟩]

def lookalikeGrammar : Grammar where
  symbols :=
    ⟨[⟨"END", .terminal⟩, ⟨"empty", .terminal⟩, ⟨"A", .nonTerminal⟩, ⟨"S", .nonTerminal⟩],
      by decide, by decide⟩
  terminals := [0, 1]
  nonTerminals := [2, 3]
  rules :=
    [⟨3, [.symbol 0, .symbol 2, .symbol 3, .symbol 1], 0⟩, ⟨3, [.empty], 1⟩, ⟨2, [.symbol 3], 2⟩]
  start := 3

theorem validate_lookalikes :
    validate [] lookalikes = .ok ([], .accepted lookalikeGrammar) :=
  rfl

theorem byName_lookalikes :
    validate [] lookalikes = .ok ([], .accepted lookalikeGrammar) ∧
      ∃ a first follow, lookalikeGrammar.analyze = .ok a ∧ a.grammar = lookalikeGrammar ∧
        a.LabelsApart ∧ a.firstByName = .ok first ∧ a.ShowsAll a.first first ∧
        a.followByName = .ok follow ∧ a.ShowsAll a.follow follow :=
  ⟨validate_lookalikes, byName_of_accepted validate_lookalikes⟩

end Lookahead
