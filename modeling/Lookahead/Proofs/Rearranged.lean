import Lookahead.Proofs.Grammar.Correspondence
import Lookahead.Proofs.Naming
import Lookahead.Proofs.Validation.Canonical
import Mathlib.Data.Finset.Dedup

/-!
# Rearranged — the sets by name depend on what is declared and on the rules

Lists may be reordered and may repeat themselves. All ids and all passes change with that, but not
the verdict, and not the sets by name.

- `Description.Rearranges`: the same declarations and rules, in any order and any number.
- `Description.Rearranges.wellFormed`: one is as well-formed as the other.
- `Grammar.SameName`: symbols of two grammars that have the same name.
- `Description.Rearranges.simulatedBy`: each rule has a counterpart with the same names.
- `Analysis.ShowsAll.lookup_subset`: if entries have counterparts, so have labels.
- `NamedSets.labels?`: the sets by name as a map.
- `verdict_of_rearranges`: both are refused, or both are accepted with the same sets by name.
-/

namespace Lookahead

open Validation

variable {d d' : Description} {g g' : Grammar} {a a' : Analysis} {id : SymbolId} {name : String}

/-! ## The same declarations and rules -/

namespace Description

/-- `d` and `d'` have the same start symbol and, as sets, the same terminals, non-terminals and
canonical productions. The start symbol counts as a listed non-terminal, and an empty alternate as
`[emptyName]`. -/
structure Rearranges (d d' : Description) : Prop where
  start : d.start = d'.start
  terminals : ∀ n, n ∈ d.terminals ↔ n ∈ d'.terminals
  nonTerminals : ∀ n, d.DeclaresNonTerminal n ↔ d'.DeclaresNonTerminal n
  productions : ∀ p, p ∈ d.canonical.productions ↔ p ∈ d'.canonical.productions

namespace Rearranges

theorem symm (h : d.Rearranges d') : d'.Rearranges d where
  start := h.start.symm
  terminals := fun n => (h.terminals n).symm
  nonTerminals := fun n => (h.nonTerminals n).symm
  productions := fun p => (h.productions p).symm

theorem declares_iff (h : d.Rearranges d') (n : String) : d.Declares n ↔ d'.Declares n :=
  or_congr (h.terminals n) (h.nonTerminals n)

/-- `WellFormed` carries over, since its conditions only ask for members of the lists and of the
canonical productions. -/
theorem wellFormed (h : d.Rearranges d') (hd : d.WellFormed) : d'.WellFormed := by
  have hcanonical := wellFormed_canonical_iff.2 hd
  refine wellFormed_canonical_iff.1 ?_
  exact {
    unreserved := by
      intro name hname
      have hdeclares : d'.canonical.Declares name := by
        simp only [Declares, List.mem_append, List.mem_cons] at hname ⊢
        tauto
      have hback := (h.declares_iff name).2 (declares_canonical.1 hdeclares)
      refine hd.unreserved name ?_
      simp only [Declares, List.mem_append, List.mem_cons] at hback ⊢
      tauto
    disjoint := by
      intro name hname hnonTerminal
      have hterminal : name ∈ d'.terminals := List.mem_eraseDups.1 hname
      exact hd.disjoint name ((h.terminals name).2 hterminal)
        ((h.nonTerminals name).2 (declaresNonTerminal_canonical.1 hnonTerminal))
    heads := by
      intro p hp
      have hhead := hcanonical.heads p ((h.productions p).2 hp)
      rw [declaresNonTerminal_canonical] at hhead ⊢
      exact (h.nonTerminals p.head).1 hhead
    alternates := by
      intro p hp
      have halternate := hcanonical.alternates p ((h.productions p).2 hp)
      simp only [declares_canonical] at halternate ⊢
      simpa only [h.declares_iff] using halternate
    startRule := by
      rcases hcanonical.startRule with ⟨p, hp, hhead⟩
      exact ⟨p, (h.productions p).1 hp, hhead.trans h.start⟩ }

end Rearranges
end Description

/-! ## Symbols of the same name -/

namespace Grammar

def SameName (g g' : Grammar) (x y : SymbolId) : Prop :=
  ∃ name, g.symbols.nameOf x = .ok name ∧ g'.symbols.nameOf y = .ok name

namespace Represents

theorem mem_terminals_iff (hg : g.Represents d) (hd : d.WellFormed)
    (h : g.symbols.nameOf id = .ok name) : id ∈ g.terminals ↔ name ∈ d.terminals := by
  have hclean := (hg.symbols.wellFormed_iff.1 hd).1
  rw [hg.mem_terminals, SymbolTable.hasClass_iff_of_nameOf h, hg.symbols.terminal_iff hclean]

theorem mem_nonTerminals_iff (hg : g.Represents d) (hd : d.WellFormed)
    (h : g.symbols.nameOf id = .ok name) : id ∈ g.nonTerminals ↔ d.DeclaresNonTerminal name := by
  have hclean := (hg.symbols.wellFormed_iff.1 hd).1
  rw [hg.mem_nonTerminals, SymbolTable.hasClass_iff_of_nameOf h, hg.symbols.nonTerminal_iff hclean]

end Represents

theorem alike_of_elementName {e e' : Entry} (hg : g.Named) (hg' : g'.Named)
    (h : g.elementName e = .ok name) (h' : g'.elementName e' = .ok name) :
    Entry.Alike (g.SameName g') e e' := by
  cases e with
  | symbol x =>
      cases e' with
      | symbol y => exact .symbol ⟨name, h, h'⟩
      | empty => exact absurd (Except.ok.inj h').symm (hg.unreserved x name h).1
      | endOfInput => cases h'
  | empty =>
      cases e' with
      | symbol y => exact absurd (Except.ok.inj h).symm (hg'.unreserved y name h').1
      | empty => exact .empty
      | endOfInput => cases h'
  | endOfInput => cases h

/-- If `r` and `r'` have the same production `p`, then their heads have the same name, and so have
their alternates entry by entry. -/
theorem alike_of_production {r r' : Rule} {p : Production} (hg : g.Named) (hg' : g'.Named)
    (h : g.production r = .ok p) (h' : g'.production r' = .ok p) :
    g.SameName g' r.head r'.head ∧
      List.Forall₂ (Entry.Alike (g.SameName g')) r.alternate r'.alternate := by
  rcases bind_eq_ok_iff.1 h with ⟨alternate, halternate, hrest⟩
  rcases bind_eq_ok_iff.1 hrest with ⟨head, hhead, hp⟩
  rcases bind_eq_ok_iff.1 h' with ⟨alternate', halternate', hrest'⟩
  rcases bind_eq_ok_iff.1 hrest' with ⟨head', hhead', hp'⟩
  cases hp
  cases hp'
  refine ⟨⟨head, hhead, hhead'⟩, ?_⟩
  have hcommon := forall₂_of_common (forall₂_of_mapM halternate) (forall₂_of_mapM halternate')
  refine hcommon.imp ?_
  rintro e e' ⟨name, he, he'⟩
  exact alike_of_elementName hg hg' he he'

end Grammar

namespace Description.Rearranges

theorem simulatedBy (h : d.Rearranges d') (hg : g.Represents d) (hg' : g'.Represents d')
    (hd : d.WellFormed) : g.SimulatedBy g' (g.SameName g') := by
  have hd' : d'.WellFormed := h.wellFormed hd
  exact {
    rightUnique := by
      rintro x y z ⟨name, hx, hy⟩ ⟨name', hx', hz⟩
      have hname : name = name' := Except.ok.inj (hx.symm.trans hx')
      exact g'.symbols.biUnique_nameOf.1 hy (hname ▸ hz)
    total := by
      intro x hx
      rcases hg.exists_name hx with ⟨name, hname⟩
      have hdeclares := (h.declares_iff name).1 ((hg.exists_nameOf_iff hd).1 ⟨x, hname⟩)
      rcases (hg'.exists_nameOf_iff hd').2 hdeclares with ⟨y, hy⟩
      exact ⟨y, name, hname, hy⟩
    terminal_iff := by
      rintro x y ⟨name, hx, hy⟩
      rw [hg.mem_terminals_iff hd hx, hg'.mem_terminals_iff hd' hy, h.terminals]
    nonTerminal_iff := by
      rintro x y ⟨name, hx, hy⟩
      rw [hg.mem_nonTerminals_iff hd hx, hg'.mem_nonTerminals_iff hd' hy, h.nonTerminals]
    start := by
      refine ⟨d.start, SymbolTable.nameOf_eq_ok hg.start, ?_⟩
      rw [h.start]
      exact SymbolTable.nameOf_eq_ok hg'.start
    rule := by
      intro r hr
      rcases exists_left_of_forall₂ (hg.forall₂_production_eq hd).flip hr with ⟨p, hp, hproduction⟩
      rcases exists_left_of_forall₂ (hg'.forall₂_production_eq hd') ((h.productions p).1 hp) with
        ⟨r', hr', hproduction'⟩
      exact ⟨r', hr', Grammar.alike_of_production (hg.named hd) (hg'.named hd') hproduction
        hproduction'⟩ }

end Description.Rearranges

/-! ## Sets by name -/

namespace NamedSets

/-- The labels under `name` as a `Finset`, so their order means nothing. -/
def labels? (sets : NamedSets) (name : String) : Option (Finset String) :=
  (sets.lookup name).map List.toFinset

/-- `sets` and `sets'` have the same `labels?` if the labels under each name are among those that
the other map has there. -/
theorem labels?_eq {sets sets' : NamedSets}
    (h : ∀ name labels, sets.lookup name = some labels →
      ∃ labels', sets'.lookup name = some labels' ∧ labels ⊆ labels')
    (h' : ∀ name labels', sets'.lookup name = some labels' →
      ∃ labels, sets.lookup name = some labels ∧ labels' ⊆ labels) :
    sets.labels? = sets'.labels? := by
  funext name
  cases hrow : sets.lookup name with
  | none =>
      cases hrow' : sets'.lookup name with
      | none => simp [labels?, hrow, hrow']
      | some labels' =>
          rcases h' name labels' hrow' with ⟨labels, hlabels, _⟩
          rw [hrow] at hlabels
          cases hlabels
  | some labels =>
      rcases h name labels hrow with ⟨labels', hrow', hsub⟩
      rcases h' name labels' hrow' with ⟨labels'', hrow'', hsub'⟩
      cases hrow.symm.trans hrow''
      have hset : labels.toFinset = labels'.toFinset := by
        ext label
        simpa using ⟨fun hl => hsub hl, fun hl => hsub' hl⟩
      simp [labels?, hrow, hrow', hset]

end NamedSets

namespace Analysis

/-- An entry `e` of `a` has a counterpart `e'` in `a'` with the same `label`. -/
theorem exists_alike {e : Entry} {label : String}
    (h : a.grammar.SimulatedBy a'.grammar (a.grammar.SameName a'.grammar))
    (he : a.grammar.IsEntry e) (hlabel : a.label e = .ok label) :
    ∃ e', Entry.Alike (a.grammar.SameName a'.grammar) e e' ∧ a'.label e' = .ok label := by
  cases e with
  | symbol t =>
      rcases h.total t (Or.inl he) with ⟨t', name, ht, ht'⟩
      have hname : name = label := Except.ok.inj (ht.symm.trans hlabel)
      exact ⟨.symbol t', .symbol ⟨name, ht, ht'⟩, hname ▸ ht'⟩
  | empty => exact ⟨.empty, .empty, hlabel⟩
  | endOfInput => exact ⟨.endOfInput, .endOfInput, hlabel⟩

namespace ShowsAll

variable {sets sets' : SetMap} {named named' : NamedSets} {labels : List String}

/-- The `labels` that `named` has under `name` show the row of the non-terminal with this `name`. -/
theorem exists_row (h : a.ShowsAll sets named) (hlookup : named.lookup name = some labels) :
    ∃ id ∈ a.grammar.nonTerminals, ∃ row, a.grammar.symbols.nameOf id = .ok name ∧
      sets.get? id = some row ∧ a.Shows row labels := by
  have hkey : name ∈ named.map Prod.fst := by
    rcases List.lookup_eq_some_iff.1 hlookup with ⟨before, after, rfl, _⟩
    simp
  rcases exists_left_of_forall₂ (forall₂_of_mapM h.keys) hkey with ⟨id, hid, hname⟩
  have hmem : id ∈ a.grammar.nonTerminals := mem_inIdOrder.1 hid
  rcases h.rows id hmem with ⟨name', row, labels', hname', hrow, hlookup', hshows⟩
  cases hname.symm.trans hname'
  cases hlookup.symm.trans hlookup'
  exact ⟨id, hmem, row, hname, hrow, hshows⟩

theorem lookup_subset (h : a.grammar.SimulatedBy a'.grammar (a.grammar.SameName a'.grammar))
    (hcarries : Carries (a.grammar.SameName a'.grammar) sets.Holds sets'.Holds)
    (hall : a.ShowsAll sets named) (hall' : a'.ShowsAll sets' named')
    (hlookup : named.lookup name = some labels) :
    ∃ labels', named'.lookup name = some labels' ∧ labels ⊆ labels' := by
  rcases hall.exists_row hlookup with ⟨x, hx, row, hname, hrow, hshows⟩
  -- the counterpart of the non-terminal has a row too, and its name is the same
  rcases h.total x (Or.inr hx) with ⟨y, name', hname', hy⟩
  cases hname.symm.trans hname'
  have hxy : a.grammar.SameName a'.grammar x y := ⟨name, hname, hy⟩
  rcases hall'.rows y ((h.nonTerminal_iff x y hxy).1 hx) with
    ⟨name', row', labels', hy', hrow', hlookup', hshows'⟩
  cases hy.symm.trans hy'
  refine ⟨labels', hlookup', fun label hlabel => ?_⟩
  rcases hshows.exists_entry label hlabel with ⟨e, he, hlabelOf⟩
  rcases exists_alike h (hshows.isEntry e he) hlabelOf with ⟨e', halike, hlabelOf'⟩
  have hholds : sets'.Holds y e' := hcarries hxy halike ⟨row, hrow, he⟩
  have he' : e' ∈ row' := (SetMap.holds_iff_of_get? hrow').1 hholds
  exact (hshows'.mem_iff e' label (hshows'.isEntry e' he') hlabelOf').2 he'

/-- If `sets` and `sets'` carry over into each other, then the maps that show them have the same
`labels?`. -/
theorem labels?_eq (h : a.grammar.SimulatedBy a'.grammar (a.grammar.SameName a'.grammar))
    (h' : a'.grammar.SimulatedBy a.grammar (a'.grammar.SameName a.grammar))
    (hcarries : Carries (a.grammar.SameName a'.grammar) sets.Holds sets'.Holds)
    (hcarries' : Carries (a'.grammar.SameName a.grammar) sets'.Holds sets.Holds)
    (hall : a.ShowsAll sets named) (hall' : a'.ShowsAll sets' named') :
    named.labels? = named'.labels? :=
  NamedSets.labels?_eq (fun _ _ hlookup => lookup_subset h hcarries hall hall' hlookup)
    fun _ _ hlookup => lookup_subset h' hcarries' hall' hall hlookup

end ShowsAll

theorem Solves.labels?_eq {first follow first' follow' : NamedSets} (hsolves : a.Solves g)
    (hsolves' : a'.Solves g') (h : g.SimulatedBy g' (g.SameName g'))
    (h' : g'.SimulatedBy g (g'.SameName g)) (hfirst : a.ShowsAll a.first first)
    (hfollow : a.ShowsAll a.follow follow) (hfirst' : a'.ShowsAll a'.first first')
    (hfollow' : a'.ShowsAll a'.follow follow') :
    first.labels? = first'.labels? ∧ follow.labels? = follow'.labels? := by
  rcases hsolves with ⟨rfl, _, _, hleast, hleastFollow⟩
  rcases hsolves' with ⟨rfl, _, _, hleast', hleastFollow'⟩
  constructor
  · exact ShowsAll.labels?_eq h h' (h.carries_first hleast hleast')
      (h'.carries_first hleast' hleast) hfirst hfirst'
  · exact ShowsAll.labels?_eq h h' (h.carries_follow hleast hleast' hleastFollow hleastFollow')
      (h'.carries_follow hleast' hleast hleastFollow' hleastFollow) hfollow hfollow'

end Analysis

/-- If `d` rearranges to `d'`, `validate` rejects both or accepts both, and then the FIRST maps of
both grammars have the same `labels?`, and so have the FOLLOW maps. What was `found` before makes no
difference. -/
theorem verdict_of_rearranges (h : d.Rearranges d') (found found' : Diagnostics) :
    (∃ all n all' n', validate found d = .ok (all, .rejected n) ∧
      validate found' d' = .ok (all', .rejected n')) ∨
    ∃ g g' first follow first' follow', validate found d = .ok (found, .accepted g) ∧
      validate found' d' = .ok (found', .accepted g') ∧ g.namedSets = .ok (first, follow) ∧
      g'.namedSets = .ok (first', follow') ∧ first.labels? = first'.labels? ∧
      follow.labels? = follow'.labels? := by
  by_cases hd : d.WellFormed
  · have hd' : d'.WellFormed := h.wellFormed hd
    rcases validate_wellFormed found hd with ⟨g, hvalidate, hg⟩
    rcases validate_wellFormed found' hd' with ⟨g', hvalidate', hg'⟩
    rcases (hg.wellFormed hd).exists_analysis with ⟨a, hanalyze, hsolves⟩
    rcases (hg'.wellFormed hd').exists_analysis with ⟨a', hanalyze', hsolves'⟩
    rcases hsolves.exists_byName (hg.named hd) with ⟨first, follow, hfirst, hfollow, hall, hall₁⟩
    rcases hsolves'.exists_byName (hg'.named hd') with
      ⟨first', follow', hfirst', hfollow', hall', hall₁'⟩
    -- `Rearranges` is symmetric, so the sets carry over both ways
    rcases hsolves.labels?_eq hsolves' (h.simulatedBy hg hg' hd) (h.symm.simulatedBy hg' hg hd')
      hall hall₁ hall' hall₁' with ⟨hsame, hsame'⟩
    exact Or.inr ⟨g, g', first, follow, first', follow', hvalidate, hvalidate',
      Analysis.namedSets_eq hanalyze hfirst hfollow,
      Analysis.namedSets_eq hanalyze' hfirst' hfollow', hsame, hsame'⟩
  · have hd' : ¬d'.WellFormed := fun hd' => hd (h.symm.wellFormed hd')
    rcases validate_not_wellFormed found hd with ⟨new, _, hvalidate⟩
    rcases validate_not_wellFormed found' hd' with ⟨new', _, hvalidate'⟩
    exact Or.inl ⟨_, _, _, _, hvalidate, hvalidate'⟩

/-- `lookalikes` in another order and with repeats, with the start symbol and `emptyName` written
out. -/
def shuffledLookalikes : Description where
  start := "S"
  terminals := ["empty", "END", "empty"]
  nonTerminals := ["S", "A"]
  productions :=
    [⟨"A", ["S"], none⟩, ⟨"S", ["EMPTY"], none⟩, ⟨"S", ["END", "A", "S", "empty"], none⟩,
      ⟨"A", ["S"], none⟩]

theorem rearranges_lookalikes : lookalikes.Rearranges shuffledLookalikes where
  start := rfl
  terminals := by
    intro n
    simp only [lookalikes, shuffledLookalikes, List.mem_cons, List.not_mem_nil]
    tauto
  nonTerminals := by
    intro n
    simp only [Description.DeclaresNonTerminal, lookalikes, shuffledLookalikes, List.mem_cons,
      List.not_mem_nil]
    tauto
  productions := by
    intro p
    simp only [Description.canonical, Production.canonical, lookalikes, shuffledLookalikes,
      emptyName, List.map_cons, List.map_nil, List.mem_cons, List.not_mem_nil, reduceCtorEq,
      ↓reduceIte]
    tauto

theorem verdict_lookalikes :
    lookalikes.Rearranges shuffledLookalikes ∧ ∃ g' first follow first' follow',
      validate [] lookalikes = .ok ([], .accepted lookalikeGrammar) ∧
      validate [] shuffledLookalikes = .ok ([], .accepted g') ∧
      lookalikeGrammar.namedSets = .ok (first, follow) ∧ g'.namedSets = .ok (first', follow') ∧
      first.labels? = first'.labels? ∧ follow.labels? = follow'.labels? := by
  refine ⟨rearranges_lookalikes, ?_⟩
  rcases verdict_of_rearranges rearranges_lookalikes [] [] with
    ⟨_, _, _, _, hrejected, _⟩ | ⟨g, g', first, follow, first', follow', haccepted, hrest⟩
  · cases hrejected.symm.trans validate_lookalikes
  · cases haccepted.symm.trans validate_lookalikes
    exact ⟨g', first, follow, first', follow', validate_lookalikes, hrest⟩

end Lookahead
