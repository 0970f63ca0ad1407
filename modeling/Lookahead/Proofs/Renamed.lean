import Lookahead.Proofs.Naming
import Lookahead.Proofs.Validation.Renaming
import Mathlib.Logic.Equiv.Basic

/-!
# Renamed — grammars and sets with other names

A grammar consists of numbers, but for the table of its symbols. When a description gets other
names, that table changes and what is read off it, and nothing else does.

- `SymbolTable.rename`, `Grammar.rename`: the table with other names, and all else as it is.
- `Grammar.Represents.rename`: the grammar of a renamed description.
- `Analysis.byName_rename`: its sets by name.
- `validate_renamed`: the outcomes for a description and for the renamed one, side by side.
-/

namespace Lookahead

open Validation

variable {ρ : Renaming} {d : Description} {g : Grammar}

/-! ## Tables -/

def Declaration.rename (ρ : Renaming) (e : Declaration) : Declaration :=
  { e with name := ρ e.name }

theorem Declaration.rename_injective (ρ : Renaming) :
    Function.Injective (Declaration.rename ρ) := by
  rintro ⟨m, cls⟩ ⟨n, cls'⟩ h
  simpa [Declaration.rename] using h

/-- `t` with each name replaced by `ρ`; ids and classes stay. -/
def SymbolTable.rename (ρ : Renaming) (t : SymbolTable) : SymbolTable where
  declarations := t.declarations.map (Declaration.rename ρ)
  names_nodup := by
    have hnames : (t.declarations.map (Declaration.rename ρ)).map Declaration.name =
        (t.declarations.map Declaration.name).map ρ := by
      rw [List.map_map, List.map_map]
      rfl
    rw [hnames]
    exact t.names_nodup.map ρ.injective
  declarable := by
    intro e he
    rcases List.mem_map.1 he with ⟨e', he', rfl⟩
    exact t.declarable e' he'

namespace SymbolTable

variable {t : SymbolTable} {n : String} {id : SymbolId} {cls : SymbolClass}

theorem at?_rename (ρ : Renaming) (t : SymbolTable) (id : SymbolId) :
    (t.rename ρ).at? id = (t.at? id).map (Declaration.rename ρ) := by
  cases id with
  | ofNat n => exact List.getElem?_map
  | negSucc n => rfl

theorem at?_rename_eq_some_iff :
    (t.rename ρ).at? id = some ⟨ρ n, cls⟩ ↔ t.at? id = some ⟨n, cls⟩ := by
  rw [at?_rename]
  constructor
  · intro h
    rcases Option.map_eq_some_iff.1 h with ⟨e, he, hname⟩
    have hsame : e = ⟨n, cls⟩ := Declaration.rename_injective ρ hname
    exact hsame ▸ he
  · intro h
    rw [h]
    rfl

theorem idOf?_rename (ρ : Renaming) (t : SymbolTable) (n : String) :
    (t.rename ρ).idOf? (ρ n) = t.idOf? n := by
  refine Option.ext fun id => ?_
  simp only [idOf?_eq_some_iff, at?_rename_eq_some_iff]

theorem hasClass_rename (ρ : Renaming) (t : SymbolTable) (cls : SymbolClass) (id : SymbolId) :
    (t.rename ρ).hasClass cls id = t.hasClass cls id := by
  rw [hasClass, at?_rename, Option.any_map]
  rfl

theorem idsOfClass_rename (ρ : Renaming) (t : SymbolTable) (cls : SymbolClass) :
    (t.rename ρ).idsOfClass cls = t.idsOfClass cls := by
  have hsize : (t.rename ρ).size = t.size := List.length_map ..
  rw [idsOfClass, hsize, funext (hasClass_rename ρ t cls)]
  rfl

theorem nameOf_rename (ρ : Renaming) (t : SymbolTable) (id : SymbolId) :
    (t.rename ρ).nameOf id = (t.nameOf id).map ρ := by
  rw [nameOf, nameOf, at?_rename]
  cases t.at? id <;> rfl

end SymbolTable

/-! ## Grammars -/

def Grammar.rename (ρ : Renaming) (g : Grammar) : Grammar :=
  { g with symbols := g.symbols.rename ρ }

namespace Validation

variable {t : SymbolTable} {p : Production} {r : Rule} {index : Nat}

theorem requests_rename (ρ : Renaming) (terminals nonTerminals : List String) :
    requests (terminals.map ρ) (nonTerminals.map ρ) =
      (requests terminals nonTerminals).map (Declaration.rename ρ) := by
  simp [requests, List.filter_map, List.map_map, Function.comp_def, Declaration.rename]

theorem Lists.rename (ht : Lists t d) : Lists (t.rename ρ) (d.rename ρ) := by
  have hlisted : d.nonTerminals.map ρ ++ [ρ d.start] = (d.nonTerminals ++ [d.start]).map ρ := by
    simp
  change t.declarations.map (Declaration.rename ρ) =
    (requests (d.terminals.map ρ) (d.nonTerminals.map ρ ++ [ρ d.start])).eraseDups
  rw [hlisted, requests_rename, eraseDups_map (Declaration.rename_injective ρ), ht]

theorem isEmptyAlternate_rename (ρ : Renaming) (names : List String) :
    isEmptyAlternate (names.map ρ) = isEmptyAlternate names := by
  rw [Bool.eq_iff_iff, isEmptyAlternate_iff, isEmptyAlternate_iff]
  simp

theorem alternateEntries_rename (ρ : Renaming) (t : SymbolTable) (p : Production) :
    alternateEntries (t.rename ρ) (p.rename ρ) = alternateEntries t p := by
  simp [alternateEntries, Production.rename, isEmptyAlternate_rename, List.filterMap_map,
    SymbolTable.idOf?_rename]

theorem Renders.rename (h : Renders t p index r) : Renders (t.rename ρ) (p.rename ρ) index r where
  head := SymbolTable.at?_rename_eq_some_iff.2 h.head
  alternate := h.alternate.trans (alternateEntries_rename ρ t p).symm
  index := h.index

end Validation

theorem Grammar.Represents.rename (hg : g.Represents d) :
    (g.rename ρ).Represents (d.rename ρ) where
  symbols := hg.symbols.rename
  mem_terminals id := (hg.mem_terminals id).trans
    (by rw [← SymbolTable.hasClass_rename ρ]; rfl)
  mem_nonTerminals id := (hg.mem_nonTerminals id).trans
    (by rw [← SymbolTable.hasClass_rename ρ]; rfl)
  terminals_nodup := hg.terminals_nodup
  nonTerminals_nodup := hg.nonTerminals_nodup
  start := SymbolTable.at?_rename_eq_some_iff.2 hg.start
  rules := by
    unfold RendersAll
    rw [Description.rename, List.zipIdx_map]
    exact List.forall₂_map_left_iff.2 (hg.rules.imp fun _ _ => Renders.rename)

theorem Grammar.InOrder.rename (h : g.InOrder) : (g.rename ρ).InOrder where
  terminals_eq := h.terminals_eq.trans (SymbolTable.idsOfClass_rename ρ g.symbols _).symm
  nonTerminals_eq := h.nonTerminals_eq.trans (SymbolTable.idsOfClass_rename ρ g.symbols _).symm

/-! ## Sets by name -/

def NamedSets.rename (ρ : Renaming) (sets : NamedSets) : NamedSets :=
  sets.map fun row => (ρ row.1, row.2.map ρ)

namespace Analysis

def rename (ρ : Renaming) (a : Analysis) : Analysis :=
  { a with grammar := a.grammar.rename ρ }

/-- The label of `e` is renamed by `ρ`, which leaves those of the markers as they are. -/
theorem label_rename (ρ : Renaming) (a : Analysis) (e : Entry) :
    (a.rename ρ).label e = (a.label e).map ρ := by
  cases e with
  | symbol id => exact SymbolTable.nameOf_rename ρ a.grammar.symbols id
  | empty => exact congrArg Except.ok ρ.empty.symm
  | endOfInput => exact congrArg Except.ok ρ.endOfInput.symm

theorem namedRow_rename (ρ : Renaming) (a : Analysis) (sets : SetMap) (id : SymbolId) :
    (a.rename ρ).namedRow sets id =
      (a.namedRow sets id).map fun row => (ρ row.1, row.2.map ρ) := by
  have hlabels (row : EntrySet) :
      row.mapM (a.rename ρ).label = (row.mapM a.label).map (List.map ρ) := by
    rw [funext (label_rename ρ a), mapM_map]
  have hname : (a.rename ρ).grammar.symbols.nameOf id = (a.grammar.symbols.nameOf id).map ρ :=
    SymbolTable.nameOf_rename ρ a.grammar.symbols id
  simp only [namedRow, hlabels, hname, bind, Except.bind, pure, Except.pure]
  -- three lookups, and what fails first is the same with the other names
  cases sets.row id with
  | error e => rfl
  | ok row =>
      simp only
      cases row.mapM a.label with
      | error e => rfl
      | ok labels =>
          cases a.grammar.symbols.nameOf id with
          | error e => rfl
          | ok name => simp [Except.map, eraseDups_map ρ.injective]

theorem byName_rename (ρ : Renaming) (a : Analysis) (sets : SetMap) :
    (a.rename ρ).byName sets = (a.byName sets).map (NamedSets.rename ρ) := by
  -- rows are in the order of their ids, on which names have no influence
  change (inIdOrder a.grammar.nonTerminals).mapM _ = _
  rw [funext (namedRow_rename ρ a sets), mapM_map]
  rfl

end Analysis

theorem Grammar.extendFollowBy_rename (ρ : Renaming) (g : Grammar) (first : SetMap)
    (head : SymbolId) (alternate : List Entry) (follow : SetMap) :
    (g.rename ρ).extendFollowBy first head alternate follow =
      g.extendFollowBy first head alternate follow := by
  induction alternate generalizing follow with
  | nil => rfl
  | cons e rest ih =>
      cases e with
      | symbol id =>
          simp only [extendFollowBy, ih]
          rfl
      | empty => exact ih follow
      | endOfInput => exact ih follow

theorem Grammar.follow_rename (ρ : Renaming) (g : Grammar) (first : SetMap) :
    (g.rename ρ).follow first = g.follow first := by
  have hrule : (g.rename ρ).extendFollow first = g.extendFollow first := by
    funext follow r
    rw [extendFollow, extendFollow, extendFollowBy_rename]
  have hpass : (g.rename ρ).followPass first = g.followPass first := by
    funext follow
    rw [followPass, followPass, hrule]
    rfl
  rw [Grammar.follow, Grammar.follow, hpass]
  rfl

/-- `analyze` gives the same sets of ids and entries for the renamed grammar. -/
theorem Grammar.analyze_rename (ρ : Renaming) (g : Grammar) :
    (g.rename ρ).analyze = g.analyze.map (Analysis.rename ρ) := by
  have hfirst : (g.rename ρ).first = g.first := rfl
  simp only [analyze, hfirst, follow_rename, bind, Except.bind, pure, Except.pure]
  cases g.first with
  | error e => rfl
  | ok result =>
      simp only
      cases g.follow result.1 <;> rfl

/-! ## Outcomes -/

/-- For any `ρ` that is injective and fixes the two reserved names, `validate` gives the same
verdict on `d.rename ρ`: as many diagnostics of the same kinds at the same rules with renamed names,
or the grammar, the analysis and the two maps by name, all renamed. -/
theorem validate_renamed (ρ : Renaming) (found found' : Diagnostics) (d : Description) :
    (∃ new new', List.Forall₂ (Diagnostic.Renames ρ) new new' ∧
      validate found d = .ok (found ++ new, .rejected new.length) ∧
      validate found' (d.rename ρ) = .ok (found' ++ new', .rejected new.length)) ∨
    ∃ g a first follow, validate found d = .ok (found, .accepted g) ∧
      validate found' (d.rename ρ) = .ok (found', .accepted (g.rename ρ)) ∧
      g.analyze = .ok a ∧ a.firstByName = .ok first ∧ a.followByName = .ok follow ∧
      (g.rename ρ).analyze = .ok (a.rename ρ) ∧
      (a.rename ρ).firstByName = .ok (first.rename ρ) ∧
      (a.rename ρ).followByName = .ok (follow.rename ρ) := by
  by_cases hd : d.WellFormed
  · right
    have hd' : (d.rename ρ).WellFormed := Description.wellFormed_rename.2 hd
    rcases validate_wellFormed found hd with ⟨g, haccepted, hg⟩
    rcases validate_wellFormed found' hd' with ⟨g', haccepted', hg'⟩
    -- a description has one grammar, so that the renamed one has no choice
    have hsame : g' = g.rename ρ :=
      hg'.unique hg.rename hd' hd' (inOrder_of_accepted haccepted')
        (inOrder_of_accepted haccepted).rename rfl
    rcases (hg.wellFormed hd).exists_analysis with ⟨a, hanalyze, hsolves⟩
    rcases hsolves.exists_byName (hg.named hd) with ⟨first, follow, hfirst, hfollow, _, _⟩
    refine ⟨g, a, first, follow, haccepted, hsame ▸ haccepted', hanalyze, hfirst, hfollow, ?_⟩
    refine ⟨?_, ?_, ?_⟩
    · rw [Grammar.analyze_rename, hanalyze]
      rfl
    · exact (a.byName_rename ρ a.first).trans (congrArg (Except.map _) hfirst)
    · exact (a.byName_rename ρ a.follow).trans (congrArg (Except.map _) hfollow)
  · left
    have hd' : ¬(d.rename ρ).WellFormed := fun h => hd (Description.wellFormed_rename.1 h)
    have hfindings := Description.findings_rename ρ d
    refine ⟨d.findings, (d.rename ρ).findings, hfindings, ?_, ?_⟩
    · exact Description.validate_findings found hd
    · rw [hfindings.length_eq]
      exact Description.validate_findings found' hd'

/-- The renaming that lets `m` and `n` change places. -/
def Renaming.swap (m n : String) (hm : isReservedName m = false)
    (hn : isReservedName n = false) : Renaming where
  toFun := Equiv.swap m n
  injective := (Equiv.swap m n).injective
  empty :=
    Equiv.swap_apply_of_ne_of_ne (isReservedName_eq_false_iff.1 hm).1.symm
      (isReservedName_eq_false_iff.1 hn).1.symm
  endOfInput :=
    Equiv.swap_apply_of_ne_of_ne (isReservedName_eq_false_iff.1 hm).2.symm
      (isReservedName_eq_false_iff.1 hn).2.symm

/-- In `lookalikes`, the start symbol `S` and the terminal `END` can change places. -/
theorem renamed_lookalikes :
    validate [] (lookalikes.rename (.swap "S" "END" (by decide) (by decide))) =
      .ok ([], .accepted (lookalikeGrammar.rename (.swap "S" "END" (by decide) (by decide)))) := by
  rcases validate_renamed (.swap "S" "END" (by decide) (by decide)) [] [] lookalikes with
    ⟨new, _, _, h, _⟩ | ⟨g, a, first, follow, h, h', _⟩
  · rw [validate_lookalikes] at h
    cases h
  · rw [validate_lookalikes] at h
    cases h
    exact h'

end Lookahead
