import Lookahead.Proofs.Reading.Reader
import Lookahead.Proofs.Validation.Acceptance
import Lookahead.Proofs.Validation.IdOrder

/-!
# Canonical — one description for each grammar

Descriptions of one grammar differ in repeated names, in whether the start symbol is listed, in how
an empty rule is written, and in where the rules were read. The canonical form settles all of it.

- `Description.canonical`: each name once, the start symbol listed, empty rules by name.
- `Description.canonical_canonical`, `Description.wellFormed_canonical_iff`: it is its own canonical
  form, and as well-formed as the description.
- `Grammar.Represents.describe_eq`: an accepted grammar by name is the canonical form of what it comes
  from.
- `accepted_of_canonical_eq`: the canonical form determines the grammar.
-/

namespace Lookahead

open Validation

variable {d d' : Description} {g g' : Grammar}

/-! ## The canonical form -/

/-- `p` with `[emptyName]` for an empty alternate, and without a span. -/
def Production.canonical (p : Production) : Production :=
  ⟨p.head, if p.alternate = [] then [emptyName] else p.alternate, none⟩

def Description.canonical (d : Description) : Description where
  start := d.start
  terminals := d.terminals.eraseDups
  nonTerminals := (d.nonTerminals ++ [d.start]).eraseDups
  productions := d.productions.map Production.canonical

namespace Production

variable {p : Production}

theorem alternate_canonical_ne_nil (p : Production) : p.canonical.alternate ≠ [] := by
  unfold canonical
  split
  · exact List.cons_ne_nil emptyName []
  · assumption

theorem canonical_of_ne_nil (h : p.alternate ≠ []) : p.canonical = p.withoutSpan := by
  simp [canonical, withoutSpan, h]

@[simp]
theorem canonical_canonical (p : Production) : p.canonical.canonical = p.canonical := by
  rw [canonical_of_ne_nil p.alternate_canonical_ne_nil]
  rfl

theorem canonical_withoutSpan (p : Production) : p.withoutSpan.canonical = p.canonical :=
  rfl

theorem withoutSpan_canonical (p : Production) : p.canonical.withoutSpan = p.canonical :=
  rfl

theorem mem_alternate_canonical {n : String} (h : n ∈ p.canonical.alternate) :
    n = emptyName ∨ n ∈ p.alternate := by
  unfold canonical at h
  split at h
  · exact Or.inl (List.mem_singleton.1 h)
  · exact Or.inr h

end Production

/-! ## Descriptions -/

namespace Description

theorem start_mem_canonical (d : Description) : d.start ∈ (d.nonTerminals ++ [d.start]).eraseDups :=
  List.mem_eraseDups.2 (List.mem_append_right _ (List.mem_singleton_self d.start))

theorem canonical_canonical (d : Description) : d.canonical.canonical = d.canonical := by
  have hterminals : d.terminals.eraseDups.eraseDups = d.terminals.eraseDups :=
    eraseDups_of_nodup (nodup_eraseDups _)
  have hnonTerminals :
      ((d.nonTerminals ++ [d.start]).eraseDups ++ [d.start]).eraseDups =
        (d.nonTerminals ++ [d.start]).eraseDups := by
    -- the start symbol is listed by now, so that listing it once more changes nothing
    rw [eraseDups_concat, if_pos d.start_mem_canonical, eraseDups_of_nodup (nodup_eraseDups _)]
  simp [canonical, hterminals, hnonTerminals, Function.comp_def]

theorem canonical_withoutSpans (d : Description) : d.withoutSpans.canonical = d.canonical := by
  simp [canonical, withoutSpans, Function.comp_def, Production.canonical_withoutSpan]

theorem withoutSpans_canonical (d : Description) : d.canonical.withoutSpans = d.canonical := by
  simp [canonical, withoutSpans, Function.comp_def, Production.withoutSpan_canonical]

theorem declaresNonTerminal_canonical {n : String} :
    d.canonical.DeclaresNonTerminal n ↔ d.DeclaresNonTerminal n := by
  simp [DeclaresNonTerminal, canonical]

theorem declares_canonical {n : String} : d.canonical.Declares n ↔ d.Declares n := by
  simp [Declares, canonical]

theorem wellFormed_canonical_iff : d.canonical.WellFormed ↔ d.WellFormed := by
  have hunreserved : (∀ n ∈ d.canonical.start :: d.canonical.terminals ++ d.canonical.nonTerminals,
      n ≠ emptyName ∧ n ≠ endName) ↔
        ∀ n ∈ d.start :: d.terminals ++ d.nonTerminals, n ≠ emptyName ∧ n ≠ endName := by
    refine forall_congr' fun n => imp_congr_left ?_
    -- the start symbol is listed twice on the left
    simp only [canonical, List.mem_append, List.mem_cons, List.mem_eraseDups, List.not_mem_nil]
    tauto
  have hdisjoint : (∀ n ∈ d.canonical.terminals, ¬d.canonical.DeclaresNonTerminal n) ↔
      ∀ n ∈ d.terminals, ¬d.DeclaresNonTerminal n := by
    simp only [declaresNonTerminal_canonical]
    simp [canonical]
  have hheads : (∀ p ∈ d.canonical.productions, d.canonical.DeclaresNonTerminal p.head) ↔
      ∀ p ∈ d.productions, d.DeclaresNonTerminal p.head := by
    simp only [declaresNonTerminal_canonical]
    exact List.forall_mem_map
  have halternates : (∀ p ∈ d.canonical.productions,
      p.alternate = [] ∨ p.alternate = [emptyName] ∨ ∀ n ∈ p.alternate, d.canonical.Declares n) ↔
        ∀ p ∈ d.productions,
          p.alternate = [] ∨ p.alternate = [emptyName] ∨ ∀ n ∈ p.alternate, d.Declares n := by
    simp only [declares_canonical]
    refine List.forall_mem_map.trans (forall₂_congr fun p _ => ?_)
    by_cases hp : p.alternate = []
    · simp [Production.canonical, hp]
    · simp [Production.canonical, hp]
  have hstartRule : (∃ p ∈ d.canonical.productions, p.head = d.canonical.start) ↔
      ∃ p ∈ d.productions, p.head = d.start := by
    simp [canonical, Production.canonical]
  constructor
  · intro h
    exact ⟨hunreserved.1 h.unreserved, hdisjoint.1 h.disjoint, hheads.1 h.heads,
      halternates.1 h.alternates, hstartRule.1 h.startRule⟩
  · intro h
    exact ⟨hunreserved.2 h.unreserved, hdisjoint.2 h.disjoint, hheads.2 h.heads,
      halternates.2 h.alternates, hstartRule.2 h.startRule⟩

/-- `d.canonical` is `Complete` if `d` has terminals and productions. -/
theorem complete_canonical (hterminals : d.terminals ≠ []) (hproductions : d.productions ≠ []) :
    d.canonical.Complete := by
  refine ⟨?_, ?_, by simpa [canonical] using hproductions, ?_⟩
  · rcases List.exists_mem_of_ne_nil d.terminals hterminals with ⟨n, hn⟩
    exact List.ne_nil_of_mem (List.mem_eraseDups.2 hn)
  · exact List.ne_nil_of_mem d.start_mem_canonical
  · intro _ hp
    rcases List.mem_map.1 hp with ⟨p, _, rfl⟩
    exact p.alternate_canonical_ne_nil

end Description

/-! ## Grammars by name -/

namespace Grammar.Represents

variable {p : Production} {index : Nat} {r : Rule}

theorem production_eq (hp : Clean g.symbols p) (h : Renders g.symbols p index r) :
    g.production r = .ok p.canonical := by
  have hhead : g.symbols.nameOf r.head = .ok p.head := SymbolTable.nameOf_eq_ok h.head
  have halternate : r.alternate.mapM g.elementName = .ok p.canonical.alternate := by
    rw [h.alternate]
    rcases hp.entries with hempty | ⟨ids, hsome, hids, hall⟩
    · -- an empty rule is shown by `emptyName`, however it was written
      have hname : p.canonical.alternate = [emptyName] := by
        rcases alternateEntries_eq_empty_iff.1 hempty with hp | hp
        · simp [Production.canonical, hp]
        · simp [Production.canonical, hp]
      rw [hempty, hname]
      rfl
    · have hne : p.alternate ≠ [] := by
        intro hnil
        rw [hnil, List.forall₂_nil_left_iff] at hall
        exact hsome hall
      rw [hids, Production.canonical_of_ne_nil hne, List.mapM_map]
      exact SymbolTable.mapM_nameOf hall
  simp [production, hhead, halternate, bind, Except.bind, pure, Except.pure, Production.canonical]

theorem forall₂_production_eq (hg : g.Represents d) (hd : d.WellFormed) :
    List.Forall₂ (fun r p => g.production r = .ok p) g.rules d.canonical.productions := by
  have hrules := (hg.clean_rules hd).imp fun _ _ h => production_eq h.1 h.2
  -- the rules are numbered here and not in the description
  have hnumbered : d.canonical.productions =
      d.productions.zipIdx.map fun entry => entry.1.canonical := by
    calc
      d.canonical.productions
          = (d.productions.zipIdx.map Prod.fst).map Production.canonical := by
            rw [List.zipIdx_map_fst]
            rfl
      _ = d.productions.zipIdx.map fun entry => entry.1.canonical := by
            rw [List.map_map]
            rfl
  rw [hnumbered]
  exact List.forall₂_map_right_iff.2 hrules.flip

theorem describe_eq (hg : g.Represents d) (hd : d.WellFormed) (horder : g.InOrder) :
    g.describe = .ok d.canonical := by
  have hclean := (hg.symbols.wellFormed_iff.1 hd).1
  have hstart : g.startName = .ok d.start := SymbolTable.nameOf_eq_ok hg.start
  -- both lists of ids are sorted, so that looking up the names is all there is to do
  have hterminals : (inIdOrder g.terminals).mapM g.symbols.nameOf = .ok d.terminals.eraseDups := by
    rw [horder.terminals_eq, SymbolTable.inIdOrder_idsOfClass, SymbolTable.mapM_nameOf_idsOfClass,
      hg.symbols.declarations_eq hclean]
    simp [List.filter_map, Function.comp_def]
  have hnonTerminals : (inIdOrder g.nonTerminals).mapM g.symbols.nameOf =
      .ok (d.nonTerminals ++ [d.start]).eraseDups := by
    rw [horder.nonTerminals_eq, SymbolTable.inIdOrder_idsOfClass,
      SymbolTable.mapM_nameOf_idsOfClass, hg.symbols.declarations_eq hclean]
    simp [List.filter_map, Function.comp_def]
  have hproductions : g.rules.mapM g.production = .ok d.canonical.productions :=
    mapM_of_forall₂ (hg.forall₂_production_eq hd)
  simp [describe, hstart, hterminals, hnonTerminals, hproductions, bind, Except.bind, pure,
    Except.pure, Description.canonical]

/-- The rule texts of `g` are the texts of the canonical productions. -/
theorem mapM_ruleText_eq (hg : g.Represents d) (hd : d.WellFormed) :
    g.rules.mapM g.ruleText = .ok (d.canonical.productions.map Production.text) := by
  refine mapM_of_forall₂ (List.forall₂_map_right_iff.2 ((hg.forall₂_production_eq hd).imp ?_))
  intro r p hr
  exact bind_eq_ok_iff.2 ⟨p, hr, rfl⟩

end Grammar.Represents

/-! ## One grammar -/

theorem Validation.alternateEntries_canonical (t : SymbolTable) (p : Production) :
    alternateEntries t p.canonical = alternateEntries t p := by
  by_cases hp : p.alternate = []
  · simp [alternateEntries, Production.canonical, isEmptyAlternate, hp]
  · simp [alternateEntries, Production.canonical, hp]

namespace Validation

variable {t : SymbolTable} {ps : List Production} {rules rules' : List Rule} {index : Nat}

theorem Renders.canonical {p : Production} {r : Rule} (h : Renders t p index r) :
    Renders t p.canonical index r where
  head := h.head
  alternate := h.alternate.trans (alternateEntries_canonical t p).symm
  index := h.index

theorem rightUnique_renders (t : SymbolTable) :
    Relator.RightUnique fun (entry : Production × Nat) r => Renders t entry.1 entry.2 r := by
  rintro ⟨p, i⟩ ⟨head, alternate, index⟩ ⟨head', alternate', index'⟩ h h'
  have hhead : head = head' := SymbolTable.at?_unique h.head h'.head
  have halternate : alternate = alternate' := h.alternate.trans h'.alternate.symm
  have hindex : index = index' := h.index.trans h'.index.symm
  rw [hhead, halternate, hindex]

theorem RendersAll.canonical (h : RendersAll t index ps rules) :
    RendersAll t index (ps.map Production.canonical) rules := by
  unfold RendersAll
  rw [List.zipIdx_map]
  exact List.forall₂_map_left_iff.2 (h.imp fun _ _ => Renders.canonical)

theorem RendersAll.unique (h : RendersAll t index ps rules) (h' : RendersAll t index ps rules') :
    rules = rules' :=
  (rightUnique_renders t).forall₂ h h'

end Validation

theorem SymbolTable.eq_of_declarations {t t' : SymbolTable} (h : t.declarations = t'.declarations) :
    t = t' := by
  cases t
  cases t'
  cases h
  rfl

theorem Grammar.Represents.unique (hg : g.Represents d) (hg' : g'.Represents d')
    (hd : d.WellFormed) (hd' : d'.WellFormed) (horder : g.InOrder) (horder' : g'.InOrder)
    (h : d.canonical = d'.canonical) : g = g' := by
  simp only [Description.canonical, Description.mk.injEq] at h
  rcases h with ⟨hstart, hlisted, hlisted', hproductions⟩
  have hdeclarations : g.symbols.declarations = g'.symbols.declarations := by
    have hclean := (hg.symbols.wellFormed_iff.1 hd).1
    have hclean' := (hg'.symbols.wellFormed_iff.1 hd').1
    rw [hg.symbols.declarations_eq hclean, hg'.symbols.declarations_eq hclean', hlisted, hlisted']
  have hsymbols : g.symbols = g'.symbols := SymbolTable.eq_of_declarations hdeclarations
  have hterminals : g.terminals = g'.terminals := by
    rw [horder.terminals_eq, horder'.terminals_eq, hsymbols]
  have hnonTerminals : g.nonTerminals = g'.nonTerminals := by
    rw [horder.nonTerminals_eq, horder'.nonTerminals_eq, hsymbols]
  -- rendering is a function of the table, the place and the canonical form
  have hrules : g.rules = g'.rules := by
    have hrenders := hg.rules.canonical
    rw [hsymbols, hproductions] at hrenders
    exact hrenders.unique hg'.rules.canonical
  have hid : g.start = g'.start := by
    have hat := hg.start
    rw [hsymbols, hstart] at hat
    exact SymbolTable.at?_unique hat hg'.start
  cases g
  cases g'
  rw [Grammar.mk.injEq]
  exact ⟨hsymbols, hterminals, hnonTerminals, hrules, hid⟩

variable {found all : Diagnostics}

/-- If `d` and `d'` have the same canonical form and `d` is accepted as `g`, then `d'` is accepted
as the same `g`. -/
theorem accepted_of_canonical_eq (h : validate found d = .ok (all, .accepted g))
    (hcanonical : d.canonical = d'.canonical) (found' : Diagnostics) :
    validate found' d' = .ok (found', .accepted g) := by
  rcases represents_of_accepted h with ⟨_, hd, hg⟩
  have hd' : d'.WellFormed := by
    rw [← Description.wellFormed_canonical_iff, ← hcanonical]
    exact Description.wellFormed_canonical_iff.2 hd
  rcases validate_wellFormed found' hd' with ⟨g', haccepted, hg'⟩
  have hsame : g = g' :=
    hg.unique hg' hd hd' (inOrder_of_accepted h) (inOrder_of_accepted haccepted) hcanonical
  rw [hsame]
  exact haccepted

end Lookahead
