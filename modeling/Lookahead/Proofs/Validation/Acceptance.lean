import Lookahead.Proofs.Grammar.WellFormed
import Lookahead.Proofs.Validation.WellFormed

/-!
# Acceptance — the validator accepts the well-formed descriptions

- `Grammar.Represents`: a grammar by number, beside the description that it comes from.
- `Grammar.Represents.wellFormed`: the grammar of a well-formed description is well-formed.
- `validate_wellFormed`, `validate_not_wellFormed`: what the validator returns, in both cases.
- `validate_decides_wellFormed`: the verdict alone.
-/

namespace Lookahead

open Validation

variable {found : Diagnostics} {d : Description} {g : Grammar}

/-! ## Grammars and their descriptions -/

structure Grammar.Represents (g : Grammar) (d : Description) : Prop where
  symbols : Lists g.symbols d
  mem_terminals : ∀ id, id ∈ g.terminals ↔ g.symbols.hasClass .terminal id = true
  mem_nonTerminals : ∀ id, id ∈ g.nonTerminals ↔ g.symbols.hasClass .nonTerminal id = true
  terminals_nodup : g.terminals.Nodup
  nonTerminals_nodup : g.nonTerminals.Nodup
  start : g.symbols.at? g.start = some ⟨d.start, .nonTerminal⟩
  rules : RendersAll g.symbols 0 d.productions g.rules

namespace Grammar.Represents

variable {id : SymbolId} {r : Rule} {q : Production}

theorem declares_of_at? (hg : g.Represents d) {e : Declaration} (h : g.symbols.at? id = some e) :
    g.Declares id := by
  rcases e with ⟨name, cls⟩
  cases cls with
  | terminal => exact Or.inl ((hg.mem_terminals id).2 (SymbolTable.hasClass_iff.2 ⟨name, h⟩))
  | nonTerminal =>
      exact Or.inr ((hg.mem_nonTerminals id).2 (SymbolTable.hasClass_iff.2 ⟨name, h⟩))
  | empty =>
      have hmem : ⟨name, .empty⟩ ∈ g.symbols.declarations := SymbolTable.exists_at?_iff.1 ⟨id, h⟩
      exact absurd rfl (g.symbols.declarable _ hmem)

theorem nonTerminal_of_at? (hg : g.Represents d) {name : String}
    (h : g.symbols.at? id = some ⟨name, .nonTerminal⟩) : id ∈ g.nonTerminals :=
  (hg.mem_nonTerminals id).2 (SymbolTable.hasClass_iff.2 ⟨name, h⟩)

theorem alternate_of_clean (hg : g.Represents d) (hq : Clean g.symbols q)
    (halternate : r.alternate = alternateEntries g.symbols q) :
    (r.alternate = [.empty] ∨ (r.body ≠ [] ∧ r.alternate = r.body.map .symbol)) ∧
      ∀ id ∈ r.body, g.Declares id := by
  rcases hq.entries with hempty | ⟨ids, hsome, hentries, hall⟩
  · have hmarker : r.alternate = [.empty] := halternate.trans hempty
    exact ⟨Or.inl hmarker, by simp [Rule.body, hmarker]⟩
  · have hsymbols : r.alternate = ids.map Entry.symbol := halternate.trans hentries
    have hbody : r.body = ids := by simp [Rule.body, hsymbols, List.filterMap_map]
    rw [hbody]
    refine ⟨Or.inr ⟨hsome, hsymbols⟩, ?_⟩
    intro id hid
    rcases exists_left_of_forall₂ hall hid with ⟨n, _, cls, hcls⟩
    exact hg.declares_of_at? hcls

/-- The rules of `g` are those of the productions, at the same places, and each production is
`Clean`. -/
theorem clean_rules (hg : g.Represents d) (hd : d.WellFormed) :
    List.Forall₂ (fun entry r => Clean g.symbols entry.1 ∧ Renders g.symbols entry.1 entry.2 r)
      d.productions.zipIdx g.rules := by
  rcases hg.symbols.wellFormed_iff.1 hd with ⟨_, hclean, _⟩
  refine (List.forall₂_and_left _ _).2 ⟨?_, hg.rules⟩
  exact fun entry hentry => hclean entry.1 (List.fst_mem_of_mem_zipIdx hentry)

theorem wellFormed (hg : g.Represents d) (hd : d.WellFormed) : g.WellFormed := by
  rcases hg.symbols.wellFormed_iff.1 hd with ⟨_, hclean, _⟩
  have hrule : ∀ r ∈ g.rules, r.head ∈ g.nonTerminals ∧
      (r.alternate = [.empty] ∨ (r.body ≠ [] ∧ r.alternate = r.body.map .symbol)) ∧
      ∀ id ∈ r.body, g.Declares id := by
    intro r hr
    rcases hg.rules.exists_production hr with ⟨q, hq, i, hrenders⟩
    exact ⟨hg.nonTerminal_of_at? hrenders.head,
      hg.alternate_of_clean (hclean q hq) hrenders.alternate⟩
  exact {
    disjoint := by
      intro t ht hnonTerminal
      have hterminal := (hg.mem_terminals t).1 ht
      have hboth := SymbolTable.hasClass_unique hterminal ((hg.mem_nonTerminals t).1 hnonTerminal)
      cases hboth
    heads := fun r hr => (hrule r hr).1
    alternates := fun r hr => (hrule r hr).2.1
    bodies := fun r hr => (hrule r hr).2.2
    start := hg.nonTerminal_of_at? hg.start
    startRule := by
      rcases hd.startRule with ⟨q, hq, hstart⟩
      rcases hg.rules.exists_rule hq with ⟨r, hr, i, hrenders⟩
      -- the head of this rule has the name of the start symbol, and a name has one id
      have hhead : g.symbols.at? r.head = some ⟨d.start, .nonTerminal⟩ := hstart ▸ hrenders.head
      exact ⟨r, hr, SymbolTable.at?_unique hhead hg.start⟩ }

end Grammar.Represents

/-! ## Verdicts -/

/-- In a consistent state the two classes are disjoint, so `finish` succeeds as soon as the start
symbol is known. -/
theorem Validation.Progress.Consistent.finish_total {p : Progress} (hp : p.Consistent)
    (start : SymbolId) (rules : List Rule) :
    finish p (some start) rules =
      .ok ⟨p.table, p.terminals, p.nonTerminals, rules, start⟩ := by
  have hdisjoint : p.terminals.any p.nonTerminals.contains = false := by
    refine List.any_eq_false.2 fun id hid hother => ?_
    have hterminal := (hp.mem_terminals id).1 hid
    have hnonTerminal := (hp.mem_nonTerminals id).1 (by simpa using hother)
    cases SymbolTable.hasClass_unique hterminal hnonTerminal
  simp [finish, hdisjoint]

theorem validate_wellFormed (found : Diagnostics) (h : d.WellFormed) :
    ∃ g, validate found d = .ok (found, .accepted g) ∧ g.Represents d := by
  rcases declare_describes found d with ⟨p, start?, hdeclare, hp, hstart⟩
  have hlists : Lists p.table d := hp.declarations_eq
  rcases hlists.wellFormed_iff.1 h with ⟨hnone, hclean, hstartRule⟩
  -- no phase has a defect, so nothing is added to the findings
  have hfound : p.found = found := by simp [hp.found_eq, hnone]
  rcases checkProductions_rules p.table d.productions hclean 0 with ⟨rules, hrules, hall⟩
  have hdeclared : ⟨d.start, .nonTerminal⟩ ∈ p.table.declarations :=
    (hlists.nonTerminal_iff hnone).2 (Or.inr rfl)
  rcases SymbolTable.exists_at?_iff.2 hdeclared with ⟨id, hid⟩
  have hstart' : start? = some id := (hstart id).2 hid
  have hfinish := hp.toConsistent.finish_total id rules
  refine ⟨⟨p.table, p.terminals, p.nonTerminals, rules, id⟩, ?_, ?_⟩
  · simp [validate, hdeclare, hrules, hfound, hstartRule, hstart', hfinish, bind, Except.bind, pure,
      Except.pure]
  · exact {
      symbols := hlists
      mem_terminals := hp.mem_terminals
      mem_nonTerminals := hp.mem_nonTerminals
      terminals_nodup := hp.terminals_nodup
      nonTerminals_nodup := hp.nonTerminals_nodup
      start := hid
      rules := hall }

theorem validate_not_wellFormed (found : Diagnostics) (h : ¬d.WellFormed) :
    ∃ new : Diagnostics, new ≠ [] ∧
      validate found d = .ok (found ++ new, .rejected new.length) := by
  rcases declare_describes found d with ⟨p, start?, hdeclare, hp, _⟩
  have hlists : Lists p.table d := hp.declarations_eq
  have hiff := checkProductions_findings_iff p.table d.productions 0
  rcases hcheck : checkProductions p.table 0 d.productions with ⟨findings, rules?⟩
  rw [hcheck] at hiff
  cases rules? with
  | none =>
      refine ⟨(declarationDefects d).map Defect.diagnostic ++ findings, ?_, ?_⟩
      · -- clean rules do not stop the validation
        intro hnil
        have hclean := hiff.1 (List.append_eq_nil_iff.1 hnil).2
        rcases checkProductions_rules p.table d.productions hclean 0 with ⟨rules, hrules, _⟩
        rw [hcheck] at hrules
        cases hrules
      · simp [validate, hdeclare, hcheck, hp.found_eq, bind, Except.bind, pure, Except.pure]
  | some rules =>
      let new := (declarationDefects d).map Defect.diagnostic ++ findings ++
        (startRuleDefects d).map Defect.diagnostic
      -- without findings of any phase the description would be well-formed
      have hsome : new ≠ [] := by
        intro hnil
        simp only [new, List.append_eq_nil_iff, List.map_eq_nil_iff] at hnil
        exact h (hlists.wellFormed_iff.2 ⟨hnil.1.1, hiff.1 hnil.1.2, hnil.2⟩)
      have hall : p.found ++ findings ++ (startRuleDefects d).map Defect.diagnostic =
          found ++ new := by
        simp [new, hp.found_eq]
      have hlength : (found ++ new).length ≠ found.length := by simp [hsome]
      refine ⟨new, hsome, ?_⟩
      simp only [validate, hdeclare, hcheck, hall, bind, Except.bind, pure, Except.pure,
        if_neg hlength]
      simp

/-- `validate` accepts `d` exactly if `d.WellFormed`, and otherwise it rejects `d` with at least one
finding, whatever was `found` before. -/
theorem validate_decides_wellFormed (found : Diagnostics) (d : Description) :
    (d.WellFormed ↔ ∃ all g, validate found d = .ok (all, .accepted g)) ∧
      (¬d.WellFormed ↔ ∃ all n, 1 ≤ n ∧ validate found d = .ok (all, .rejected n)) := by
  have haccepted : d.WellFormed → ∃ all g, validate found d = .ok (all, .accepted g) := by
    intro h
    rcases validate_wellFormed found h with ⟨g, hg, _⟩
    exact ⟨found, g, hg⟩
  have hrejected : ¬d.WellFormed →
      ∃ all n, 1 ≤ n ∧ validate found d = .ok (all, .rejected n) := by
    intro h
    rcases validate_not_wellFormed found h with ⟨new, hnew, hnew'⟩
    exact ⟨found ++ new, new.length, List.length_pos_iff.2 hnew, hnew'⟩
  -- no result is both a grammar and a number of findings
  have hexclusive : ∀ {all all' g n}, validate found d = .ok (all, .accepted g) →
      validate found d ≠ .ok (all', .rejected n) := by
    intro all all' g n h h'
    rw [h] at h'
    cases h'
  refine ⟨⟨haccepted, ?_⟩, ⟨hrejected, ?_⟩⟩
  · rintro ⟨all, g, hg⟩
    by_contra h
    rcases hrejected h with ⟨all', n, _, hn⟩
    exact hexclusive hg hn
  · rintro ⟨all, n, _, hn⟩ h
    rcases haccepted h with ⟨all', g, hg⟩
    exact hexclusive hg hn

/-- If `validate` accepts `d` as `g`, then nothing is added to `found`, `d` is well-formed and `g`
represents it. -/
theorem represents_of_accepted {all : Diagnostics}
    (h : validate found d = .ok (all, .accepted g)) :
    all = found ∧ d.WellFormed ∧ g.Represents d := by
  by_cases hd : d.WellFormed
  · rcases validate_wellFormed found hd with ⟨g', hg', hrepresents⟩
    rw [hg'] at h
    cases h
    exact ⟨rfl, hd, hrepresents⟩
  · rcases validate_not_wellFormed found hd with ⟨new, _, hnew⟩
    rw [hnew] at h
    cases h

theorem wellFormed_of_accepted {all : Diagnostics}
    (h : validate found d = .ok (all, .accepted g)) : g.WellFormed := by
  rcases represents_of_accepted h with ⟨_, hd, hg⟩
  exact hg.wellFormed hd

end Lookahead
