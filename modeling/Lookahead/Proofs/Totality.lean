import Lookahead.CommandLine
import Lookahead.Proofs.Naming
import Lookahead.Proofs.Validation.Canonical

/-!
# Totality — nothing fails behind the validator

The validator gives a verdict on every description, and on the grammar of an accepted one every
computation gives a value: all lookups by number are of declared symbols.

- `Grammar.Total`: all computations on a grammar, and all texts that are made of it.
- `SymbolTable.summary_eq`: the text of a table, by the ids of its symbols.
- `validate_total`: the verdict, and the totality of an accepted grammar.
-/

namespace Lookahead

open Validation

variable {found all : Diagnostics} {d : Description} {g : Grammar} {a : Analysis}

/-! ## Texts -/

/-- `t.summary` lists the names of the terminals and the names of the non-terminals, each in id
order, and `nameOf` finds all of them. -/
theorem SymbolTable.summary_eq (t : SymbolTable) :
    ∃ terminals nonTerminals, (inIdOrder (t.idsOfClass .terminal)).mapM t.nameOf = .ok terminals ∧
      (inIdOrder (t.idsOfClass .nonTerminal)).mapM t.nameOf = .ok nonTerminals ∧
      t.summary = "SymbolTable(terms=" ++ Text.quotedList terminals ++ ", nonterms=" ++
        Text.quotedList nonTerminals ++ ")" := by
  refine ⟨_, _, ?_, ?_, rfl⟩
  · rw [inIdOrder_idsOfClass, mapM_nameOf_idsOfClass]
  · rw [inIdOrder_idsOfClass, mapM_nameOf_idsOfClass]

theorem Grammar.Represents.exists_summary (hg : g.Represents d) :
    ∃ text, g.summary = .ok text := by
  have hstart : g.startName = .ok d.start := SymbolTable.nameOf_eq_ok hg.start
  exact ⟨_, bind_eq_ok_iff.2 ⟨d.start, hstart, rfl⟩⟩

theorem Grammar.Represents.exists_ruleText (hg : g.Represents d) (hd : d.WellFormed) {r : Rule}
    (hr : r ∈ g.rules) : ∃ text, g.ruleText r = .ok text := by
  have htexts := forall₂_of_mapM (hg.mapM_ruleText_eq hd)
  rcases exists_left_of_forall₂ htexts.flip hr with ⟨text, _, htext⟩
  exact ⟨text, htext⟩

/-! ## Grammars -/

structure Grammar.Total (g : Grammar) : Prop where
  sets : ∃ first passes, g.first = .ok (first, passes) ∧
    ∃ follow passes', g.follow first = .ok (follow, passes')
  analysis : ∃ a, g.analyze = .ok a ∧ ∃ first follow, a.firstByName = .ok first ∧
    a.followByName = .ok follow ∧ CommandLine.bothTables a =
      .ok (CommandLine.linesText [tableText "FIRST" first, "", tableText "FOLLOW" follow])
  namedSets : ∃ sets, g.namedSets = .ok sets
  rules : ∀ r ∈ g.rules, ∃ text, g.ruleText r = .ok text
  summary : ∃ text, g.summary = .ok text
  symbols : ∃ terminals nonTerminals,
    (inIdOrder (g.symbols.idsOfClass .terminal)).mapM g.symbols.nameOf = .ok terminals ∧
      (inIdOrder (g.symbols.idsOfClass .nonTerminal)).mapM g.symbols.nameOf = .ok nonTerminals ∧
      g.symbols.summary = "SymbolTable(terms=" ++ Text.quotedList terminals ++ ", nonterms=" ++
        Text.quotedList nonTerminals ++ ")"

theorem Analysis.bothTables_eq {first follow : NamedSets} (hfirst : a.firstByName = .ok first)
    (hfollow : a.followByName = .ok follow) :
    CommandLine.bothTables a =
      .ok (CommandLine.linesText [tableText "FIRST" first, "", tableText "FOLLOW" follow]) :=
  bind_eq_ok_iff.2 ⟨first, hfirst, bind_eq_ok_iff.2 ⟨follow, hfollow, rfl⟩⟩

theorem Grammar.Represents.total (hg : g.Represents d) (hd : d.WellFormed) : g.Total := by
  rcases (hg.wellFormed hd).exists_analysis with ⟨a, hanalyze, hsolves⟩
  rcases hsolves.exists_byName (hg.named hd) with ⟨first, follow, hfirst, hfollow, _, _⟩
  exact {
    sets := ⟨a.first, a.firstPasses, hsolves.first_eq, a.follow, a.followPasses, hsolves.follow_eq⟩
    analysis := ⟨a, hanalyze, first, follow, hfirst, hfollow, Analysis.bothTables_eq hfirst hfollow⟩
    namedSets := ⟨(first, follow), Analysis.namedSets_eq hanalyze hfirst hfollow⟩
    rules := fun _ hr => hg.exists_ruleText hd hr
    summary := hg.exists_summary
    symbols := g.symbols.summary_eq }

/-- `validate` never ends in a `Breach`, and an accepted `g` is `Total`: everything that computes
with it or shows it gives a result. -/
theorem validate_total (found : Diagnostics) (d : Description) :
    (∃ all verdict, validate found d = .ok (all, verdict)) ∧
      ∀ all g, validate found d = .ok (all, .accepted g) → g.Total := by
  constructor
  · by_cases hd : d.WellFormed
    · rcases validate_wellFormed found hd with ⟨g, hg, _⟩
      exact ⟨found, .accepted g, hg⟩
    · rcases validate_not_wellFormed found hd with ⟨new, _, hnew⟩
      exact ⟨found ++ new, .rejected new.length, hnew⟩
  · intro all g h
    rcases represents_of_accepted h with ⟨_, hd, hg⟩
    exact hg.total hd

theorem total_lookalikes :
    validate [] lookalikes = .ok ([], .accepted lookalikeGrammar) ∧ lookalikeGrammar.Total :=
  ⟨validate_lookalikes, (validate_total [] lookalikes).2 [] lookalikeGrammar validate_lookalikes⟩

end Lookahead
