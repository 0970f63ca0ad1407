import Lookahead.Proofs.Validation.Acceptance
import Lookahead.Proofs.Validation.IdOrder

/-!
# Faithful — an accepted grammar says what its description says

- `Grammar.Translates`: a rule by number that says what a rule by name says.
- `Grammar.Faithful`: the whole grammar beside its description.
- `faithful_of_accepted`: what the validator returns is faithful.
-/

namespace Lookahead

open Validation

variable {found all : Diagnostics} {d : Description} {g : Grammar}

/-! ## Grammars and rules -/

namespace Grammar

/-- `r` is `p` by id: the `index`, the head, and either `[.empty]` or the ids of the names in the
alternate. -/
structure Translates (g : Grammar) (p : Production) (index : Nat) (r : Rule) : Prop where
  index_eq : r.index = index
  head_mem : r.head ∈ g.nonTerminals
  head_name : g.symbols.nameOf r.head = .ok p.head
  empty_iff : r.alternate = [.empty] ↔ p.alternate = [] ∨ p.alternate = [emptyName]
  symbols : r.alternate ≠ [.empty] →
    ∃ ids : List SymbolId, ids ≠ [] ∧ r.alternate = ids.map .symbol ∧
      (∀ id ∈ ids, g.Declares id) ∧ ids.mapM g.symbols.nameOf = .ok p.alternate

/-- `g` has the names of `d` in the order of declaration and without repeats, its ids are shared out
between two disjoint classes, and its start symbol and rules are those of `d` by id. -/
structure Faithful (g : Grammar) (d : Description) : Prop where
  names : g.symbols.names =
    d.terminals.eraseDups ++ d.nonTerminals.eraseDups ++
      if d.start ∈ d.nonTerminals then [] else [d.start]
  disjoint : ∀ id ∈ g.terminals, id ∉ g.nonTerminals
  declares_iff : ∀ id, g.Declares id ↔ 0 ≤ id ∧ id < g.symbols.size
  terminals : g.terminals = g.symbols.idsOfClass .terminal
  nonTerminals : g.nonTerminals = g.symbols.idsOfClass .nonTerminal
  start_id : g.symbols.idOf d.start = .ok g.start
  start_mem : g.start ∈ g.nonTerminals
  start_rule : ∃ r ∈ g.rules, r.head = g.start
  rules : List.Forall₂ (fun entry r => g.Translates entry.1 entry.2 r) d.productions.zipIdx g.rules

namespace Represents

theorem translates {p : Production} {index : Nat} {r : Rule} (hg : g.Represents d)
    (hp : Clean g.symbols p) (h : Renders g.symbols p index r) : g.Translates p index r where
  index_eq := h.index
  head_mem := hg.nonTerminal_of_at? h.head
  head_name := SymbolTable.nameOf_eq_ok h.head
  empty_iff := by
    rw [h.alternate]
    exact alternateEntries_eq_empty_iff
  symbols := by
    intro hne
    rcases hp.entries with hempty | ⟨ids, hsome, hids, hall⟩
    · exact absurd (h.alternate.trans hempty) hne
    · refine ⟨ids, hsome, h.alternate.trans hids, ?_, ?_⟩
      · intro id hid
        rcases exists_left_of_forall₂ hall hid with ⟨n, _, cls, hcls⟩
        exact hg.declares_of_at? hcls
      · exact SymbolTable.mapM_nameOf hall

theorem faithful (hg : g.Represents d) (hd : d.WellFormed) (horder : g.InOrder) :
    g.Faithful d := by
  have hwellFormed : g.WellFormed := hg.wellFormed hd
  have hclean := (hg.symbols.wellFormed_iff.1 hd).1
  exact {
    names := by
      simp only [SymbolTable.names, hg.symbols.declarations_eq hclean, eraseDups_concat]
      split
      · simp [Function.comp_def]
      · simp [Function.comp_def]
    disjoint := hwellFormed.disjoint
    declares_iff := by
      intro id
      constructor
      · rintro (hid | hid)
        · exact SymbolTable.lt_size_of_hasClass ((hg.mem_terminals id).1 hid)
        · exact SymbolTable.lt_size_of_hasClass ((hg.mem_nonTerminals id).1 hid)
      · rintro ⟨hpos, hlt⟩
        rcases Int.eq_ofNat_of_zero_le hpos with ⟨n, rfl⟩
        have hn : n < g.symbols.declarations.length := Int.ofNat_lt.1 hlt
        exact hg.declares_of_at? (List.getElem?_eq_getElem hn)
    terminals := horder.terminals_eq
    nonTerminals := horder.nonTerminals_eq
    start_id := by simp [SymbolTable.idOf, SymbolTable.idOf?_of_at? hg.start]
    start_mem := hg.nonTerminal_of_at? hg.start
    start_rule := hwellFormed.startRule
    rules := (hg.clean_rules hd).imp fun _ _ h => hg.translates h.1 h.2 }

end Represents
end Grammar

theorem faithful_of_accepted (h : validate found d = .ok (all, .accepted g)) : g.Faithful d := by
  rcases represents_of_accepted h with ⟨_, hd, hg⟩
  exact hg.faithful hd (inOrder_of_accepted h)

/-- A description with names listed twice and in between, an unlisted start symbol and an alternate
without names. -/
def repeated : Description where
  start := "S"
  terminals := ["b", "a", "b"]
  nonTerminals := ["A", "B", "A"]
  productions := [⟨"B", [], none⟩, ⟨"S", ["a", "S", "B"], none⟩, ⟨"S", ["EMPTY"], none⟩]

def repeatedGrammar : Grammar where
  symbols :=
    ⟨[⟨"b", .terminal⟩, ⟨"a", .terminal⟩, ⟨"A", .nonTerminal⟩, ⟨"B", .nonTerminal⟩,
      ⟨"S", .nonTerminal⟩], by decide, by decide⟩
  terminals := [0, 1]
  nonTerminals := [2, 3, 4]
  rules := [⟨3, [.empty], 0⟩, ⟨4, [.symbol 1, .symbol 4, .symbol 3], 1⟩, ⟨4, [.empty], 2⟩]
  start := 4

theorem faithful_repeated :
    validate [] repeated = .ok ([], .accepted repeatedGrammar) ∧
      repeatedGrammar.Faithful repeated := by
  have haccepted : validate [] repeated = .ok ([], .accepted repeatedGrammar) := rfl
  exact ⟨haccepted, faithful_of_accepted haccepted⟩

end Lookahead
