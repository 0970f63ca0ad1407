import Lookahead.Description.WellFormed
import Lookahead.Proofs.Validation.Declarations
import Lookahead.Proofs.Validation.Rules
import Mathlib.Data.List.Induction

/-!
# WellFormed — descriptions in which no phase finds a defect

- `Validation.declarationDefects_eq_nil_iff`, `startRuleDefects_eq_nil_iff`: the phases before and
  behind the rules.
- `Validation.Lists`: a table that holds what a description declares.
- `Validation.Lists.declarations_eq`: its declarations in the order of their ids.
- `Validation.Lists.clean_iff`: the rules, for such a table.
- `Validation.Lists.wellFormed_iff`: a description is well-formed exactly if no phase has a defect.
-/

namespace Lookahead

variable {found : Diagnostics} {d : Description} {name : String}

theorem isReservedName_eq_false_iff :
    isReservedName name = false ↔ name ≠ emptyName ∧ name ≠ endName := by
  simp [isReservedName, isEmptyName]

namespace Validation

/-! ## Defects and well-formedness -/

theorem declarationDefects_eq_nil_iff :
    declarationDefects d = [] ↔
      (∀ name ∈ d.start :: d.terminals ++ d.nonTerminals, isReservedName name = false) ∧
        ∀ name ∈ d.terminals, ¬d.DeclaresNonTerminal name := by
  simp only [declarationDefects, List.append_eq_nil_iff, List.filterMap_eq_nil_iff,
    Option.toList_eq_nil_iff, refusal?_eq_none_iff]
  -- a clash is found at the later of its two names, in either list or at the start symbol
  constructor
  · rintro ⟨⟨hterminals, hnonTerminals⟩, hstart⟩
    constructor
    · intro name hname
      rcases List.mem_append.1 hname with hname | hname
      · rcases List.mem_cons.1 hname with rfl | hname
        · exact hstart.1
        · exact (hterminals name hname).1
      · exact (hnonTerminals name hname).1
    · rintro name hname (hlisted | rfl)
      · exact (hnonTerminals name hlisted).2 hname
      · exact hstart.2 hname
  · rintro ⟨hunreserved, hdisjoint⟩
    refine ⟨⟨?_, ?_⟩, ?_⟩
    · intro name hname
      exact ⟨hunreserved name (by simp [hname]), by simp⟩
    · intro name hname
      exact ⟨hunreserved name (by simp [hname]), fun h => hdisjoint name h (Or.inl hname)⟩
    · exact ⟨hunreserved d.start (by simp), fun h => hdisjoint d.start h (Or.inr rfl)⟩

theorem startRuleDefects_eq_nil_iff :
    startRuleDefects d = [] ↔ ∃ q ∈ d.productions, q.head = d.start := by
  simp [startRuleDefects]

theorem isEmptyAlternate_iff {alternate : List String} :
    isEmptyAlternate alternate = true ↔ alternate = [] ∨ alternate = [emptyName] := by
  simp [isEmptyAlternate]

theorem alternateEntries_eq_empty_iff {t : SymbolTable} {p : Production} :
    alternateEntries t p = [.empty] ↔ p.alternate = [] ∨ p.alternate = [emptyName] := by
  rw [← isEmptyAlternate_iff]
  cases hempty : isEmptyAlternate p.alternate with
  | true => simp [alternateEntries, hempty]
  | false =>
      have hsymbol : Entry.empty ∉ alternateEntries t p := by
        simp [alternateEntries, hempty]
      simp only [Bool.false_eq_true, iff_false]
      intro heq
      exact hsymbol (heq ▸ List.mem_singleton_self _)

/-! ## The table -/

section EraseDups

variable {α β : Type} [DecidableEq α] [DecidableEq β]

theorem eraseDups_map {f : α → β} (hf : Function.Injective f) (l : List α) :
    (l.map f).eraseDups = l.eraseDups.map f := by
  -- by the last element, since a repeat is known by what stands before it
  induction l using List.reverseRecOn with
  | nil => simp
  | append_singleton l a ih =>
      have hmem : f a ∈ l.map f ↔ a ∈ l := List.mem_map_of_injective hf
      rw [List.map_append, List.map_singleton, eraseDups_concat, eraseDups_concat, ih]
      by_cases ha : a ∈ l
      · simp [ha, hmem]
      · simp [ha, hmem]

theorem eraseDups_append_of_disjoint {l m : List α} (h : ∀ a ∈ m, a ∉ l) :
    (l ++ m).eraseDups = l.eraseDups ++ m.eraseDups := by
  have hkept : m.removeAll l = m := by
    simpa [List.removeAll] using h
  rw [List.eraseDups_append, hkept]

theorem nodup_eraseDups (l : List α) : l.eraseDups.Nodup := by
  induction l using List.reverseRecOn with
  | nil => simp
  | append_singleton l a ih =>
      rw [eraseDups_concat]
      split
      · exact ih
      · next ha =>
        refine List.nodup_append.2 ⟨ih, List.nodup_singleton a, ?_⟩
        intro b hb c hc hbc
        rw [List.mem_singleton.1 hc] at hbc
        exact ha (List.mem_eraseDups.1 (hbc ▸ hb))

theorem eraseDups_of_nodup {l : List α} (h : l.Nodup) : l.eraseDups = l := by
  induction l using List.reverseRecOn with
  | nil => simp
  | append_singleton l a ih =>
      rcases List.nodup_append.1 h with ⟨hl, _, hlast⟩
      have ha : a ∉ l := fun ha => hlast a ha a (List.mem_singleton_self a) rfl
      rw [eraseDups_concat, if_neg ha, ih hl]

end EraseDups

/-- `t` has the names of `d` as `declare` leaves them. -/
def Lists (t : SymbolTable) (d : Description) : Prop :=
  t.declarations = (requests d.terminals (d.nonTerminals ++ [d.start])).eraseDups

namespace Lists

variable {t : SymbolTable}

theorem mem_declarations (ht : Lists t d) {e : Declaration} :
    e ∈ t.declarations ↔ e ∈ requests d.terminals (d.nonTerminals ++ [d.start]) := by
  unfold Lists at ht
  simp [ht]

/-- If no declaration is refused, the terminals in `t` are exactly `d.terminals`. -/
theorem terminal_iff (ht : Lists t d) (hclean : declarationDefects d = []) :
    ⟨name, .terminal⟩ ∈ t.declarations ↔ name ∈ d.terminals := by
  have hunreserved := (declarationDefects_eq_nil_iff.1 hclean).1
  rw [ht.mem_declarations, terminal_mem_requests]
  exact ⟨And.left, fun h => ⟨h, hunreserved name (by simp [h])⟩⟩

/-- If no declaration is refused, the non-terminals in `t` are exactly those of `d`, with the start
symbol even if it is not listed. -/
theorem nonTerminal_iff (ht : Lists t d) (hclean : declarationDefects d = []) :
    ⟨name, .nonTerminal⟩ ∈ t.declarations ↔ d.DeclaresNonTerminal name := by
  rcases declarationDefects_eq_nil_iff.1 hclean with ⟨hunreserved, hdisjoint⟩
  have hlisted : name ∈ d.nonTerminals ++ [d.start] ↔ d.DeclaresNonTerminal name := by
    simp [Description.DeclaresNonTerminal]
  rw [ht.mem_declarations, nonTerminal_mem_requests, hlisted]
  refine ⟨And.left, fun h => ⟨h, ?_, fun hterminal => hdisjoint name hterminal h⟩⟩
  rcases h with h | rfl
  · exact hunreserved name (by simp [h])
  · exact hunreserved d.start (by simp)

/-- If no declaration is refused, `t` has the terminals, the non-terminals and the start symbol of
`d` in this order, without repeats. -/
theorem declarations_eq (ht : Lists t d)
    (hclean : declarationDefects d = []) :
    t.declarations =
      d.terminals.eraseDups.map (⟨·, .terminal⟩) ++
        (d.nonTerminals ++ [d.start]).eraseDups.map (⟨·, .nonTerminal⟩) := by
  rcases declarationDefects_eq_nil_iff.1 hclean with ⟨hunreserved, hdisjoint⟩
  have hterminals : d.terminals.filter (fun n => !isReservedName n) = d.terminals := by
    refine List.filter_eq_self.2 fun n hn => ?_
    simp [hunreserved n (by simp [hn])]
  have hnonTerminals : (d.nonTerminals ++ [d.start]).filter
      (fun n => !isReservedName n && !d.terminals.contains n) = d.nonTerminals ++ [d.start] := by
    refine List.filter_eq_self.2 fun n hn => ?_
    have hlisted : d.DeclaresNonTerminal n := by
      simpa [Description.DeclaresNonTerminal] using hn
    have hapart : n ∉ d.terminals := fun hterminal => hdisjoint n hterminal hlisted
    have hname : isReservedName n = false := by
      rcases hlisted with h | rfl
      · exact hunreserved n (by simp [h])
      · exact hunreserved d.start (by simp)
    simp [hname, hapart]
  have hinjective (cls : SymbolClass) : Function.Injective (Declaration.mk · cls) := by
    intro n m h
    exact ((Declaration.mk.injEq ..).mp h).1
  -- the two parts differ in their class
  have happend := eraseDups_append_of_disjoint (l := d.terminals.map (Declaration.mk · .terminal))
    (m := (d.nonTerminals ++ [d.start]).map (Declaration.mk · .nonTerminal)) <| by
      intro e he he'
      rcases List.mem_map.1 he with ⟨n, _, rfl⟩
      rcases List.mem_map.1 he' with ⟨m, _, hm⟩
      cases hm
  unfold Lists at ht
  rw [ht, requests, hterminals, hnonTerminals, happend, eraseDups_map (hinjective .terminal),
    eraseDups_map (hinjective .nonTerminal)]

theorem mem_names_iff (ht : Lists t d) (hclean : declarationDefects d = []) :
    name ∈ t.names ↔ d.Declares name := by
  rw [SymbolTable.mem_names_iff]
  constructor
  · rintro ⟨cls, h⟩
    cases cls with
    | terminal => exact Or.inl ((ht.terminal_iff hclean).1 h)
    | nonTerminal => exact Or.inr ((ht.nonTerminal_iff hclean).1 h)
    | empty => exact absurd rfl (t.declarable _ h)
  · rintro (h | h)
    · exact ⟨.terminal, (ht.terminal_iff hclean).2 h⟩
    · exact ⟨.nonTerminal, (ht.nonTerminal_iff hclean).2 h⟩

theorem clean_iff (ht : Lists t d) (hclean : declarationDefects d = []) {q : Production} :
    Clean t q ↔ d.DeclaresNonTerminal q.head ∧
      (q.alternate = [] ∨ q.alternate = [emptyName] ∨ ∀ n ∈ q.alternate, d.Declares n) := by
  have hreserved : ∀ n, d.Declares n → isReservedName n = false := by
    intro n h
    refine (declarationDefects_eq_nil_iff.1 hclean).1 n ?_
    rcases h with h | h | rfl
    · simp [h]
    · simp [h]
    · simp
  -- declared names are not reserved, so the marker never stands among them
  have hmarker : ∀ n, d.Declares n → isEmptyName n = false := by
    intro n h
    have hboth := hreserved n h
    simp only [isReservedName, Bool.or_eq_false_iff] at hboth
    exact hboth.1
  constructor
  · intro h
    refine ⟨(ht.nonTerminal_iff hclean).1 h.head, ?_⟩
    rcases h.alternate with hempty | hnames
    · rcases isEmptyAlternate_iff.1 hempty with hnil | hsingle
      · exact Or.inl hnil
      · exact Or.inr (Or.inl hsingle)
    · exact Or.inr (Or.inr fun n hn => (ht.mem_names_iff hclean).1 (hnames n hn).2)
  · rintro ⟨hhead, halternate⟩
    refine ⟨hreserved q.head (Or.inr hhead), (ht.nonTerminal_iff hclean).2 hhead, ?_⟩
    rcases halternate with hnil | hsingle | hnames
    · exact Or.inl (isEmptyAlternate_iff.2 (Or.inl hnil))
    · exact Or.inl (isEmptyAlternate_iff.2 (Or.inr hsingle))
    · refine Or.inr fun n hn => ⟨hmarker n (hnames n hn), ?_⟩
      exact (ht.mem_names_iff hclean).2 (hnames n hn)

theorem wellFormed_iff (ht : Lists t d) :
    d.WellFormed ↔ declarationDefects d = [] ∧ (∀ q ∈ d.productions, Clean t q) ∧
      startRuleDefects d = [] := by
  constructor
  · intro h
    have hclean : declarationDefects d = [] := by
      refine declarationDefects_eq_nil_iff.2 ⟨?_, h.disjoint⟩
      exact fun name hname => isReservedName_eq_false_iff.2 (h.unreserved name hname)
    refine ⟨hclean, ?_, startRuleDefects_eq_nil_iff.2 h.startRule⟩
    exact fun q hq => (ht.clean_iff hclean).2 ⟨h.heads q hq, h.alternates q hq⟩
  · rintro ⟨hclean, hrules, hstart⟩
    have hdeclarations := declarationDefects_eq_nil_iff.1 hclean
    exact {
      unreserved := fun name hname => isReservedName_eq_false_iff.1 (hdeclarations.1 name hname)
      disjoint := hdeclarations.2
      heads := fun q hq => ((ht.clean_iff hclean).1 (hrules q hq)).1
      alternates := fun q hq => ((ht.clean_iff hclean).1 (hrules q hq)).2
      startRule := startRuleDefects_eq_nil_iff.1 hstart }

end Lists
end Validation
end Lookahead
