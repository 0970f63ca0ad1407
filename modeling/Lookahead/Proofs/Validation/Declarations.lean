import Lookahead.Proofs.SymbolTable
import Lookahead.Validation

/-!
# Declarations — what the declaring phases leave behind

The table behind the three phases and the findings of them are functions of the lists of names.

- `Validation.requests`: the declarations that are asked for and not refused, in order.
- `Validation.refusal?`: the defect of a name that is refused.
- `Progress.Describes`: the state behind some names of both lists.
- `Progress.Describes.declareTerminal`, `declareNonTerminal`, `declareStart`: one name more.
- `Validation.declare_describes`: all three phases, which never fail.
-/

namespace Lookahead
namespace Validation

variable {terminals nonTerminals : List String} {name : String} {id : SymbolId}

/-! ## Requests and refusals -/

def requests (terminals nonTerminals : List String) : List Declaration :=
  (terminals.filter fun n => !isReservedName n).map (⟨·, .terminal⟩) ++
    (nonTerminals.filter fun n => !isReservedName n && !terminals.contains n).map
      (⟨·, .nonTerminal⟩)

theorem terminal_mem_requests :
    ⟨name, .terminal⟩ ∈ requests terminals nonTerminals ↔
      name ∈ terminals ∧ isReservedName name = false := by
  simp [requests]

theorem nonTerminal_mem_requests :
    ⟨name, .nonTerminal⟩ ∈ requests terminals nonTerminals ↔
      name ∈ nonTerminals ∧ isReservedName name = false ∧ name ∉ terminals := by
  simp [requests]

theorem requests_terminal :
    requests (terminals ++ [name]) [] =
      requests terminals [] ++ if isReservedName name then [] else [⟨name, .terminal⟩] := by
  cases h : isReservedName name with
  | false => simp [requests, h]
  | true => simp [requests, h]

theorem requests_nonTerminal :
    requests terminals (nonTerminals ++ [name]) =
      requests terminals nonTerminals ++
        if isReservedName name ∨ name ∈ terminals then [] else [⟨name, .nonTerminal⟩] := by
  cases h : isReservedName name with
  | false =>
      by_cases hname : name ∈ terminals
      · simp [requests, h, hname]
      · simp [requests, h, hname]
  | true => simp [requests, h]

/-- The defect of a name that is a terminal already: the start symbol has one of its own. -/
def conflict : Role → String → Defect
  | .startSymbol => .startSymbolConflict
  | _ => .conflictingDeclaration

/-- The defect of declaring `name` for `role`, if `terminals` are declared already. -/
def refusal? (role : Role) (terminals : List String) (name : String) : Option Defect :=
  if isReservedName name then some (.reservedDeclaration name role)
  else if name ∈ terminals then some (conflict role name)
  else none

theorem refusal?_eq_none_iff {role : Role} :
    refusal? role terminals name = none ↔ isReservedName name = false ∧ name ∉ terminals := by
  unfold refusal?
  split
  · next h => simp [h]
  · next h =>
    split
    · next h' => simp [h']
    · next h' => simp [h, h']

theorem eraseDups_concat {α : Type} [DecidableEq α] (l : List α) (a : α) :
    (l ++ [a]).eraseDups = if a ∈ l then l.eraseDups else l.eraseDups ++ [a] := by
  rw [List.eraseDups_append]
  by_cases h : a ∈ l
  · simp [List.removeAll, h]
  · simp [List.removeAll, List.eraseDups_cons, h]

theorem filterMap_cons_eq_toList_append {α β : Type} (f : α → Option β) (a : α) (l : List α) :
    (a :: l).filterMap f = (f a).toList ++ l.filterMap f := by
  cases h : f a with
  | none => simp [h]
  | some b => simp [h]

/-! ## The state behind some names -/

namespace Progress

/-- `p.terminals` and `p.nonTerminals` are the ids of the two classes in `p.table`, without
repeats. -/
structure Consistent (p : Progress) : Prop where
  mem_terminals : ∀ id, id ∈ p.terminals ↔ p.table.hasClass .terminal id = true
  mem_nonTerminals : ∀ id, id ∈ p.nonTerminals ↔ p.table.hasClass .nonTerminal id = true
  terminals_nodup : p.terminals.Nodup
  nonTerminals_nodup : p.nonTerminals.Nodup

/-- `p` is the consistent state behind the findings `found` after these names were taken: the
`defects` were reported, and the table has the `requests` without repeats. -/
structure Describes (p : Progress) (found : Diagnostics) (terminals nonTerminals : List String)
    (defects : List Defect) : Prop extends Consistent p where
  found_eq : p.found = found ++ defects.map Defect.diagnostic
  declarations_eq : p.table.declarations = (requests terminals nonTerminals).eraseDups

variable {p : Progress} {found : Diagnostics} {defects : List Defect} {table : SymbolTable}
variable {cls : SymbolClass}

@[simp]
theorem report_table (p : Progress) (d : Defect) : (p.report d).table = p.table :=
  rfl

theorem nodup_addId {ids : List SymbolId} (h : ids.Nodup) : (addId ids id).Nodup := by
  unfold addId
  split
  · exact h
  · next hid =>
    refine List.nodup_append.2 ⟨h, by simp, ?_⟩
    intro a ha b hb hab
    rw [List.mem_singleton.1 hb] at hab
    exact hid (hab ▸ ha)

theorem Consistent.addTerminal (hp : p.Consistent)
    (h : p.table.Gains table id ⟨name, .terminal⟩) :
    ({ p with table := table, terminals := addId p.terminals id } : Progress).Consistent where
  mem_terminals := by
    intro x
    simp [h.hasClass_iff, hp.mem_terminals]
  mem_nonTerminals := by
    intro x
    simp [h.hasClass_iff, hp.mem_nonTerminals]
  terminals_nodup := nodup_addId hp.terminals_nodup
  nonTerminals_nodup := hp.nonTerminals_nodup

theorem Consistent.addNonTerminal (hp : p.Consistent)
    (h : p.table.Gains table id ⟨name, .nonTerminal⟩) :
    ({ p with table := table, nonTerminals := addId p.nonTerminals id } : Progress).Consistent
    where
  mem_terminals := by
    intro x
    simp [h.hasClass_iff, hp.mem_terminals]
  mem_nonTerminals := by
    intro x
    simp [h.hasClass_iff, hp.mem_nonTerminals]
  terminals_nodup := hp.terminals_nodup
  nonTerminals_nodup := nodup_addId hp.nonTerminals_nodup

namespace Describes

theorem mem_declarations (hp : p.Describes found terminals nonTerminals defects)
    {d : Declaration} : d ∈ p.table.declarations ↔ d ∈ requests terminals nonTerminals := by
  simp [hp.declarations_eq]

theorem at?_ne (hp : p.Describes found terminals nonTerminals defects)
    (h : ⟨name, cls⟩ ∉ requests terminals nonTerminals) (id : SymbolId) :
    p.table.at? id ≠ some ⟨name, cls⟩ := by
  intro hid
  exact h (hp.mem_declarations.1 (SymbolTable.exists_at?_iff.1 ⟨id, hid⟩))

/-- The state with an empty table describes no names and no defects. -/
theorem initial (htable : p.table = {}) (hterminals : p.terminals = [])
    (hnonTerminals : p.nonTerminals = []) : p.Describes p.found [] [] [] where
  mem_terminals := by simp [hterminals, htable, SymbolTable.hasClass_iff]
  mem_nonTerminals := by simp [hnonTerminals, htable, SymbolTable.hasClass_iff]
  terminals_nodup := by simp [hterminals]
  nonTerminals_nodup := by simp [hnonTerminals]
  found_eq := by simp
  declarations_eq := by simp [htable, requests]

/-- `p.report d` adds `d` to the defects. The names may change as long as the `requests` do not. -/
theorem report (hp : p.Describes found terminals nonTerminals defects) {terminals' nonTerminals'}
    (h : requests terminals' nonTerminals' = requests terminals nonTerminals) (d : Defect) :
    (p.report d).Describes found terminals' nonTerminals' (defects ++ [d]) where
  mem_terminals := hp.mem_terminals
  mem_nonTerminals := hp.mem_nonTerminals
  terminals_nodup := hp.terminals_nodup
  nonTerminals_nodup := hp.nonTerminals_nodup
  found_eq := by simp [Progress.report, hp.found_eq]
  declarations_eq := by
    rw [h]
    exact hp.declarations_eq

theorem insert (hp : p.Describes found terminals nonTerminals defects) (hcls : cls ≠ .empty)
    (hother : ∀ existing, ⟨name, existing⟩ ∈ requests terminals nonTerminals → existing = cls) :
    ∃ id table, p.table.insert name cls = .ok (id, table) ∧
      p.table.Gains table id ⟨name, cls⟩ ∧
      table.declarations =
        (requests terminals nonTerminals ++ [(⟨name, cls⟩ : Declaration)]).eraseDups := by
  have hsame : ∀ existing, ⟨name, existing⟩ ∈ p.table.declarations → existing = cls :=
    fun existing h => hother existing (hp.mem_declarations.1 h)
  rcases SymbolTable.insert_total hcls hsame with ⟨id, table, hinsert, hgains, hdecls⟩
  refine ⟨id, table, hinsert, hgains, ?_⟩
  simp only [hdecls, eraseDups_concat, hp.mem_declarations]
  rw [hp.declarations_eq]

/-- `declareTerminal` takes one more terminal `name`, with its `refusal?` if there is one. -/
theorem declareTerminal (hp : p.Describes found terminals [] defects) (name : String) :
    ∃ p', p.declareTerminal name = .ok p' ∧
      p'.Describes found (terminals ++ [name]) []
        (defects ++ (refusal? .terminal [] name).toList) := by
  cases hname : isReservedName name with
  | true =>
      refine ⟨_, by simp only [Progress.declareTerminal, hname]; rfl, ?_⟩
      simpa [refusal?, hname] using
        hp.report (by simp [requests_terminal, hname]) (.reservedDeclaration name .terminal)
  | false =>
      -- terminals come first, so no name has another class yet
      have hother : ∀ existing, ⟨name, existing⟩ ∈ requests terminals [] →
          existing = .terminal := by
        intro existing h
        simp only [requests, List.filter_nil, List.map_nil, List.append_nil, List.mem_map] at h
        rcases h with ⟨_, _, heq⟩
        exact ((Declaration.mk.injEq ..).mp heq).2.symm
      rcases hp.insert (by decide) hother with ⟨id, table, hinsert, hgains, hdecls⟩
      refine ⟨_, by simp only [Progress.declareTerminal, hname, hinsert]; rfl, ?_⟩
      exact {
        toConsistent := hp.toConsistent.addTerminal hgains
        found_eq := by simp [refusal?, hname, hp.found_eq]
        declarations_eq := by simp [requests_terminal, hname, hdecls] }

/-- Inserting a terminal as a non-terminal is refused as a `duplicate`. -/
theorem insert_terminal (hp : p.Describes found terminals nonTerminals defects)
    (hname : isReservedName name = false) (hmem : name ∈ terminals) :
    p.table.insert name .nonTerminal = .error (.duplicate name .terminal .nonTerminal) := by
  have hterminal : ⟨name, .terminal⟩ ∈ p.table.declarations :=
    hp.mem_declarations.2 (terminal_mem_requests.2 ⟨hmem, hname⟩)
  exact SymbolTable.insert_conflict (by decide) (by decide) hterminal

/-- Inserting any other `name` as a non-terminal succeeds, and the state with its `id` describes one
more non-terminal. This serves listed non-terminals and the start symbol alike. -/
theorem insert_nonTerminal (hp : p.Describes found terminals nonTerminals defects)
    (hname : isReservedName name = false) (hmem : name ∉ terminals) :
    ∃ id table, p.table.insert name .nonTerminal = .ok (id, table) ∧
      table.at? id = some ⟨name, .nonTerminal⟩ ∧
      ({ p with table := table, nonTerminals := addId p.nonTerminals id } : Progress).Describes
        found terminals (nonTerminals ++ [name]) defects := by
  have hother : ∀ existing, ⟨name, existing⟩ ∈ requests terminals nonTerminals →
      existing = .nonTerminal := by
    intro existing h
    -- only a terminal could stand in the way, and the name is none
    cases existing with
    | nonTerminal => rfl
    | terminal => exact absurd (terminal_mem_requests.1 h).1 hmem
    | empty => simp [requests] at h
  rcases hp.insert (by decide) hother with ⟨id, table, hinsert, hgains, hdecls⟩
  refine ⟨id, table, hinsert, (hgains _ _).2 (Or.inr ⟨rfl, rfl⟩), ?_⟩
  exact {
    toConsistent := hp.toConsistent.addNonTerminal hgains
    found_eq := hp.found_eq
    declarations_eq := by simp [requests_nonTerminal, hname, hmem, hdecls] }

/-- `declareNonTerminal` takes one more non-terminal `name`, with its `refusal?` if there is one. -/
theorem declareNonTerminal (hp : p.Describes found terminals nonTerminals defects)
    (name : String) :
    ∃ p', p.declareNonTerminal name = .ok p' ∧
      p'.Describes found terminals (nonTerminals ++ [name])
        (defects ++ (refusal? .nonTerminal terminals name).toList) := by
  cases hname : isReservedName name with
  | true =>
      refine ⟨_, by simp only [Progress.declareNonTerminal, hname]; rfl, ?_⟩
      simpa [refusal?, hname] using
        hp.report (by simp [requests_nonTerminal, hname]) (.reservedDeclaration name .nonTerminal)
  | false =>
      -- the table refuses terminals and takes every other name
      by_cases hmem : name ∈ terminals
      · have hinsert := hp.insert_terminal hname hmem
        refine ⟨_, by simp only [Progress.declareNonTerminal, hname, hinsert]; rfl, ?_⟩
        simpa [refusal?, hname, hmem, conflict] using
          hp.report (by simp [requests_nonTerminal, hmem]) (.conflictingDeclaration name)
      · rcases hp.insert_nonTerminal hname hmem with ⟨id, table, hinsert, _, hp'⟩
        refine ⟨_, by simp only [Progress.declareNonTerminal, hname, hinsert]; rfl, ?_⟩
        simpa [refusal?, hname, hmem] using hp'

/-- `declareStart` takes `name` as one more non-terminal, with its `refusal?` if there is one. The
id is known exactly if `name` is in the table as a non-terminal. -/
theorem declareStart (hp : p.Describes found terminals nonTerminals defects) (name : String) :
    ∃ p' start?, p.declareStart name = .ok (p', start?) ∧
      p'.Describes found terminals (nonTerminals ++ [name])
        (defects ++ (refusal? .startSymbol terminals name).toList) ∧
      ∀ id, start? = some id ↔ p'.table.at? id = some ⟨name, .nonTerminal⟩ := by
  cases hname : isReservedName name with
  | true =>
      -- a reserved name is reported, so the table does not get it
      have habsent : ⟨name, .nonTerminal⟩ ∉ requests terminals nonTerminals := by
        simp [nonTerminal_mem_requests, hname]
      refine ⟨_, _, by simp only [Progress.declareStart, hname]; rfl, ?_, ?_⟩
      · simpa [refusal?, hname] using
          hp.report (by simp [requests_nonTerminal, hname]) (.reservedDeclaration name .startSymbol)
      · simpa using hp.at?_ne habsent
  | false =>
      by_cases hmem : name ∈ terminals
      · have hinsert := hp.insert_terminal hname hmem
        -- a terminal is reported and stays one
        have habsent : ⟨name, .nonTerminal⟩ ∉ requests terminals nonTerminals := by
          simp [nonTerminal_mem_requests, hmem]
        refine ⟨_, _, by simp only [Progress.declareStart, hname, hinsert]; rfl, ?_, ?_⟩
        · simpa [refusal?, hname, hmem, conflict] using
            hp.report (by simp [requests_nonTerminal, hmem]) (.startSymbolConflict name)
        · simpa using hp.at?_ne habsent
      · rcases hp.insert_nonTerminal hname hmem with ⟨id, table, hinsert, hid, hp'⟩
        refine ⟨_, _, by simp only [Progress.declareStart, hname, hinsert]; rfl, ?_, ?_⟩
        · simpa [refusal?, hname, hmem] using hp'
        · intro x
          constructor
          · rintro ⟨⟩
            exact hid
          · intro hx
            exact congrArg some (SymbolTable.at?_unique hid hx)

/-! ## Whole lists -/

/-- If a `step` takes one name and keeps `Inv` with one refusal at most, then `foldlM step` takes
all `names` and keeps `Inv` with all refusals in order. -/
theorem foldlM_of_step {step : Progress → String → Except Breach Progress}
    {refuse : String → Option Defect} {Inv : Progress → List String → List Defect → Prop}
    (hstep : ∀ p before defects, Inv p before defects → ∀ name,
      ∃ p', step p name = .ok p' ∧ Inv p' (before ++ [name]) (defects ++ (refuse name).toList))
    (names : List String) {before : List String} (hp : Inv p before defects) :
    ∃ p', names.foldlM step p = .ok p' ∧
      Inv p' (before ++ names) (defects ++ names.filterMap refuse) := by
  induction names generalizing p before defects with
  | nil => exact ⟨p, rfl, by simpa using hp⟩
  | cons name rest ih =>
      rcases hstep p before defects hp name with ⟨next, hfirst, hnext⟩
      rcases ih hnext with ⟨p', hrest, hp'⟩
      refine ⟨p', by simp [List.foldlM_cons, hfirst, hrest, bind, Except.bind], ?_⟩
      simpa [filterMap_cons_eq_toList_append] using hp'

theorem declareTerminals (hp : p.Describes found terminals [] defects) (names : List String) :
    ∃ p', names.foldlM Progress.declareTerminal p = .ok p' ∧
      p'.Describes found (terminals ++ names) []
        (defects ++ names.filterMap (refusal? .terminal [])) := by
  let Inv : Progress → List String → List Defect → Prop :=
    fun p before defects => p.Describes found before [] defects
  have hstep : ∀ p before defects, Inv p before defects → ∀ name, ∃ p',
      p.declareTerminal name = .ok p' ∧
        Inv p' (before ++ [name]) (defects ++ (refusal? .terminal [] name).toList) :=
    fun _ _ _ hq name => hq.declareTerminal name
  exact foldlM_of_step hstep names hp

theorem declareNonTerminals (hp : p.Describes found terminals nonTerminals defects)
    (names : List String) :
    ∃ p', names.foldlM Progress.declareNonTerminal p = .ok p' ∧
      p'.Describes found terminals (nonTerminals ++ names)
        (defects ++ names.filterMap (refusal? .nonTerminal terminals)) := by
  let Inv : Progress → List String → List Defect → Prop :=
    fun p before defects => p.Describes found terminals before defects
  have hstep : ∀ p before defects, Inv p before defects → ∀ name, ∃ p',
      p.declareNonTerminal name = .ok p' ∧
        Inv p' (before ++ [name]) (defects ++ (refusal? .nonTerminal terminals name).toList) :=
    fun _ _ _ hq name => hq.declareNonTerminal name
  exact foldlM_of_step hstep names hp

end Describes
end Progress

/-- The defects of the declarations in `d`, in the order in which they are reported. -/
def declarationDefects (d : Description) : List Defect :=
  d.terminals.filterMap (refusal? .terminal []) ++
    d.nonTerminals.filterMap (refusal? .nonTerminal d.terminals) ++
    (refusal? .startSymbol d.terminals d.start).toList

/-- `declare` never fails. It leads to a state that describes the names of `d` and
`declarationDefects d`. -/
theorem declare_describes (found : Diagnostics) (d : Description) :
    ∃ p start?, declare found d = .ok (p, start?) ∧
      p.Describes found d.terminals (d.nonTerminals ++ [d.start]) (declarationDefects d) ∧
      ∀ id, start? = some id ↔ p.table.at? id = some ⟨d.start, .nonTerminal⟩ := by
  have hinitial : ({ found := found } : Progress).Describes found [] [] [] :=
    Progress.Describes.initial rfl rfl rfl
  rcases hinitial.declareTerminals d.terminals with ⟨p₁, h₁, hp₁⟩
  rcases hp₁.declareNonTerminals d.nonTerminals with ⟨p₂, h₂, hp₂⟩
  rcases hp₂.declareStart d.start with ⟨p₃, start?, h₃, hp₃, hstart⟩
  refine ⟨p₃, start?, by simp [declare, h₁, h₂, h₃, bind, Except.bind], ?_, hstart⟩
  simpa [declarationDefects] using hp₃

end Validation
end Lookahead
