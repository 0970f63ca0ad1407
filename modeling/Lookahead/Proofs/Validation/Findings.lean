import Lookahead.Proofs.Validation.Canonical

/-!
# Findings — what the validator reports, in which order

All findings about a description are a function of the description alone, said in terms of names
and lists.

- `Description.Registers`, `Description.Stops`: the names that get an id, and the rules behind which
  nothing is checked.
- `Description.ruleDefects`: the defects of one rule.
- `Description.examined`: the rules up to the first that stops the validation, with their places.
- `Description.findings`: the findings of all phases.
- `Validation.Lists.checkProduction_stopped`, `Validation.Lists.checkProduction_continues`: one
  rule.
- `Validation.Lists.checkProductions_findings`: all rules.
- `validate_reports_findings`: the findings given at the outset with these behind them, and the
  verdict.
-/

namespace Lookahead

open Validation

variable {d : Description} {t : SymbolTable} {p : Production} {n : String} {index : Nat}

/-! ## Findings by name -/

namespace Description

/-- `name` is declared by `d` and not reserved. -/
def Registers (d : Description) (name : String) : Prop :=
  d.Declares name ∧ isReservedName name = false

/-- The head of `p` is neither reserved nor declared, so the validation stops at `p`. -/
def Stops (d : Description) (p : Production) : Prop :=
  isReservedName p.head = false ∧ ¬d.Declares p.head

instance (d : Description) (name : String) : Decidable (d.Registers name) :=
  inferInstanceAs (Decidable (_ ∧ _))

instance (d : Description) (p : Production) : Decidable (d.Stops p) :=
  inferInstanceAs (Decidable (_ ∧ _))

/-- The defects of `p` in order. A reserved or undeclared head is reported alone; otherwise each
occurrence of an unknown name is reported, and then an `emptyName` among others. -/
def ruleDefects (d : Description) (p : Production) : List Defect :=
  if p.head = emptyName then [.emptyAsRuleHead p.head]
  else if p.head = endName then [.endAsRuleHead p.head]
  else if d.Stops p then [.undeclaredRuleHead p.head]
  else
    (if p.head ∈ d.terminals then [.terminalUsedAsHead p.head] else []) ++
      (p.alternate.filter fun n => n ≠ emptyName ∧ ¬d.Registers n).map .undeclaredSymbol ++
      if emptyName ∈ p.alternate ∧ p.alternate ≠ [emptyName] then
        [.misplacedEmptySymbol p.head p.alternate]
      else []

/-- The productions from `index` on up to the first that stops the validation, which is included. -/
def examined (d : Description) (index : Nat) (ps : List Production) : List (Production × Nat) :=
  let goesOn (entry : Production × Nat) : Bool := decide ¬d.Stops entry.1
  (ps.zipIdx index).takeWhile goesOn ++ ((ps.zipIdx index).dropWhile goesOn).take 1

def ruleFindings (d : Description) (index : Nat) (ps : List Production) : Diagnostics :=
  (d.examined index ps).flatMap fun entry =>
    (d.ruleDefects entry.1).map fun x => x.diagnosticAt entry.2 entry.1.span

/-- The findings about `d` in order: its declarations, its rules and, unless the validation was
stopped, a start symbol without a rule. -/
def findings (d : Description) : Diagnostics :=
  (declarationDefects d).map Defect.diagnostic ++ d.ruleFindings 0 d.productions ++
    if ∃ p ∈ d.productions, d.Stops p ∨ p.head = d.start then []
    else [(Defect.startSymbolHasNoRule d.start).diagnostic]

theorem examined_cons (d : Description) (index : Nat) (p : Production) (ps : List Production) :
    d.examined index (p :: ps) =
      (p, index) :: if d.Stops p then [] else d.examined (index + 1) ps := by
  by_cases hp : d.Stops p
  · simp [examined, hp]
  · simp [examined, hp]

theorem ruleFindings_cons (d : Description) (index : Nat) (p : Production)
    (ps : List Production) :
    d.ruleFindings index (p :: ps) =
      (d.ruleDefects p).map (fun x => x.diagnosticAt index p.span) ++
        if d.Stops p then [] else d.ruleFindings (index + 1) ps := by
  simp only [ruleFindings, examined_cons]
  split
  · simp
  · simp

end Description

/-! ## The rules -/

namespace Validation
namespace Lists

theorem mem_names_iff_registers (ht : Lists t d) : n ∈ t.names ↔ d.Registers n := by
  rw [SymbolTable.mem_names_iff]
  constructor
  · rintro ⟨cls, h⟩
    have hmem := ht.mem_declarations.1 h
    cases cls with
    | terminal =>
        rcases terminal_mem_requests.1 hmem with ⟨hlisted, hname⟩
        exact ⟨Or.inl hlisted, hname⟩
    | nonTerminal =>
        rcases nonTerminal_mem_requests.1 hmem with ⟨hlisted, hname, _⟩
        exact ⟨Or.inr (by simpa using hlisted), hname⟩
    | empty => exact absurd rfl (t.declarable _ h)
  · rintro ⟨hdeclared, hname⟩
    -- a name of both classes is a terminal
    by_cases hterminal : n ∈ d.terminals
    · exact ⟨.terminal, ht.mem_declarations.2 (terminal_mem_requests.2 ⟨hterminal, hname⟩)⟩
    · have hlisted : n ∈ d.nonTerminals ++ [d.start] := by
        simpa using hdeclared.resolve_left hterminal
      exact ⟨.nonTerminal,
        ht.mem_declarations.2 (nonTerminal_mem_requests.2 ⟨hlisted, hname, hterminal⟩)⟩

theorem contains_eq (ht : Lists t d) (n : String) : t.contains n = decide (d.Registers n) := by
  rw [Bool.eq_iff_iff, SymbolTable.contains_iff, ht.mem_names_iff_registers, decide_eq_true_iff]

theorem alternateDefects_eq (ht : Lists t d) (p : Production) :
    alternateDefects t p =
      (p.alternate.filter fun n => n ≠ emptyName ∧ ¬d.Registers n).map .undeclaredSymbol ++
        if emptyName ∈ p.alternate ∧ p.alternate ≠ [emptyName] then
          [.misplacedEmptySymbol p.head p.alternate]
        else [] := by
  have hmarker : p.alternate.any isEmptyName = true ↔ emptyName ∈ p.alternate := by
    simp [isEmptyName]
  cases hempty : isEmptyAlternate p.alternate with
  | true =>
      -- neither form of an empty alternate has a defect
      rcases isEmptyAlternate_iff.1 hempty with hnil | hsingle
      · simp [alternateDefects, hnil, isEmptyAlternate]
      · simp [alternateDefects, hsingle, isEmptyAlternate]
  | false =>
      have hne : p.alternate ≠ [emptyName] := by
        intro hsingle
        simp [isEmptyAlternate, hsingle] at hempty
      simp [alternateDefects, hempty, hmarker, hne, ht.contains_eq, isEmptyName,
        beq_eq_decide]

theorem checkProduction_stopped (ht : Lists t d) (h : d.Stops p) (index : Nat) :
    checkProduction t index p = .stopped (d.ruleDefects p) := by
  have hmarker := isReservedName_eq_false_iff.1 h.1
  have hunknown : t.lookup? p.head = none := by
    rw [SymbolTable.lookup?_eq_none_iff, ht.mem_names_iff_registers]
    exact fun hregisters => h.2 hregisters.1
  simp [checkProduction, Description.ruleDefects, isEmptyName, hmarker, h.1, h, hunknown]

theorem checkProduction_continues (ht : Lists t d) (h : ¬d.Stops p) (index : Nat) :
    checkProduction t index p = .skipped (d.ruleDefects p) ∨
      ∃ r, checkProduction t index p = .kept (d.ruleDefects p) r := by
  by_cases hempty : p.head = emptyName
  · exact Or.inl (by simp [checkProduction, Description.ruleDefects, isEmptyName, hempty])
  by_cases hend : p.head = endName
  · have hreserved : isReservedName endName = true := by decide
    have hne : endName ≠ emptyName := by decide
    exact Or.inl
      (by simp [checkProduction, Description.ruleDefects, isEmptyName, hend, hne, hreserved])
  · have hname : isReservedName p.head = false := isReservedName_eq_false_iff.2 ⟨hempty, hend⟩
    have hdeclared : d.Declares p.head := by
      by_contra hnot
      exact h ⟨hname, hnot⟩
    have hmem : p.head ∈ t.names := ht.mem_names_iff_registers.2 ⟨hdeclared, hname⟩
    rcases SymbolTable.mem_names_iff.1 hmem with ⟨cls, hcls⟩
    rcases SymbolTable.exists_at?_iff.2 hcls with ⟨id, hid⟩
    have hlookup : t.lookup? p.head = some (id, cls) := SymbolTable.lookup?_eq_some_iff.2 hid
    -- the class of the head in the table says whether it is listed as a terminal
    have hterminal : cls = .terminal ↔ p.head ∈ d.terminals := by
      constructor
      · rintro rfl
        exact (terminal_mem_requests.1 (ht.mem_declarations.1 hcls)).1
      · intro hlisted
        have hother : ⟨p.head, .terminal⟩ ∈ t.declarations :=
          ht.mem_declarations.2 (terminal_mem_requests.2 ⟨hlisted, hname⟩)
        rcases SymbolTable.exists_at?_iff.2 hother with ⟨id', hid'⟩
        have hsame := (SymbolTable.at?_unique hid hid') ▸ hid
        exact ((Declaration.mk.injEq ..).mp (Option.some.inj (hsame.symm.trans hid'))).2
    refine Or.inr ⟨⟨id, alternateEntries t p, index⟩, ?_⟩
    simp [checkProduction, Description.ruleDefects, isEmptyName, hempty, hend, hname, hlookup, h,
      hterminal, ht.alternateDefects_eq]

theorem checkProductions_findings (ht : Lists t d) (ps : List Production) :
    ∀ index, (checkProductions t index ps).1 = d.ruleFindings index ps ∧
      ((checkProductions t index ps).2 = none ↔ ∃ p ∈ ps, d.Stops p) := by
  induction ps with
  | nil =>
      intro index
      simp [checkProductions, Description.ruleFindings, Description.examined]
  | cons p rest ih =>
      intro index
      rcases ih (index + 1) with ⟨hfindings, hstopped⟩
      by_cases hp : d.Stops p
      · simp [checkProductions, ht.checkProduction_stopped hp, Description.ruleFindings_cons, hp]
      · rcases ht.checkProduction_continues hp index with hcheck | ⟨r, hcheck⟩
        · simp [checkProductions, hcheck, Description.ruleFindings_cons, hp, hfindings, hstopped]
        · simp [checkProductions, hcheck, Description.ruleFindings_cons, hp, hfindings, hstopped]

end Lists
end Validation

/-! ## All phases -/

theorem Validation.startRuleDefects_eq (h : ∀ p ∈ d.productions, ¬d.Stops p) :
    (startRuleDefects d).map Defect.diagnostic =
      if ∃ p ∈ d.productions, d.Stops p ∨ p.head = d.start then []
      else [(Defect.startSymbolHasNoRule d.start).diagnostic] := by
  -- by `h`, only a rule of the start symbol can keep the report silent
  by_cases hstart : ∃ p ∈ d.productions, p.head = d.start
  · rcases hstart with ⟨p, hp, hhead⟩
    have hsilent : ∃ p ∈ d.productions, d.Stops p ∨ p.head = d.start := ⟨p, hp, Or.inr hhead⟩
    rw [startRuleDefects_eq_nil_iff.2 ⟨p, hp, hhead⟩, if_pos hsilent]
    rfl
  · have hsilent : ¬∃ p ∈ d.productions, d.Stops p ∨ p.head = d.start := by
      rintro ⟨p, hp, hstops | hhead⟩
      · exact h p hp hstops
      · exact hstart ⟨p, hp, hhead⟩
    have hany : d.productions.any (·.head == d.start) = false := by simpa using hstart
    rw [startRuleDefects, hany, if_neg hsilent]
    rfl

/-- `validate` puts `d.findings` behind `found`. -/
theorem findings_of_validate {found all : Diagnostics} {verdict : Verdict}
    (h : validate found d = .ok (all, verdict)) : all = found ++ d.findings := by
  rcases declare_describes found d with ⟨q, start?, hdeclare, hq, _⟩
  have hlists : Lists q.table d := hq.declarations_eq
  rcases hlists.checkProductions_findings d.productions 0 with ⟨hfindings, hstopped⟩
  rcases hcheck : checkProductions q.table 0 d.productions with ⟨ruleFindings, rules?⟩
  simp only [hcheck] at hfindings hstopped
  simp only [validate, hdeclare, hcheck, bind, Except.bind] at h
  cases rules? with
  | none =>
      rcases hstopped.1 rfl with ⟨p, hp, hstops⟩
      -- the validation has stopped, so the start symbol is not reported
      have hsilent : ∃ p ∈ d.productions, d.Stops p ∨ p.head = d.start := ⟨p, hp, Or.inl hstops⟩
      cases h
      simp [hq.found_eq, Description.findings, hfindings, hsilent]
  | some rules =>
      have hgoesOn : ∀ p ∈ d.productions, ¬d.Stops p := by simpa using hstopped
      have hall : q.found ++ ruleFindings ++ (startRuleDefects d).map Defect.diagnostic =
          found ++ d.findings := by
        simp [hq.found_eq, Description.findings, hfindings, startRuleDefects_eq hgoesOn]
      -- whatever the verdict is, the findings are these
      simp only [hall] at h
      split at h
      · split at h
        · cases h
        · cases h
          rfl
      · cases h
        rfl

/-- A terminal that is also listed as a non-terminal is the head of a rule, and nothing is looked at
behind the rule with an undeclared head. -/
example :
    let d : Description := ⟨"$", ["a"], ["a"],
      [⟨"EMPTY", ["x"], none⟩, ⟨"a", ["$", "EMPTY", "x", "EMPTY"], none⟩, ⟨"B", ["x"], none⟩,
        ⟨"a", ["x"], none⟩]⟩
    d.findings.map (fun x => (x.kind, x.name, x.ruleIndex)) =
      [(.conflictingDeclaration, some "a", none), (.reservedNameMisuse, some "$", none),
        (.emptyAsRuleHead, some "EMPTY", some 0), (.terminalUsedAsHead, some "a", some 1),
        (.undeclaredSymbol, some "$", some 1), (.undeclaredSymbol, some "x", some 1),
        (.misplacedEmptySymbol, some "a", some 1), (.undeclaredRuleHead, some "B", some 2)] := by
  decide

end Lookahead
