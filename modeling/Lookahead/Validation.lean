import Lookahead.Defect
import Lookahead.Grammar

/-!
# Validation — from a description to a grammar

The terminals are declared first, then the non-terminals, then the start symbol; after that the
rules are checked in order, and last that the start symbol has a rule. Every finding is added to
the findings given at the outset. Checking goes on behind a finding, unless a rule head is declared
nowhere: that ends it at once.

- `Progress`: the findings so far, the table, and the ids of the two classes.
- `Validation.checkProduction`: what one rule adds.
- `validate`: the findings with those of this description behind them, and the verdict.
- `Breach`: an inconsistency that the phases before rule out.
-/

namespace Lookahead

/-- What is said of a description: it is `accepted` as a grammar, or `rejected` with the number of
findings against it. -/
inductive Verdict
  | accepted (grammar : Grammar)
  | rejected (errors : Nat)

/-- An inconsistency inside the validator. No description leads to one. -/
inductive Breach
  | insertion (error : InsertError)
  | overlap
  | noStart
  deriving DecidableEq, Repr

def Breach.message : Breach → String
  | .insertion error => error.message
  | .overlap => "the terminals and the non-terminals are not disjoint"
  | .noStart => "the start symbol has no id"

namespace Validation

/-! ## Declarations -/

structure Progress where
  found : Diagnostics
  table : SymbolTable := {}
  terminals : List SymbolId := []
  nonTerminals : List SymbolId := []

namespace Progress

def report (p : Progress) (d : Defect) : Progress :=
  { p with found := p.found ++ [d.diagnostic] }

/-- `p` with `name` declared as a terminal. A reserved `name` is reported and not declared. -/
def declareTerminal (p : Progress) (name : String) : Except Breach Progress :=
  if isReservedName name then .ok (p.report (.reservedDeclaration name .terminal))
  else
    match p.table.insert name .terminal with
    | .ok (id, table) => .ok { p with table := table, terminals := addId p.terminals id }
    | .error e => .error (.insertion e)

/-- `p` with `name` declared as a non-terminal. A reserved `name` is reported and not declared, and
so is one that is a terminal. -/
def declareNonTerminal (p : Progress) (name : String) : Except Breach Progress :=
  if isReservedName name then .ok (p.report (.reservedDeclaration name .nonTerminal))
  else
    match p.table.insert name .nonTerminal with
    | .ok (id, table) => .ok { p with table := table, nonTerminals := addId p.nonTerminals id }
    | .error (.duplicate _ _ _) => .ok (p.report (.conflictingDeclaration name))
    | .error .notDeclarable => .error (.insertion .notDeclarable)

/-- `p` with the start symbol declared as a non-terminal, and its id. There is no id if `name` is
reported. -/
def declareStart (p : Progress) (name : String) : Except Breach (Progress × Option SymbolId) :=
  if isReservedName name then .ok (p.report (.reservedDeclaration name .startSymbol), none)
  else
    match p.table.insert name .nonTerminal with
    | .ok (id, table) =>
        .ok ({ p with table := table, nonTerminals := addId p.nonTerminals id }, some id)
    | .error (.duplicate _ _ _) => .ok (p.report (.startSymbolConflict name), none)
    | .error .notDeclarable => .error (.insertion .notDeclarable)

end Progress

/-! ## Rules -/

/-- What checking one rule leads to: it is `kept` by id, or `skipped`, or the checks are `stopped`,
each with the defects of the rule. -/
inductive RuleCheck
  | stopped (defects : List Defect)
  | skipped (defects : List Defect)
  | kept (defects : List Defect) (rule : Rule)
  deriving DecidableEq, Repr

/-- Whether `alternate` is that of an empty rule: it has no names, or `emptyName` alone. -/
def isEmptyAlternate (alternate : List String) : Bool :=
  alternate.isEmpty || alternate == [emptyName]

/-- The defects of the alternate of `p`: an `undeclaredSymbol` for each undeclared name where it
occurs, and then a `misplacedEmptySymbol` if `emptyName` stands among others. -/
def alternateDefects (t : SymbolTable) (p : Production) : List Defect :=
  if isEmptyAlternate p.alternate then []
  else
    (p.alternate.filter fun n => !isEmptyName n && !t.contains n).map Defect.undeclaredSymbol ++
      if p.alternate.any isEmptyName then [.misplacedEmptySymbol p.head p.alternate] else []

/-- The alternate of `p` by id, without the names that are reported. -/
def alternateEntries (t : SymbolTable) (p : Production) : List Entry :=
  if isEmptyAlternate p.alternate then [.empty]
  else
    p.alternate.filterMap fun n =>
      if isEmptyName n then none else (t.idOf? n).map Entry.symbol

/-- What `p` leads to as the rule `index`. A reserved head is skipped, an undeclared head stops
everything, and a terminal as the head is reported, but the alternate is checked all the same. -/
def checkProduction (t : SymbolTable) (index : Nat) (p : Production) : RuleCheck :=
  if isEmptyName p.head then .skipped [.emptyAsRuleHead p.head]
  else if isReservedName p.head then .skipped [.endAsRuleHead p.head]
  else
    match t.lookup? p.head with
    | none => .stopped [.undeclaredRuleHead p.head]
    | some (id, cls) =>
        .kept
          ((if cls = .terminal then [.terminalUsedAsHead p.head] else []) ++ alternateDefects t p)
          ⟨id, alternateEntries t p, index⟩

/-- The findings about the rules, of which the first has the number `index`, and the rules by id.
There are none if a head is undeclared. -/
def checkProductions (t : SymbolTable) (index : Nat) :
    List Production → Diagnostics × Option (List Rule)
  | [] => ([], some [])
  | p :: rest =>
      let report (defects : List Defect) : Diagnostics :=
        defects.map fun d => d.diagnosticAt index p.span
      match checkProduction t index p with
      | .stopped defects => (report defects, none)
      | .skipped defects =>
          let (more, rules) := checkProductions t (index + 1) rest
          (report defects ++ more, rules)
      | .kept defects rule =>
          let (more, rules) := checkProductions t (index + 1) rest
          (report defects ++ more, rules.map (rule :: ·))

/-! ## Verdict -/

/-- The `startSymbolHasNoRule` of `d`, if no production has `d.start` as its head. -/
def startRuleDefects (d : Description) : List Defect :=
  if d.productions.any (·.head == d.start) then [] else [.startSymbolHasNoRule d.start]

/-- The grammar that `p` and `rules` make up when nothing is reported. Its conditions are checked
once more. -/
def finish (p : Progress) (start : Option SymbolId) (rules : List Rule) :
    Except Breach Grammar :=
  if p.terminals.any p.nonTerminals.contains then .error .overlap
  else
    match start with
    | none => .error .noStart
    | some id => .ok ⟨p.table, p.terminals, p.nonTerminals, rules, id⟩

/-- The three phases that declare symbols: terminals, non-terminals and the start symbol. -/
def declare (found : Diagnostics) (d : Description) :
    Except Breach (Progress × Option SymbolId) := do
  let p ← d.terminals.foldlM Progress.declareTerminal { found := found }
  let p ← d.nonTerminals.foldlM Progress.declareNonTerminal p
  p.declareStart d.start

end Validation

open Validation in
/-- The findings so far with those about `d` behind them, and the verdict, which counts only the
latter. -/
def validate (found : Diagnostics) (d : Description) : Except Breach (Diagnostics × Verdict) := do
  let (p, start) ← declare found d
  let (ruleFindings, rules?) := checkProductions p.table 0 d.productions
  match rules? with
  | none =>
      let all := p.found ++ ruleFindings
      return (all, .rejected (all.length - found.length))
  | some rules =>
      let all := p.found ++ ruleFindings ++ (startRuleDefects d).map Defect.diagnostic
      if all.length = found.length then
        let grammar ← finish p start rules
        return (all, .accepted grammar)
      else return (all, .rejected (all.length - found.length))

end Lookahead
