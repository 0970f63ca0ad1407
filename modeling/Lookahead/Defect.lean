import Lookahead.Diagnostic
import Lookahead.Symbol

/-!
# Defect — what can be wrong with a description

- `Defect`: the causes for which a description is refused, with the names concerned.
- `Defect.diagnostic`: the finding that reports a cause, with the rule where it lies, if any.
-/

namespace Lookahead

/-- What a name is declared as, in messages. -/
inductive Role
  | terminal
  | nonTerminal
  | startSymbol
  deriving DecidableEq, Repr

def Role.text : Role → String
  | .terminal => "terminal"
  | .nonTerminal => "non-terminal"
  | .startSymbol => "start symbol"

inductive Defect
  | reservedDeclaration (name : String) (role : Role)
  | conflictingDeclaration (name : String)
  | startSymbolConflict (name : String)
  | emptyAsRuleHead (head : String)
  | endAsRuleHead (head : String)
  | undeclaredRuleHead (head : String)
  | terminalUsedAsHead (head : String)
  | undeclaredSymbol (name : String)
  | misplacedEmptySymbol (head : String) (alternate : List String)
  | startSymbolHasNoRule (start : String)
  deriving DecidableEq, Repr

namespace Defect

def kind : Defect → DiagnosticKind
  | .reservedDeclaration _ _ => .reservedNameMisuse
  | .conflictingDeclaration _ => .conflictingDeclaration
  | .startSymbolConflict _ => .startSymbolConflict
  | .emptyAsRuleHead _ => .emptyAsRuleHead
  | .endAsRuleHead _ => .reservedNameMisuse
  | .undeclaredRuleHead _ => .undeclaredRuleHead
  | .terminalUsedAsHead _ => .terminalUsedAsHead
  | .undeclaredSymbol _ => .undeclaredSymbol
  | .misplacedEmptySymbol _ _ => .misplacedEmptySymbol
  | .startSymbolHasNoRule _ => .startSymbolHasNoRule

/-- The name that `d` is about; for a misplaced empty symbol, the head of the rule. -/
def name : Defect → String
  | .reservedDeclaration name _ => name
  | .conflictingDeclaration name => name
  | .startSymbolConflict name => name
  | .emptyAsRuleHead head => head
  | .endAsRuleHead head => head
  | .undeclaredRuleHead head => head
  | .terminalUsedAsHead head => head
  | .undeclaredSymbol name => name
  | .misplacedEmptySymbol head _ => head
  | .startSymbolHasNoRule start => start

/-- What a `reserved` name stands for, in words. -/
def meaning (reserved : String) : String :=
  if isEmptyName reserved then "the empty derivation" else "end of input"

def message : Defect → String
  | .reservedDeclaration name role =>
      name ++ " is reserved for " ++ meaning name ++ " and cannot be declared as a " ++ role.text
  | .conflictingDeclaration name =>
      name ++ " is listed as both a terminal and a non-terminal"
  | .startSymbolConflict name =>
      name ++ " is listed as both a terminal and the start symbol"
  | .emptyAsRuleHead head =>
      head ++ " is reserved for " ++ meaning head ++ " and cannot be a rule head"
  | .endAsRuleHead head =>
      head ++ " is reserved for " ++ meaning head ++ " and cannot be a rule head"
  | .undeclaredRuleHead head =>
      head ++ " was used as a rule head but was not declared as a non-terminal"
  | .terminalUsedAsHead head =>
      head ++ " was listed as a terminal, but also used as a rule head"
  | .undeclaredSymbol name =>
      name ++ " was used in a rule alternate, but was not declared"
  | .misplacedEmptySymbol head alternate =>
      emptyName ++ " must be the only symbol of an alternate: " ++ head ++ " -> " ++
        String.intercalate " " alternate
  | .startSymbolHasNoRule start =>
      "there was no rule with the start symbol, " ++ start ++ ", as the head"

/-- The finding for `d` without a place: about the declarations, or about the rules as a whole. -/
def diagnostic (d : Defect) : Diagnostic where
  kind := d.kind
  message := d.message
  name := some d.name

/-- The finding for `d` about the rule `index`, at its `span`. -/
def diagnosticAt (d : Defect) (index : Nat) (span : Option SourceSpan) : Diagnostic where
  kind := d.kind
  message := d.message
  name := some d.name
  ruleIndex := some index
  span := span

end Defect

end Lookahead
