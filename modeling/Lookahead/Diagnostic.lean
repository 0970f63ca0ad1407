import Lookahead.Description

/-!
# Diagnostic — findings about a description

- `DiagnosticKind`: the nine kinds; one of them, an undeclared rule head, is fatal.
- `Diagnostic`: a kind and a message, with the name, the rule and the part of the source that are
  concerned, as far as there are any.
- `Diagnostics`: findings in the order in which they were reported.
-/

namespace Lookahead

inductive DiagnosticKind
  | reservedNameMisuse
  | conflictingDeclaration
  | startSymbolConflict
  | emptyAsRuleHead
  | terminalUsedAsHead
  | undeclaredRuleHead
  | undeclaredSymbol
  | misplacedEmptySymbol
  | startSymbolHasNoRule
  deriving DecidableEq, Repr

namespace DiagnosticKind

def all : List DiagnosticKind :=
  [.reservedNameMisuse, .conflictingDeclaration, .startSymbolConflict, .emptyAsRuleHead,
    .terminalUsedAsHead, .undeclaredRuleHead, .undeclaredSymbol, .misplacedEmptySymbol,
    .startSymbolHasNoRule]

def text : DiagnosticKind → String
  | .reservedNameMisuse => "ReservedNameMisuse"
  | .conflictingDeclaration => "ConflictingDeclaration"
  | .startSymbolConflict => "StartSymbolConflict"
  | .emptyAsRuleHead => "EmptyAsRuleHead"
  | .terminalUsedAsHead => "TerminalUsedAsHead"
  | .undeclaredRuleHead => "UndeclaredRuleHead"
  | .undeclaredSymbol => "UndeclaredSymbol"
  | .misplacedEmptySymbol => "MisplacedEmptySymbol"
  | .startSymbolHasNoRule => "StartSymbolHasNoRule"

/-- The kind whose `text` is `s`. -/
def ofText? (s : String) : Option DiagnosticKind :=
  all.find? (·.text == s)

theorem ofText?_text (k : DiagnosticKind) : ofText? k.text = some k := by
  cases k <;> decide

/-- Whether nothing is checked behind a finding of kind `k`. -/
def isFatal (k : DiagnosticKind) : Bool :=
  k == .undeclaredRuleHead

end DiagnosticKind

/-- A finding: its kind, its message and, if it has them, the name, the rule counted from zero and
the span that it is about. -/
structure Diagnostic where
  kind : DiagnosticKind
  message : String
  name : Option String := none
  ruleIndex : Option Int := none
  span : Option SourceSpan := none
  deriving DecidableEq, Repr

namespace Diagnostic

/-- The `line:column` of `d.span` and the number of the rule counted from one, as far as there are
any. -/
def location (d : Diagnostic) : String :=
  String.intercalate ", "
    ((d.span.map fun s => toString s.line ++ ":" ++ toString s.column).toList ++
      (d.ruleIndex.map fun i => "rule #" ++ toString (i + 1)).toList)

/-- The message, and `d.location` in parentheses if it is not empty. -/
def text (d : Diagnostic) : String :=
  if d.span.isSome || d.ruleIndex.isSome then d.message ++ " (" ++ d.location ++ ")"
  else d.message

end Diagnostic

abbrev Diagnostics := List Diagnostic

namespace Diagnostics

def kinds (ds : Diagnostics) : List DiagnosticKind :=
  ds.map Diagnostic.kind

/-- The number of findings of a kind, or of all for `none`. -/
def count (ds : Diagnostics) : Option DiagnosticKind → Nat
  | none => ds.length
  | some kind => ds.countP (·.kind == kind)

/-- A line for each finding, and a last line with their number. -/
def text (ds : Diagnostics) : String :=
  String.intercalate "\n"
    (ds.map (fun d => "ERROR: " ++ d.text) ++ ["There were " ++ toString ds.length ++ " errors"])

end Diagnostics

end Lookahead
