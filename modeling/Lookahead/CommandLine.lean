import Lookahead.CommandLine.Invocation
import Lookahead.Description.Reader
import Lookahead.GrammarFile
import Lookahead.Report
import Lookahead.Validation

/-!
# CommandLine — checking grammars and printing their sets

- `Outcome`: what a run writes, and how it ends.
- `Invocation.perform`: a run on what a path leads to.
- `run`: a run from the arguments on.
-/

namespace Lookahead
namespace CommandLine

/-! ## Outcomes -/

/-- What ends a run without an exit code: bytes that are no text, a `Breach` of the validator or a
`Fault` of the engine. -/
inductive Abort
  | malformed (fault : Text.Utf8Fault)
  | breach (breach : Breach)
  | fault (fault : Fault)
  deriving DecidableEq, Repr

def Abort.message : Abort → String
  | .malformed f => f.message
  | .breach b => b.message
  | .fault f => f.message

structure Outcome where
  ending : Except Abort Nat
  stdout : String := ""
  stderr : String := ""

namespace ExitCode

def success : Nat := 0

/-- The path leads to no file: what is there is `.missing` or a `.directory`. -/
def noFile : Nat := 1

/-- `Description.read` fails on the text. -/
def unreadable : Nat := 2

/-- `validate` rejects the description. -/
def invalid : Nat := 3

/-- `Invocation.read` refuses the arguments. -/
def misuse : Nat := 2

end ExitCode

/-- The `lines` one after the other, each with its line feed. -/
def linesText (lines : List String) : String :=
  String.join (lines.map (· ++ "\n"))

namespace Outcome

def aborted (cause : Abort) : Outcome := { ending := .error cause }

/-- `o` with `lines` in front of its `stderr`. -/
def withNotes (lines : List String) (o : Outcome) : Outcome :=
  { o with stderr := linesText lines ++ o.stderr }

/-- `o` with `lines` as notes if `debug` is set. Without `debug` the `lines` are not even worked
out, so a fault in them does not show. -/
def withDebug (debug : Bool) (lines : Except Fault (List String)) (o : Outcome) : Outcome :=
  if debug then
    match lines with
    | .ok lines => o.withNotes lines
    | .error fault => aborted (.fault fault)
  else o

/-- `next` of a `value` that was worked out; a fault in it aborts the run. -/
def withValue {α : Type} (value : Except Fault α) (next : α → Outcome) : Outcome :=
  match value with
  | .ok a => next a
  | .error fault => aborted (.fault fault)

end Outcome

/-! ## Commands -/

/-- The text of `r` behind its number, `r.index + 1`. -/
def numberedRule (g : Grammar) (r : Rule) : Except Fault String := do
  let text ← g.ruleText r
  let number := toString (r.index + 1)
  return "  #" ++ number ++ String.ofList (List.replicate (3 - number.length) ' ') ++ " " ++ text

/-- The line `[CHECK OK]` with the start symbol and the three sizes of `g`. -/
def confirmation (g : Grammar) : Except Fault String := do
  let start ← g.startName
  return "[CHECK OK] start=" ++ start ++ " terms=" ++ toString g.terminals.length ++
    " nonterms=" ++ toString g.nonTerminals.length ++ " rules=" ++ toString g.rules.length

def checkGrammar (debug : Bool) (g : Grammar) : Outcome :=
  Outcome.withDebug debug (g.rules.mapM (numberedRule g)) <|
    Outcome.withValue (confirmation g) fun line =>
      { ending := .ok ExitCode.success, stdout := linesText [line] }

/-- The tables of `firstByName` and `followByName`, with an empty line between them. -/
def bothTables (a : Analysis) : Except Fault String := do
  let first ← a.firstByName
  let follow ← a.followByName
  return linesText [tableText "FIRST" first, "", tableText "FOLLOW" follow]

def printSets (debug : Bool) (g : Grammar) : Outcome :=
  Outcome.withValue g.analyze fun a =>
    Outcome.withDebug debug
      (.ok ["[DEBUG] FIRST/FOLLOW computed | first passes=" ++ toString a.firstPasses ++
        " follow passes=" ++ toString a.followPasses]) <|
      Outcome.withValue (bothTables a) fun tables =>
        { ending := .ok ExitCode.success, stdout := tables }

def Command.onGrammar (c : Command) (debug : Bool) (g : Grammar) : Outcome :=
  match c with
  | .check => checkGrammar debug g
  | .sets => printSets debug g

/-! ## Runs -/

def grammarNotes (g : Grammar) : Except Fault (List String) := do
  let summary ← g.summary
  return ["[DEBUG] Grammar validated | " ++ summary, "[DEBUG] " ++ g.symbols.summary]

def descriptionNotes (d : Description) : List String :=
  ["[DEBUG] RawGrammar ready | terms=" ++ toString d.terminals.length ++
    " nonterms=" ++ toString d.nonTerminals.length ++ " rules=" ++ toString d.productions.length]

namespace Invocation

/-- What `i` does with a description: `validate` it and run the command on the grammar. -/
def onDescription (i : Invocation) (d : Description) : Outcome :=
  Outcome.withDebug i.debug (.ok (descriptionNotes d)) <|
    match validate [] d with
    | .error breach => Outcome.aborted (.breach breach)
    | .ok (found, .rejected _) =>
        { ending := .ok ExitCode.invalid, stderr := linesText [found.text] }
    | .ok (_, .accepted g) =>
        Outcome.withDebug i.debug (grammarNotes g) (i.command.onGrammar i.debug g)

/-- What `i` does with the text of a grammar file: `Description.read` and `onDescription`. -/
def onSource (i : Invocation) (source : List Char) : Outcome :=
  match Description.read source with
  | .error e =>
      { ending := .ok ExitCode.unreadable
        stderr := linesText ["[SYNTAX ERROR]", e.message source] }
  | .ok d => i.onDescription d

/-- What `i` does with the content of its file: `sourceOf` and `onSource`. -/
def perform (i : Invocation) : FileContent → Outcome
  | .file bytes =>
      match sourceOf bytes with
      | .error fault => Outcome.aborted (.malformed fault)
      | .ok source => i.onSource source
  | _ =>
      { ending := .ok ExitCode.noFile
        stderr := linesText ["[ERROR] The passed input file does not exist: " ++ i.file] }

end Invocation

/-- `Page.help` goes to `stdout`; a refusal goes to `stderr`, with `Page.usage` in front. -/
def Ending.outcome : Ending → Outcome
  | .help page => { ending := .ok ExitCode.success, stdout := page.help }
  | .misuse page cause =>
      { ending := .ok ExitCode.misuse
        stderr := page.usage ++ linesText [page.name ++ ": error: " ++ cause.message] }

/-- A run from the arguments on; `content` tells what a path leads to. -/
def run (content : String → FileContent) (args : List String) : Outcome :=
  match Invocation.read args with
  | .error ending => ending.outcome
  | .ok i => i.perform (content (normalPath i.file))

end CommandLine
end Lookahead
