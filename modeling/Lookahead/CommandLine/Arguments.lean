import Lookahead.Text.Digits
import Lookahead.Text.Quoted

/-!
# CommandLine/Arguments — switches and words on a command line

An argument is a word, a switch, or something that looks like a switch and is none. Switches may be
written by a letter, several letters behind one dash, or by a word that may be cut short. Behind
the argument `--` there are only words.

- `Switch`: asks for help, or for debug output.
- `Misuse`: why a command line is refused.
- `Argument.classifyAll`: what the arguments are, given the switches that are known.
- `Switch.cluster`: the switches behind one dash, or the first letter that is none.
-/

namespace Lookahead
namespace CommandLine

inductive Switch
  | help
  | debug
  deriving DecidableEq, Repr

namespace Switch

def letter : Switch → Char
  | .help => 'h'
  | .debug => 'D'

def word : Switch → String
  | .help => "--help"
  | .debug => "--debug"

/-- Both ways to write `s`, the letter and the word, as messages name it. -/
def text (s : Switch) : String :=
  "-" ++ String.singleton s.letter ++ "/" ++ s.word

/-- The switch in `known` with the letter `c`. -/
def ofLetter? (known : List Switch) (c : Char) : Option Switch :=
  known.find? (·.letter == c)

/-- The switch in `known` with the word `front`. -/
def ofWord? (known : List Switch) (front : List Char) : Option Switch :=
  known.find? (·.word.toList == front)

/-- The switches in `known` whose word begins with `front`. -/
def abbreviated (known : List Switch) (front : List Char) : List Switch :=
  known.filter fun s => front.isPrefixOf s.word.toList

end Switch

/-! ## Refusals -/

inductive Misuse
  /-- The word `arg` is short for several switches, the `candidates`. -/
  | ambiguous (arg : String) (candidates : List Switch)
  /-- `switch` takes no value, but `value` was given. -/
  | ignoredValue (switch : Switch) (value : String)
  | invalidChoice (choice : String) (choices : List String)
  | missing (argument : String)
  | unrecognized (args : List String)
  deriving DecidableEq, Repr

def Misuse.message : Misuse → String
  | .ambiguous arg candidates =>
      "ambiguous option: " ++ arg ++ " could match " ++
        String.intercalate ", " (candidates.map Switch.word)
  | .ignoredValue switch value =>
      "argument " ++ switch.text ++ ": ignored explicit argument " ++ Text.quoted value
  | .invalidChoice choice choices =>
      "argument cmd: invalid choice: " ++ Text.quoted choice ++ " (choose from " ++
        String.intercalate ", " (choices.map Text.quoted) ++ ")"
  | .missing argument => "the following arguments are required: " ++ argument
  | .unrecognized args => "unrecognized arguments: " ++ String.intercalate " " args

/-! ## Arguments -/

inductive Argument
  | plain (text : String)
  /-- The argument `--`, behind which there are only words. -/
  | separator
  /-- `switch`, with the `letters` that stand behind its own. -/
  | switch (switch : Switch) (letters : List Char)
  /-- `switch`, with the `value` behind an equals sign. -/
  | valued (switch : Switch) (value : String)
  | unknown (text : String)
  deriving DecidableEq, Repr

namespace Argument

/-- What stands behind the first equals sign of `arg`, if there is one. -/
def value? (arg : List Char) : Option (List Char) :=
  match arg.dropWhile (· != '=') with
  | [] => none
  | _ :: value => some value

/-- The argument for `s` and the value that may stand behind its word. -/
def withValue (s : Switch) : Option (List Char) → Argument
  | none => .switch s []
  | some value => .valued s (String.ofList value)

/-- An `arg` that looks like a switch and is none: `.plain` if it `looksNegative` or holds a blank,
`.unknown` otherwise. -/
def ofStranger (arg : List Char) : Argument :=
  if Text.looksNegative arg || arg.contains ' ' then .plain (String.ofList arg)
  else .unknown (String.ofList arg)

/-- An `arg` with two dashes: the word of a switch in `known`, in full or cut short, and perhaps a
value. -/
def ofWord (known : List Switch) (arg : List Char) : Except Misuse Argument :=
  let front := arg.takeWhile (· != '=')
  match Switch.ofWord? known front with
  | some s => .ok (withValue s (value? arg))
  | none =>
      match Switch.abbreviated known front with
      | [] => .ok (ofStranger arg)
      | [s] => .ok (withValue s (value? arg))
      | candidates => .error (.ambiguous (String.ofList arg) candidates)

/-- An `arg` with one dash: the `letter` of a switch in `known`, and `later` letters. An equals sign
right behind `letter` is dropped, but with nothing behind it, it is an empty value. -/
def ofLetter (known : List Switch) (arg : List Char) (letter : Char) (later : List Char) :
    Argument :=
  match Switch.ofLetter? known letter, later with
  | none, _ => ofStranger arg
  | some s, ['='] => .valued s ""
  | some s, '=' :: letters => .switch s letters
  | some s, letters => .switch s letters

/-- What `arg` is, as long as no `--` was in front of it; a single dash is a word. -/
def classify (known : List Switch) (arg : List Char) : Except Misuse Argument :=
  match arg with
  | '-' :: '-' :: _ => ofWord known arg
  | '-' :: letter :: later => .ok (ofLetter known arg letter later)
  | _ => .ok (.plain (String.ofList arg))

def classifyAll (known : List Switch) : List String → Except Misuse (List Argument)
  | [] => .ok []
  | arg :: rest =>
      if arg = "--" then .ok (.separator :: rest.map Argument.plain)
      else do
        let first ← classify known arg.toList
        let others ← classifyAll known rest
        return first :: others

end Argument

/-- The switches behind one dash, of which `s` is the first. A letter that is no switch would begin
a value of the switch before it, and that is an `ignoredValue`. -/
def Switch.cluster (known : List Switch) (s : Switch) : List Char → Except Misuse (List Switch)
  | [] => .ok [s]
  | c :: rest =>
      match Switch.ofLetter? known c with
      | none => .error (.ignoredValue s (String.ofList (c :: rest)))
      | some next => (cluster known next rest).map (s :: ·)

end CommandLine
end Lookahead
