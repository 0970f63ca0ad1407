import Lookahead.CommandLine.Arguments

/-!
# CommandLine/Invocation — what a command line asks for

A command line names a command and a grammar file; the switches for help and debug output may stand
anywhere behind the command.

- `Command`: check a grammar, or compute its sets.
- `Page`: the program as a whole or one command, with its usage and help texts.
- `Invocation.read`: the invocation that the arguments ask for, or why there is none.
-/

namespace Lookahead
namespace CommandLine

inductive Command
  | check
  | sets
  deriving DecidableEq, Repr

namespace Command

def all : List Command := [.check, .sets]

def name : Command → String
  | .check => "check"
  | .sets => "sets"

def ofName? (s : String) : Option Command :=
  all.find? (·.name == s)

theorem ofName?_name (c : Command) : ofName? c.name = some c := by
  cases c <;> decide

def purpose : Command → String
  | .check => "문법을 읽어 선언과 규칙을 검증합니다"
  | .sets => "모든 비단말의 FIRST/FOLLOW 집합을 출력합니다"

end Command

/-! ## Usage and help -/

/-- What a help text or a refusal is about: the `program` or one `command`. -/
inductive Page
  | program
  | command (c : Command)
  deriving DecidableEq, Repr

namespace Page

def name : Page → String
  | .program => "gsetc"
  | .command c => "gsetc " ++ c.name

/-- The names of all commands between braces. -/
def choice : String :=
  "\x7b" ++ String.intercalate "," (Command.all.map Command.name) ++ "\x7d"

def usage : Page → String
  | .program => "usage: " ++ name .program ++ " [-h] " ++ choice ++ " ...\n"
  | .command c => "usage: " ++ name (.command c) ++ " [-h] [-D] file\n"

/-- A line of a help text: `subject`, and `explanation` from `column` on. -/
def entry (column : Nat) (subject explanation : String) : String :=
  subject ++ String.ofList (List.replicate (column - subject.length) ' ') ++ explanation ++ "\n"

def helpExplanation : String := "show this help message and exit"

def help : Page → String
  | .program =>
      usage .program ++ "\ngrammar FIRST/FOLLOW set calculator\n\n" ++
        "positional arguments:\n  " ++ choice ++ "\n" ++
        String.join (Command.all.map fun c => entry 16 ("    " ++ c.name) c.purpose) ++
        "\noptions:\n" ++ entry 16 "  -h, --help" helpExplanation
  | .command c =>
      usage (.command c) ++ "\npositional arguments:\n" ++
        entry 15 "  file" "문법 기술 파일" ++
        "\noptions:\n" ++ entry 15 "  -h, --help" helpExplanation ++
        entry 15 "  -D, --debug" "디버그 정보를 상세 출력"

end Page

/-- Why no command is run: `help` was asked for, or the arguments are a `misuse`. -/
inductive Ending
  | help (page : Page)
  | misuse (page : Page) (cause : Misuse)
  deriving DecidableEq, Repr

structure Invocation where
  command : Command
  file : String
  debug : Bool := false
  deriving DecidableEq, Repr

namespace Invocation

/-! ## Behind the command -/

/-- What the arguments behind a command have told so far: the file, the switch for debug output and
the words that are left over. -/
structure Request where
  file : Option String := none
  debug : Bool := false
  left : List String := []
  deriving DecidableEq, Repr

/-- `r` after `switches` have taken effect in order; `.help` ends the reading. -/
def Request.apply (page : Page) (r : Request) : List Switch → Except Ending Request
  | [] => .ok r
  | .help :: _ => .error (.help page)
  | .debug :: rest => Request.apply page { r with debug := true } rest

/-- `r` after the other arguments. The first word is the file; later words and unknown switches are
left over. So is `--`, unless it stands before the file or, with `behindFile`, right behind it. -/
def Request.read (page : Page) (known : List Switch) (behindFile : Bool) (r : Request) :
    List Argument → Except Ending Request
  | [] => .ok r
  | .plain text :: rest =>
      if r.file.isNone then Request.read page known true { r with file := some text } rest
      else Request.read page known false { r with left := r.left ++ [text] } rest
  | .separator :: rest =>
      if r.file.isNone || behindFile then Request.read page known false r rest
      else Request.read page known false { r with left := r.left ++ ["--"] } rest
  | .switch s letters :: rest =>
      match s.cluster known letters with
      | .error cause => .error (.misuse page cause)
      | .ok switches =>
          match Request.apply page r switches with
          | .error ending => .error ending
          | .ok r => Request.read page known false r rest
  | .valued s value :: _ => .error (.misuse page (.ignoredValue s value))
  | .unknown text :: rest =>
      Request.read page known false { r with left := r.left ++ [text] } rest

/-- The invocation of `c` with the arguments behind it, and what is left over of them. Without a
file it is a `misuse`. -/
def readBehind (c : Command) (args : List String) : Except Ending (Invocation × List String) := do
  let page := Page.command c
  let known := [Switch.help, Switch.debug]
  let args ← (Argument.classifyAll known args).mapError (Ending.misuse page)
  let r ← Request.read page known false {} args
  match r.file with
  | none => throw (.misuse page (.missing "file"))
  | some file => return (⟨c, file, r.debug⟩, r.left)

/-! ## From the program's name on -/

/-- The first word names the command, and `readBehind` reads what follows. Unknown switches before
it are left over, together with `left`. -/
def readFrom (left : List String) : List String → Except Ending (Invocation × List String)
  | [] => .error (.misuse .program (.missing "cmd"))
  | arg :: rest =>
      let choose (name : String) : Except Ending (Invocation × List String) :=
        match Command.ofName? name with
        | none =>
            .error (.misuse .program (.invalidChoice name (Command.all.map Command.name)))
        | some c => (readBehind c rest).map fun r => (r.1, left ++ r.2)
      if arg = "--" then
        if rest.isEmpty then .error (.misuse .program (.missing "cmd")) else choose arg
      else
        match Argument.classify [.help] arg.toList with
        | .error cause => .error (.misuse .program cause)
        | .ok (.plain name) => choose name
        | .ok .separator => choose arg
        | .ok (.valued s value) => .error (.misuse .program (.ignoredValue s value))
        | .ok (.unknown text) => readFrom (left ++ [text]) rest
        | .ok (.switch s letters) =>
            match s.cluster [.help] letters with
            | .error cause => .error (.misuse .program cause)
            | .ok _ => .error (.help .program)

/-- The invocation that `args` ask for, if `readFrom` leaves nothing over. -/
def read (args : List String) : Except Ending Invocation := do
  let (invocation, left) ← readFrom [] args
  if left.isEmpty then return invocation
  else throw (.misuse .program (.unrecognized left))

end Invocation

end CommandLine
end Lookahead
