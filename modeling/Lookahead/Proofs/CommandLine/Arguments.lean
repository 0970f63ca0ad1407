import Lookahead.CommandLine.Invocation
import Lookahead.Proofs.Chains

/-!
# Arguments — what the switch for debug output changes

- `CommandLine.debugFlags`: the two ways to write the switch.
- `Invocation.read_debug`: put in front of the other arguments of a command, the switch asks for
  debug output and changes nothing else.
- `Invocation.read_separated`: behind the separator every argument is the name of a file.
-/

namespace Lookahead
namespace CommandLine

variable {c : Command} {page : Page} {known : List Switch} {behindFile : Bool}

/-! ## Single arguments -/

def debugFlags : List String := ["-D", "--debug"]

theorem Argument.classifyAll_debug {flag : String} (hflag : flag ∈ debugFlags)
    (args : List String) :
    classifyAll [.help, .debug] (flag :: args) =
      (classifyAll [.help, .debug] args).map (Argument.switch .debug [] :: ·) := by
  have hflags : ∀ flag ∈ debugFlags, flag ≠ "--" ∧
      classify [.help, .debug] flag.toList = .ok (.switch .debug []) := by
    decide +kernel
  rcases hflags flag hflag with ⟨hword, hclass⟩
  rw [classifyAll, if_neg hword, hclass]
  cases classifyAll [.help, .debug] args <;> rfl

/-! ## Requests -/

namespace Invocation

/-- `r` with its `debug` switch on. -/
def Request.withDebug (r : Request) : Request :=
  { r with debug := true }

theorem Request.apply_withDebug (r : Request) (switches : List Switch) :
    Request.apply page r.withDebug switches =
      (Request.apply page r switches).map Request.withDebug := by
  induction switches generalizing r with
  | nil => rfl
  | cons s rest ih =>
      cases s with
      | help => rfl
      | debug => exact ih { r with debug := true }

theorem Request.read_withDebug (r : Request) (args : List Argument) :
    Request.read page known behindFile r.withDebug args =
      (Request.read page known behindFile r args).map Request.withDebug := by
  induction args generalizing r behindFile with
  | nil => rfl
  | cons arg rest ih =>
      -- the switch is only carried along, so each case is the same for the arguments behind it
      cases arg with
      | plain text =>
          cases hfile : r.file.isNone with
          | true =>
              have hlater := @ih true { r with file := some text }
              simpa [Request.read, Request.withDebug, hfile] using hlater
          | false =>
              have hlater := @ih false { r with left := r.left ++ [text] }
              simpa [Request.read, Request.withDebug, hfile] using hlater
      | separator =>
          cases hfile : (r.file.isNone || behindFile) with
          | true => simpa [Request.read, Request.withDebug, hfile] using @ih false r
          | false =>
              have hlater := @ih false { r with left := r.left ++ ["--"] }
              simpa [Request.read, Request.withDebug, hfile] using hlater
      | switch s letters =>
          cases hcluster : s.cluster known letters with
          | error cause => simp [Request.read, hcluster, Except.map]
          | ok switches =>
              have happly := @Request.apply_withDebug page r switches
              cases hswitches : Request.apply page r switches with
              | error ending =>
                  rw [hswitches] at happly
                  simp [Request.read, hcluster, hswitches, happly, Except.map]
              | ok r' =>
                  rw [hswitches] at happly
                  simpa [Request.read, hcluster, hswitches, happly, Except.map] using @ih false r'
      | valued s value => rfl
      | unknown text =>
          have hlater := @ih false { r with left := r.left ++ [text] }
          simpa [Request.read, Request.withDebug] using hlater

/-! ## Command lines -/

/-- `i` with its `debug` switch on. -/
def withDebug (i : Invocation) : Invocation :=
  { i with debug := true }

theorem readBehind_debug {flag : String} (hflag : flag ∈ debugFlags) (args : List String) :
    readBehind c (flag :: args) = (readBehind c args).map fun r => (r.1.withDebug, r.2) := by
  unfold readBehind
  dsimp only
  rw [Argument.classifyAll_debug hflag]
  cases Argument.classifyAll [.help, .debug] args with
  | error cause => rfl
  | ok arguments =>
      -- the switch in front turns the request on from which the others are read
      have hread : Request.read (.command c) [.help, .debug] false {}
            (.switch .debug [] :: arguments) =
          (Request.read (.command c) [.help, .debug] false {} arguments).map Request.withDebug :=
        Request.read_withDebug {} arguments
      simp only [Except.map, Except.mapError, bind, Except.bind, hread]
      cases Request.read (.command c) [.help, .debug] false {} arguments with
      | error ending => rfl
      | ok r =>
          rcases r with ⟨file, debug, left⟩
          cases file <;> rfl

theorem read_command (c : Command) (args : List String) :
    Invocation.read (c.name :: args) = (readBehind c args).bind fun r =>
      if r.2.isEmpty then .ok r.1 else .error (.misuse .program (.unrecognized r.2)) := by
  have hname : c.name ≠ "--" ∧ Argument.classify [.help] c.name.toList = .ok (.plain c.name) := by
    cases c <;> decide +kernel
  have hfrom : readFrom [] (c.name :: args) = readBehind c args := by
    rw [readFrom]
    simp only [hname.2, if_neg hname.1, Command.ofName?_name]
    cases readBehind c args <;> rfl
  rw [Invocation.read, hfrom]
  cases readBehind c args <;> rfl

theorem read_debug {flag : String} (hflag : flag ∈ debugFlags) (c : Command) (args : List String) :
    Invocation.read (c.name :: flag :: args) =
      (Invocation.read (c.name :: args)).map withDebug := by
  rw [read_command, read_command, readBehind_debug hflag]
  cases readBehind c args with
  | error ending => rfl
  | ok r =>
      cases hleft : r.2.isEmpty with
      | true => simp [Except.map, Except.bind, hleft]
      | false => simp [Except.map, Except.bind, hleft]

theorem read_separated (c : Command) (file : String) :
    Invocation.read [c.name, "--", file] = .ok ⟨c, file, false⟩ := by
  rw [read_command]
  rfl

end Invocation
end CommandLine
end Lookahead
