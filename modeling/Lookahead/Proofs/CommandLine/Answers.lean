import Lookahead.Proofs.CommandLine.Lines
import Lookahead.Proofs.Totality

/-!
# Answers — what a text is answered with

Reading, validating and computing decide on the answer to a text. The command only changes what an
accepted text has printed, and debug output only puts notes in front of the error output.

- `CommandLine.Notes`: two outcomes, by the switch for debug output, that differ by notes alone.
- `CommandLine.Answer`: the exit code and the error output that a text calls for.
- `CommandLine.exists_answer`: every text has its answer, whatever the command and the switch.
- `CommandLine.Outcome.Documented`: an outcome with an exit code, and a reason if it is not zero.
-/

namespace Lookahead
namespace CommandLine

variable {source : List Char} {d : Description} {g : Grammar}

/-! ## Notes -/

@[simp]
theorem Outcome.withNotes_nil (o : Outcome) : o.withNotes [] = o := by
  simp [withNotes, linesText]

theorem Outcome.withNotes_withNotes (o : Outcome) (earlier later : List String) :
    (o.withNotes later).withNotes earlier = o.withNotes (earlier ++ later) := by
  simp [withNotes, linesText_append, String.append_assoc]

/-- `outcome true` is `plain` behind some notes on `stderr`, and `outcome false` is `plain`
itself. -/
def Notes (outcome : Bool → Outcome) (plain : Outcome) : Prop :=
  ∃ notes, ∀ debug, outcome debug = plain.withNotes (if debug then notes else [])

theorem Notes.refl (plain : Outcome) : Notes (fun _ => plain) plain :=
  ⟨[], fun debug => by cases debug <;> simp⟩

/-- `Notes` is kept by another `Outcome.withDebug` in front, if its lines were `made` without a
fault. -/
theorem Notes.withDebug {outcome : Bool → Outcome} {plain : Outcome}
    {made : Except Fault (List String)} (hmade : ∃ lines, made = .ok lines)
    (h : Notes outcome plain) :
    Notes (fun debug => Outcome.withDebug debug made (outcome debug)) plain := by
  rcases hmade with ⟨earlier, rfl⟩
  rcases h with ⟨later, hlater⟩
  refine ⟨earlier ++ later, fun debug => ?_⟩
  cases debug with
  | false => simpa [Outcome.withDebug] using hlater false
  | true => simp [Outcome.withDebug, hlater true, Outcome.withNotes_withNotes]

/-- Whatever `debug` was, `outcome true` is `outcome debug` with some notes in front. -/
theorem Notes.exists_added {outcome : Bool → Outcome} {plain : Outcome}
    (h : Notes outcome plain) (debug : Bool) :
    ∃ notes, outcome true = (outcome debug).withNotes notes := by
  rcases h with ⟨notes, hnotes⟩
  rw [hnotes true, hnotes debug]
  cases debug with
  | true => exact ⟨[], by simp⟩
  | false => exact ⟨notes, by simp⟩

/-! ## Accepted texts -/

theorem exists_numberedRules (hg : g.Total) :
    ∃ lines, g.rules.mapM (numberedRule g) = .ok lines := by
  refine mapM_total fun r hr => ?_
  rcases hg.rules r hr with ⟨text, htext⟩
  exact ⟨_, bind_eq_ok_iff.2 ⟨text, htext, rfl⟩⟩

theorem exists_confirmation (hg : g.Represents d) : ∃ line, confirmation g = .ok line := by
  have hstart : g.startName = .ok d.start := SymbolTable.nameOf_eq_ok hg.start
  exact ⟨_, bind_eq_ok_iff.2 ⟨d.start, hstart, rfl⟩⟩

theorem exists_grammarNotes (hg : g.Total) : ∃ lines, grammarNotes g = .ok lines := by
  rcases hg.summary with ⟨text, htext⟩
  exact ⟨_, bind_eq_ok_iff.2 ⟨text, htext, rfl⟩⟩

/-- On a grammar that represents a well-formed `d`, the command `c` ends with `ExitCode.success` and
prints a nonempty `stdout`, and `debug` only adds notes. -/
theorem notes_onGrammar (hg : g.Represents d) (hd : d.WellFormed) (c : Command) :
    ∃ stdout, stdout ≠ "" ∧
      Notes (fun debug => c.onGrammar debug g) { ending := .ok ExitCode.success, stdout } := by
  have htotal : g.Total := hg.total hd
  cases c with
  | check =>
      rcases exists_confirmation hg with ⟨line, hline⟩
      refine ⟨linesText [line], linesText_cons_ne_empty _ _, ?_⟩
      simp only [Command.onGrammar, checkGrammar, hline, Outcome.withValue]
      exact (Notes.refl _).withDebug (exists_numberedRules htotal)
  | sets =>
      -- `Total` gives the analysis and both maps by name, so no step of the command faults
      rcases htotal.analysis with ⟨a, ha, first, follow, _, _, htables⟩
      refine ⟨linesText [tableText "FIRST" first, "", tableText "FOLLOW" follow],
        linesText_cons_ne_empty _ _, ?_⟩
      simp only [Command.onGrammar, printSets, ha, htables, Outcome.withValue]
      exact (Notes.refl _).withDebug ⟨_, rfl⟩

/-! ## Answers -/

/-- The exit code and the `stderr` for `source`: `Description.read` refuses it, `validate` rejects
it, or nothing is wrong. -/
inductive Answer (source : List Char) : Nat → String → Prop
  | unreadable {e : ReadError} (hread : Description.read source = .error e) :
      Answer source ExitCode.unreadable (linesText ["[SYNTAX ERROR]", e.message source])
  | invalid {d : Description} {found : Diagnostics} {errors : Nat} {stderr : String}
      (hread : Description.read source = .ok d)
      (hverdict : validate [] d = .ok (found, .rejected errors))
      (hcount : 1 ≤ errors ∧ errors = found.length)
      (hlines : HasLines stderr (reportLines found)) :
      Answer source ExitCode.invalid stderr
  | valid {d : Description} {g : Grammar} (hread : Description.read source = .ok d)
      (hverdict : validate [] d = .ok ([], .accepted g)) :
      Answer source ExitCode.success ""

theorem exists_answer (source : List Char) :
    ∃ code stderr, Answer source code stderr ∧
      ∀ c, ∃ stdout, (stdout = "" ↔ code ≠ ExitCode.success) ∧
        ∀ file, Notes (fun debug => (Invocation.mk c file debug).onSource source)
          { ending := .ok code, stdout, stderr } := by
  cases hread : Description.read source with
  | error e =>
      refine ⟨_, _, .unreadable hread, fun c => ⟨"", by decide, fun file => ?_⟩⟩
      simp only [Invocation.onSource, hread]
      exact Notes.refl _
  | ok d =>
      simp only [Invocation.onSource, hread, Invocation.onDescription]
      by_cases hd : d.WellFormed
      · rcases validate_wellFormed [] hd with ⟨g, hverdict, hg⟩
        refine ⟨_, _, .valid hread hverdict, fun c => ?_⟩
        rcases notes_onGrammar hg hd c with ⟨stdout, hstdout, hnotes⟩
        refine ⟨stdout, by simpa using hstdout, fun file => ?_⟩
        simp only [hverdict]
        -- the command's notes, those on the grammar and those on the description
        have hgrammar := hnotes.withDebug (exists_grammarNotes (hg.total hd))
        exact hgrammar.withDebug ⟨descriptionNotes d, rfl⟩
      · rcases validate_not_wellFormed [] hd with ⟨found, hfound, hverdict⟩
        have hfindings : found = d.findings := findings_of_validate hverdict
        have hpos : 1 ≤ found.length := List.length_pos_iff.2 hfound
        have hlines : HasLines (linesText [Diagnostics.text found]) (reportLines found) := by
          rw [hfindings]
          exact hasLines_report hread
        refine ⟨_, _, .invalid hread hverdict ⟨hpos, rfl⟩ hlines, fun c => ⟨"", by decide, ?_⟩⟩
        intro file
        simp only [hverdict, List.nil_append]
        exact (Notes.refl _).withDebug ⟨descriptionNotes d, rfl⟩

/-! ## Exit codes -/

/-- `o` ends by one of the four exit codes, and `stderr` is not empty unless that is
`ExitCode.success`. -/
def Outcome.Documented (o : Outcome) : Prop :=
  ∃ code ∈ [ExitCode.success, ExitCode.noFile, ExitCode.unreadable, ExitCode.invalid],
    o.ending = .ok code ∧ (code ≠ ExitCode.success → o.stderr ≠ "")

theorem Notes.documented {outcome : Bool → Outcome} {plain : Outcome} (h : Notes outcome plain)
    (hplain : plain.Documented) (debug : Bool) : (outcome debug).Documented := by
  rcases h with ⟨notes, hnotes⟩
  rcases hplain with ⟨code, hcode, hending, htold⟩
  rw [hnotes debug]
  refine ⟨code, hcode, hending, fun hwrong hempty => htold hwrong ?_⟩
  exact (String.append_eq_empty_iff.1 hempty).2

theorem Answer.documented {code : Nat} {stderr : String} (h : Answer source code stderr)
    (stdout : String) : Outcome.Documented { ending := .ok code, stdout, stderr } := by
  cases h with
  | unreadable _ => exact ⟨_, by decide, rfl, fun _ => linesText_cons_ne_empty _ _⟩
  | invalid _ _ _ hlines =>
      refine ⟨_, by decide, rfl, fun _ hempty => ?_⟩
      -- the last line of a report tells the number of findings
      have hsplit := congrArg List.length hlines.1
      simp only at hempty
      simp [hempty, reportLines] at hsplit
  | valid _ _ => exact ⟨_, by decide, rfl, fun h => absurd rfl h⟩

/-- On any `source`, the invocation `i` has a documented outcome `plain` without debug output, and
`debug` only adds notes to it. -/
theorem Invocation.exists_notes (i : Invocation) (source : List Char) :
    ∃ plain, plain.Documented ∧ Notes (fun debug => { i with debug }.onSource source) plain := by
  rcases exists_answer source with ⟨code, stderr, hanswer, hruns⟩
  rcases hruns i.command with ⟨stdout, _, hnotes⟩
  exact ⟨_, hanswer.documented stdout, hnotes i.file⟩

theorem Invocation.onSource_documented (i : Invocation) (source : List Char) :
    (i.onSource source).Documented := by
  rcases i.exists_notes source with ⟨plain, hplain, hnotes⟩
  exact hnotes.documented hplain i.debug

end CommandLine
end Lookahead
