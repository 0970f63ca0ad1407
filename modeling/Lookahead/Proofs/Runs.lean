import Lookahead.Proofs.CommandLine.Answers
import Lookahead.Proofs.CommandLine.Arguments

/-!
# Runs — how a run on a grammar file ends

- `CommandLine.answer_of_file`: on a file that holds a text, both commands end by the answer to it.
- `CommandLine.documented_iff`: a run ends by a documented exit code, unless the file holds no text.
- `CommandLine.debug_adds_notes`: debug output only puts notes in front of the error output.
-/

namespace Lookahead
namespace CommandLine

variable {content : String → FileContent} {args : List String} {bytes : ByteArray}
  {source : List Char} {c : Command} {i : Invocation}

/-! ## Answers -/

theorem sourceOf_of_decoded {text : String} (h : Text.decodeUtf8 bytes = .ok text) :
    sourceOf bytes = .ok (Text.unifyBreaks text.toList) := by
  have hreplaced := Text.replaceBreaks_unifyBreaks text.toList
  rw [sourceOf, h, ← hreplaced]
  rfl

theorem answer_of_file {file : String} (hfile : content (normalPath file) = .file bytes)
    (hsource : sourceOf bytes = .ok source) :
    ∃ code stderr, Answer source code stderr ∧
      ∀ c args, Invocation.read args = .ok ⟨c, file, false⟩ →
        ∃ stdout, run content args = { ending := .ok code, stdout, stderr } ∧
          (stdout = "" ↔ code ≠ ExitCode.success) := by
  rcases exists_answer source with ⟨code, stderr, hanswer, hruns⟩
  refine ⟨code, stderr, hanswer, fun c args hread => ?_⟩
  rcases hruns c with ⟨stdout, hstdout, hnotes⟩
  rcases hnotes file with ⟨notes, hplain⟩
  refine ⟨stdout, ?_, hstdout⟩
  simpa [run, hread, Invocation.perform, hfile, hsource] using hplain false

/-- The one `file` there is, which holds `text`. -/
def oneFile (file text : String) (path : String) : FileContent :=
  if path = file then .file text.toUTF8 else .missing

/-- A text with an undeclared name and an `EMPTY` that is not alone in its alternate. -/
def faultyText : String :=
  ":Start:S :Terminals:a :NonTerminals:T\r\n:Rules:S->a b.\r\n T->EMPTY a."

def faulty : Description where
  start := "S"
  terminals := ["a"]
  nonTerminals := ["T"]
  productions :=
    [⟨"S", ["a", "b"], some ⟨45, 52, 2, 8⟩⟩, ⟨"T", ["EMPTY", "a"], some ⟨54, 65, 3, 2⟩⟩]

theorem answer_faulty :
    ∃ stderr,
      HasLines stderr
        ["ERROR: b was used in a rule alternate, but was not declared (2:8, rule #1)",
          "ERROR: EMPTY must be the only symbol of an alternate: T -> EMPTY a (3:2, rule #2)",
          "There were 2 errors"] ∧
      ∀ c : Command, run (oneFile "g.g" faultyText) [c.name, "--", "g.g"] =
        { ending := .ok ExitCode.invalid, stdout := "", stderr } := by
  have hfile : oneFile "g.g" faultyText (normalPath "g.g") = .file faultyText.toUTF8 := by
    have hpath : normalPath "g.g" = "g.g" := by decide +kernel
    rw [hpath, oneFile, if_pos rfl]
  have hsource : sourceOf faultyText.toUTF8 = .ok (Text.unifyBreaks faultyText.toList) :=
    sourceOf_of_decoded (Text.decodeUtf8_toUTF8 faultyText)
  have hread : Description.read (Text.unifyBreaks faultyText.toList) = .ok faulty := by
    decide +kernel
  have hverdict : validate [] faulty = .ok (faulty.findings, .rejected 2) := rfl
  rcases answer_of_file hfile hsource with ⟨code, stderr, hanswer, hruns⟩
  -- what is read and how it is judged leave one answer
  cases hanswer with
  | unreadable h =>
      rw [hread] at h
      cases h
  | valid h haccepted =>
      rw [hread] at h
      cases h
      rw [hverdict] at haccepted
      cases haccepted
  | invalid h hrejected hcount hlines =>
      rw [hread] at h
      cases h
      rw [hverdict] at hrejected
      cases hrejected
      refine ⟨stderr, hlines, fun c => ?_⟩
      rcases hruns c _ (Invocation.read_separated c "g.g") with ⟨stdout, hrun, hstdout⟩
      rw [hrun, hstdout.2 (by decide)]

/-! ## Exit codes -/

/-- If `args` are an invocation and its file has some `bytes`, then these can be decoded. -/
def NamesText (content : String → FileContent) (args : List String) : Prop :=
  ∀ i bytes, Invocation.read args = .ok i → content (normalPath i.file) = .file bytes →
    ∃ text, Text.decodeUtf8 bytes = .ok text

theorem Ending.documented (e : Ending) : e.outcome.Documented := by
  cases e with
  | help page => exact ⟨ExitCode.success, by decide, rfl, fun h => absurd rfl h⟩
  | misuse page cause =>
      exact ⟨ExitCode.misuse, by decide, rfl, fun _ => by simp [outcome, linesText]⟩

theorem Invocation.perform_documented (i : Invocation) {file : FileContent}
    (h : ∀ bytes, file = .file bytes → ∃ text, Text.decodeUtf8 bytes = .ok text) :
    (i.perform file).Documented := by
  cases file with
  | file bytes =>
      rcases h bytes rfl with ⟨text, htext⟩
      simp only [perform, sourceOf_of_decoded htext]
      exact i.onSource_documented (Text.unifyBreaks text.toList)
  | _ =>
      exact ⟨ExitCode.noFile, by decide, rfl, fun _ => linesText_cons_ne_empty _ _⟩

theorem documented_of_namesText (h : NamesText content args) : (run content args).Documented := by
  unfold run
  cases hread : Invocation.read args with
  | error e => exact e.documented
  | ok i => exact i.perform_documented fun bytes hfile => h i bytes hread hfile

/-- If the `bytes` of the file cannot be decoded, the run is aborted by the decoder's `fault`. -/
theorem run_malformed {fault : Text.Utf8Fault} (hread : Invocation.read args = .ok i)
    (hfile : content (normalPath i.file) = .file bytes)
    (hfault : Text.decodeUtf8 bytes = .error fault) :
    run content args = Outcome.aborted (.malformed fault) := by
  have hsource : sourceOf bytes = .error fault := by
    rw [sourceOf, hfault]
    rfl
  simp only [run, hread, Invocation.perform, hfile, hsource]

theorem exists_fault (h : ¬NamesText content args) :
    ∃ fault, run content args = Outcome.aborted (.malformed fault) := by
  simp only [NamesText, not_forall] at h
  rcases h with ⟨i, bytes, hread, hfile, hnone⟩
  cases hdecoded : Text.decodeUtf8 bytes with
  | ok text => exact absurd ⟨text, hdecoded⟩ hnone
  | error fault => exact ⟨fault, run_malformed hread hfile hdecoded⟩

/-- A run is `Documented` exactly if `NamesText` holds, and what else ends it is a `malformed`
text. -/
theorem documented_iff (content : String → FileContent) (args : List String) :
    ((run content args).Documented ↔ NamesText content args) ∧
      ∀ cause, (run content args).ending = .error cause → ∃ fault, cause = .malformed fault := by
  by_cases h : NamesText content args
  · have hdocumented := documented_of_namesText h
    refine ⟨iff_of_true hdocumented h, fun cause hcause => ?_⟩
    rcases hdocumented with ⟨code, _, hending, _⟩
    rw [hending] at hcause
    cases hcause
  · rcases exists_fault h with ⟨fault, hrun⟩
    rw [hrun]
    refine ⟨iff_of_false ?_ h, fun cause hcause => ⟨fault, (Except.error.inj hcause).symm⟩⟩
    rintro ⟨code, _, hending, _⟩
    cases hending

theorem undocumented_byte : ¬(run (fun _ => .file ⟨#[0xff]⟩) ["check", "g.g"]).Documented := by
  have hread : Invocation.read ["check", "g.g"] = .ok ⟨.check, "g.g", false⟩ := by
    decide +kernel
  have hfault : Text.decodeUtf8 ⟨#[0xff]⟩ = .error ⟨0, [0xff], .invalidStart⟩ := by
    have hinvalid : String.fromUTF8? ⟨#[0xff]⟩ = none := by decide +kernel
    have hbytes : ByteArray.toList ⟨#[0xff]⟩ = [0xff] := by decide +kernel
    simp [Text.decodeUtf8, hinvalid, hbytes, Text.faultFrom, Text.continuation?]
  rw [run_malformed hread rfl hfault]
  rintro ⟨code, _, hending, _⟩
  cases hending

/-! ## Debug output -/

theorem Invocation.perform_withDebug (i : Invocation) (file : FileContent) :
    ∃ notes, i.withDebug.perform file = (i.perform file).withNotes notes := by
  cases file with
  | file bytes =>
      simp only [perform]
      cases sourceOf bytes with
      | error fault => exact ⟨[], by simp⟩
      | ok source =>
          rcases i.exists_notes source with ⟨_, _, hnotes⟩
          exact hnotes.exists_added i.debug
  | _ => exact ⟨[], by simp [perform, withDebug]⟩

theorem run_debug {flag : String} (hflag : flag ∈ debugFlags) (content : String → FileContent)
    (c : Command) (args : List String) :
    ∃ notes, run content (c.name :: flag :: args) =
      (run content (c.name :: args)).withNotes notes := by
  unfold run
  rw [Invocation.read_debug hflag]
  cases Invocation.read (c.name :: args) with
  | error e => exact ⟨[], by simp [Except.map]⟩
  | ok i => exact i.perform_withDebug (content (normalPath i.file))

theorem debug_adds_notes (htext : NamesText content (c.name :: args)) {flag : String}
    (hflag : flag ∈ debugFlags) :
    ∃ code stdout stderr notes,
      run content (c.name :: args) = { ending := .ok code, stdout, stderr } ∧
      run content (c.name :: flag :: args) =
        { ending := .ok code, stdout, stderr := linesText notes ++ stderr } := by
  rcases documented_of_namesText htext with ⟨code, _, hcode, _⟩
  rcases run_debug hflag content c args with ⟨notes, hnotes⟩
  rw [hnotes]
  cases hplain : run content (c.name :: args) with
  | mk ending stdout stderr =>
      rw [hplain] at hcode
      simp only at hcode
      subst hcode
      exact ⟨code, stdout, stderr, notes, rfl, rfl⟩

/-- A text with a nonempty FIRST and FOLLOW set, for a run that prints tables. -/
def neatText : String :=
  ":Start:S :Terminals:a :NonTerminals:S\n:Rules:S->a S.S->EMPTY."

theorem debug_neat :
    ∃ code stdout stderr notes,
      run (oneFile "g.g" neatText) ["sets", "g.g"] = { ending := .ok code, stdout, stderr } ∧
      run (oneFile "g.g" neatText) ["sets", "-D", "g.g"] =
        { ending := .ok code, stdout, stderr := linesText notes ++ stderr } := by
  have htext : NamesText (oneFile "g.g" neatText) [Command.sets.name, "g.g"] := by
    intro i bytes _ hfile
    unfold oneFile at hfile
    split at hfile
    · cases hfile
      exact ⟨neatText, Text.decodeUtf8_toUTF8 neatText⟩
    · cases hfile
  have hflag : "-D" ∈ debugFlags := by decide
  exact debug_adds_notes htext hflag

example : (run (oneFile "g.g" neatText) ["sets", "-D", "g.g"]).stderr =
    linesText ["[DEBUG] RawGrammar ready | terms=1 nonterms=1 rules=2",
      "[DEBUG] Grammar validated | Grammar(start='S', terminals=1, non_terminals=1, rules=2)",
      "[DEBUG] SymbolTable(terms=['a'], nonterms=['S'])",
      "[DEBUG] FIRST/FOLLOW computed | first passes=2 follow passes=1"] := by
  decide +kernel

end CommandLine
end Lookahead
