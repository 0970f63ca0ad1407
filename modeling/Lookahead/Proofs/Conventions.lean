import Lookahead.Proofs.Runs
import Mathlib.Logic.Function.Basic

/-!
# Conventions — line breaks in a grammar file

The lines of a grammar file may end by a line feed, by a carriage return or by both, one behind the
other. What is loaded has line feeds alone, and no run tells the conventions apart.

- `Text.LineBreak`: the three conventions, and a text that is written in one of them.
- `Text.WrittenAs`: a text, and the same with each of its lines ended in some convention.
- `Text.writtenAs_iff`: every text is written from one text, and unifying its breaks finds it.
- `CommandLine.conventions_agree`: a run on a file depends on the text that it is written from.
-/

namespace Lookahead

/-! ## Texts in each convention -/

namespace Text

inductive LineBreak
  | lineFeed
  | carriageReturn
  | both
  deriving DecidableEq, Repr

namespace LineBreak

def chars : LineBreak → List Char
  | .lineFeed => ['\n']
  | .carriageReturn => ['\r']
  | .both => ['\r', '\n']

/-- `text` with each line feed replaced by `b.chars`. -/
def write (b : LineBreak) (text : String) : String :=
  String.ofList (replaceAll ['\n'] b.chars text.toList)

end LineBreak

/-- `WrittenAs source text`: `source` has line feeds alone, and `text` is `source` with a line break
of any convention for each of them. A carriage return right in front of a line feed is no break of
its own. -/
inductive WrittenAs : List Char → List Char → Prop
  | nil : WrittenAs [] []
  | char {c : Char} {source text : List Char} (hfeed : c ≠ '\n') (hreturn : c ≠ '\r')
      (h : WrittenAs source text) : WrittenAs (c :: source) (c :: text)
  | newline {source text : List Char} (b : LineBreak)
      (halone : b = .carriageReturn → text.head? ≠ some '\n')
      (h : WrittenAs source text) : WrittenAs ('\n' :: source) (b.chars ++ text)

variable {source text : List Char}

theorem WrittenAs.unifyBreaks_eq (h : WrittenAs source text) : unifyBreaks text = source := by
  induction h with
  | nil => rfl
  | char hfeed hreturn _ ih => simp [unifyBreaks, hreturn, ih]
  | @newline source text b halone _ ih =>
      cases b with
      | lineFeed => simp [LineBreak.chars, unifyBreaks, ih]
      | both => simp [LineBreak.chars, unifyBreaks, ih]
      | carriageReturn =>
          have hlone : ∀ behind, text = '\n' :: behind → False := by
            intro behind hbehind
            exact halone rfl (by rw [hbehind, List.head?_cons])
          rw [LineBreak.chars, List.singleton_append, unifyBreaks, ih]
          exact hlone

theorem writtenAs_unifyBreaks (text : List Char) : WrittenAs (unifyBreaks text) text := by
  -- each step is one break or one other character; a line feed on its own is among the latter
  fun_induction unifyBreaks text with
  | case1 rest ih => exact .newline .both (by simp) ih
  | case2 rest hlone ih =>
    refine .newline .carriageReturn (fun _ hfeed => ?_) ih
    rcases List.head?_eq_some_iff.1 hfeed with ⟨behind, hbehind⟩
    exact hlone behind hbehind
  | case3 c rest _ hreturn ih =>
    by_cases hfeed : c = '\n'
    · subst hfeed
      exact .newline .lineFeed (by simp) ih
    · exact .char hfeed hreturn ih
  | case4 => exact .nil

/-- `WrittenAs source text` determines `source`: it is `unifyBreaks text`. -/
theorem writtenAs_iff : WrittenAs source text ↔ source = unifyBreaks text := by
  constructor
  · intro h
    exact h.unifyBreaks_eq.symm
  · rintro rfl
    exact writtenAs_unifyBreaks text

theorem writtenAs_replaceAll (b : LineBreak) (h : '\r' ∉ source) :
    WrittenAs source (replaceAll ['\n'] b.chars source) := by
  rw [replaceAll_singleton]
  induction source with
  | nil => exact .nil
  | cons c rest ih =>
      have hrest := ih fun hreturn => h (List.mem_cons_of_mem c hreturn)
      rw [List.flatMap_cons]
      by_cases hfeed : c = '\n'
      · subst hfeed
        rw [if_pos rfl]
        refine .newline b ?_ hrest
        -- no line feed is left that could join the carriage return
        rintro rfl hjoined
        rcases List.mem_flatMap.1 (List.mem_of_mem_head? hjoined) with ⟨d, _, hd⟩
        by_cases hother : d = '\n'
        · simp [hother, LineBreak.chars] at hd
        · simp [hother, Ne.symm hother] at hd
      · have hreturn : c ≠ '\r' := fun hreturn => h (by simp [hreturn])
        rw [if_neg hfeed]
        exact .char hfeed hreturn hrest

theorem LineBreak.writtenAs_write (b : LineBreak) {s : String} (h : '\r' ∉ s.toList) :
    WrittenAs s.toList (b.write s).toList := by
  rw [write, String.toList_ofList]
  exact writtenAs_replaceAll b h

end Text

open Text

/-! ## Loading -/

theorem loadSource_of_text (path text : String) :
    loadSource path (.file text.toUTF8) = .ok (unifyBreaks text.toList) := by
  rw [loadSource, CommandLine.sourceOf_of_decoded (decodeUtf8_toUTF8 text)]
  rfl

/-- If `s` has no carriage return, `loadSource` gives `s` back from the file `b.write s`, for each
convention `b`. -/
theorem loadSource_of_written (path : String) {s : String} (h : '\r' ∉ s.toList) (b : LineBreak) :
    loadSource path (.file (b.write s).toUTF8) = .ok s.toList := by
  rw [loadSource_of_text, (b.writtenAs_write h).unifyBreaks_eq]

/-- `loadSource` gives `unifyBreaks text.toList` back from a file that holds it. -/
theorem loadSource_again (path text : String) :
    loadSource path (.file (String.ofList (unifyBreaks text.toList)).toUTF8) =
      .ok (unifyBreaks text.toList) := by
  rw [loadSource_of_text, String.toList_ofList,
    unifyBreaks_of_no_return (return_not_mem_unifyBreaks text.toList)]

/-! ## Runs -/

namespace CommandLine

variable {args : List String} {i : Invocation} {s : String}

/-- If the file of `i` holds `text`, then `run` on `args` does what `i` does on
`unifyBreaks text.toList`. -/
theorem run_of_text (content : String → FileContent) (hread : Invocation.read args = .ok i)
    (text : String) :
    run (Function.update content (normalPath i.file) (.file text.toUTF8)) args =
      i.onSource (unifyBreaks text.toList) := by
  have hsource := sourceOf_of_decoded (decodeUtf8_toUTF8 text)
  simp only [run, hread, Invocation.perform, Function.update_self, hsource]

theorem run_of_written (content : String → FileContent) (hread : Invocation.read args = .ok i)
    (h : '\r' ∉ s.toList) (b : LineBreak) :
    run (Function.update content (normalPath i.file) (.file (b.write s).toUTF8)) args =
      i.onSource s.toList := by
  rw [run_of_text content hread, (b.writtenAs_write h).unifyBreaks_eq]

theorem Invocation.exists_exit (i : Invocation) (source : List Char) :
    ∃ code stdout stderr, i.onSource source = { ending := .ok code, stdout, stderr } := by
  rcases i.onSource_documented source with ⟨code, _, hending, _⟩
  refine ⟨code, (i.onSource source).stdout, (i.onSource source).stderr, ?_⟩
  rw [← hending]

/-- Loading is the inverse of writing. `loadSource` finds the only `source` with
`WrittenAs source text`, which is `text` with both replacements made, and loading it again changes
nothing. And if `s` has no carriage return, then `s` is loaded from `b.write s` for every convention
`b`, and `run` ends with the same `code`, `stdout` and `stderr` on all three files. -/
theorem conventions_agree :
    (∀ path text : String, ∃ source,
      loadSource path (.file text.toUTF8) = .ok source ∧
      (∀ other, WrittenAs other text.toList ↔ other = source) ∧
      source = replaceAll ['\r'] ['\n'] (replaceAll ['\r', '\n'] ['\n'] text.toList) ∧
      '\r' ∉ source ∧
      loadSource path (.file (String.ofList source).toUTF8) = .ok source) ∧
    ∀ s : String, '\r' ∉ s.toList →
      (∀ (path : String) (b : LineBreak),
        loadSource path (.file (b.write s).toUTF8) = .ok s.toList) ∧
      ∀ content args i, Invocation.read args = .ok i →
        ∃ code stdout stderr, ∀ b : LineBreak,
          run (Function.update content (normalPath i.file) (.file (b.write s).toUTF8)) args =
            { ending := .ok code, stdout, stderr } := by
  refine ⟨fun path text => ?_, fun s hs => ⟨?_, ?_⟩⟩
  · exact ⟨unifyBreaks text.toList, loadSource_of_text path text, fun other => writtenAs_iff,
      (replaceBreaks_eq_unifyBreaks text.toList).symm,
      return_not_mem_unifyBreaks text.toList, loadSource_again path text⟩
  · exact fun path b => loadSource_of_written path hs b
  · intro content args i hread
    rcases i.exists_exit s.toList with ⟨code, stdout, stderr, hexit⟩
    exact ⟨code, stdout, stderr, fun b => (run_of_written content hread hs b).trans hexit⟩

/-- A description with a fault in it, with line feeds alone. -/
def faultyLines : String :=
  ":Start:S :Terminals:a :NonTerminals:T\n:Rules:S->a b.\n T->EMPTY a."

theorem oneFile_eq_update (file text : String) :
    oneFile file text = Function.update (fun _ => .missing) file (.file text.toUTF8) := by
  funext path
  rw [oneFile, Function.update_apply]

theorem agree_faulty :
    loadSource "g.g" (.file "a\r\r\nb\n\rc".toUTF8) = .ok "a\n\nb\n\nc".toList ∧
    '\r' ∉ faultyLines.toList ∧
    ∃ outcome : Outcome, outcome.ending = .ok ExitCode.invalid ∧ outcome.stdout = "" ∧
      outcome.stderr = linesText
        ["ERROR: b was used in a rule alternate, but was not declared (2:8, rule #1)",
          "ERROR: EMPTY must be the only symbol of an alternate: T -> EMPTY a (3:2, rule #2)",
          "There were 2 errors"] ∧
      ∀ b : LineBreak, run (oneFile "g.g" (b.write faultyLines)) ["check", "--", "g.g"] =
        outcome := by
  rcases conventions_agree with ⟨hload, hruns⟩
  have hs : '\r' ∉ faultyLines.toList := by decide +kernel
  refine ⟨?_, hs, ?_⟩
  · rcases hload "g.g" "a\r\r\nb\n\rc" with ⟨source, hsource, _, hreplaced, _⟩
    rw [hsource, hreplaced]
    decide +kernel
  · have hread := Invocation.read_separated .check "g.g"
    have hpath : normalPath "g.g" = "g.g" := by decide +kernel
    rcases (hruns faultyLines hs).2 (fun _ => .missing) _ _ hread with ⟨code, stdout, stderr, hrun⟩
    simp only [hpath, ← oneFile_eq_update] at hrun
    -- one of the three runs shows the outcome
    refine ⟨run (oneFile "g.g" (LineBreak.lineFeed.write faultyLines)) ["check", "--", "g.g"],
      by decide +kernel, by decide +kernel, by decide +kernel, fun b => ?_⟩
    exact (hrun b).trans (hrun .lineFeed).symm

end CommandLine
end Lookahead
