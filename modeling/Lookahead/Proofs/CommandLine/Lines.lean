import Lookahead.CommandLine
import Lookahead.Proofs.Reading.Written
import Lookahead.Proofs.Validation.Findings

/-!
# Lines — reports line by line

Names hold no line breaks, of whatever convention, and the messages are made of names and fixed
words. So each finding takes one line of the report.

- `Text.Unbroken`: a text without a line break.
- `CommandLine.HasLines`: the lines of a text, each with its line feed.
- `Defect.mentions`, `Defect.unbroken_message`: the names in a message, and the message itself.
- `Description.unbroken_findings`: the findings about a description whose names are unbroken.
- `CommandLine.reportLines`, `CommandLine.hasLines_report`: the report on a text that was read.
-/

namespace Lookahead

/-! ## Texts on one line -/

namespace Text

/-- All characters that end a line in one convention or another, the line feed among them. -/
def lineBreaks : List Char :=
  ['\n', '\x0b', '\x0c', '\r', '\x1c', '\x1d', '\x1e', '\x85', '\u2028', '\u2029']

def Unbroken (s : String) : Prop :=
  ∀ c ∈ s.toList, c ∉ lineBreaks

instance (s : String) : Decidable (Unbroken s) :=
  List.decidableBAll (· ∉ lineBreaks) s.toList

variable {s t : String} {parts : List String}

@[simp]
theorem unbroken_append : Unbroken (s ++ t) ↔ Unbroken s ∧ Unbroken t := by
  simp [Unbroken, or_imp, forall_and]

theorem unbroken_intercalate (hs : Unbroken s) (hparts : ∀ t ∈ parts, Unbroken t) :
    Unbroken (s.intercalate parts) := by
  induction parts with
  | nil => simp [Unbroken]
  | cons t rest ih =>
      cases rest with
      | nil => simpa using hparts t (by simp)
      | cons u rest =>
          have hlater := ih fun t ht => hparts t (List.mem_cons_of_mem _ ht)
          rw [String.intercalate_cons_cons, unbroken_append, unbroken_append]
          exact ⟨⟨hparts t (by simp), hs⟩, hlater⟩

theorem unbroken_nat (n : Nat) : Unbroken (toString n) := by
  intro c hc hbreak
  rw [Nat.toString_eq_repr, Nat.repr, String.toList_ofList] at hc
  have hdigit : c.isDigit = true := Nat.isDigit_of_mem_toDigits (by decide) (by decide) hc
  have hnone : lineBreaks.all (fun b => !b.isDigit) = true := by decide
  simpa [hdigit] using List.all_eq_true.1 hnone c hbreak

theorem unbroken_int (i : Int) : Unbroken (toString i) := by
  cases i with
  | ofNat n => exact unbroken_nat n
  | negSucc n => exact unbroken_append.2 ⟨by decide, unbroken_nat (n + 1)⟩

theorem unbroken_of_isName (h : IsName s) : Unbroken s := by
  intro c hc hbreak
  have hnone : lineBreaks.all (fun b => !isNameChar b) = true := by decide +kernel
  have hname : isNameChar c = true := h.2 c hc
  simpa [hname] using List.all_eq_true.1 hnone c hbreak

end Text

open Text

/-! ## Messages -/

namespace Defect

/-- The names that `message` shows. -/
def mentions : Defect → List String
  | .misplacedEmptySymbol head alternate => head :: alternate
  | x => [x.name]

theorem unbroken_message (x : Defect) (h : ∀ n ∈ x.mentions, Unbroken n) : Unbroken x.message := by
  have hmeaning : ∀ n, Unbroken (meaning n) := by
    intro n
    unfold meaning
    split
    · decide +kernel
    · decide +kernel
  have hrole : ∀ r : Role, Unbroken r.text := by
    intro r
    cases r <;> decide +kernel
  -- names and such parts stand between fixed words, and one defect shows a whole alternate
  cases x with
  | misplacedEmptySymbol head alternate =>
      have hhead : Unbroken head := h head List.mem_cons_self
      have hlist : Unbroken (" ".intercalate alternate) :=
        unbroken_intercalate (by decide +kernel) fun n hn => h n (List.mem_cons_of_mem _ hn)
      unfold message
      simp only [unbroken_append, hhead, hlist, and_true]
      decide +kernel
  | _ =>
      have hname := h _ List.mem_cons_self
      simp only [name] at hname
      unfold message
      simp only [unbroken_append, hname, hmeaning, hrole, and_true, true_and]
      decide +kernel

end Defect

theorem Diagnostic.unbroken_text {x : Diagnostic} (h : Unbroken x.message) : Unbroken x.text := by
  have hplace : ∀ s : SourceSpan, Unbroken (toString s.line ++ ":" ++ toString s.column) :=
    fun s => by
      simp only [unbroken_append, unbroken_int, and_true, true_and]
      decide +kernel
  have hrule : ∀ i : Int, Unbroken ("rule #" ++ toString (i + 1)) := fun i => by
    simp only [unbroken_append, unbroken_int, and_true]
    decide +kernel
  have hlocation : Unbroken x.location := by
    refine unbroken_intercalate (by decide +kernel) fun part hpart => ?_
    rcases List.mem_append.1 hpart with hpart | hpart
    · rcases Option.map_eq_some_iff.1 (Option.mem_toList.1 hpart) with ⟨s, _, rfl⟩
      exact hplace s
    · rcases Option.map_eq_some_iff.1 (Option.mem_toList.1 hpart) with ⟨i, _, rfl⟩
      exact hrule i
  unfold text
  split
  · simp only [unbroken_append, h, hlocation, and_true, true_and]
    decide +kernel
  · exact h

/-! ## Findings -/

namespace Description

variable {d : Description} {x : Defect}

theorem mentions_refusal {role : Role} {terminals : List String} {n : String}
    (h : Validation.refusal? role terminals n = some x) : x.mentions = [n] := by
  unfold Validation.refusal? at h
  split at h
  · cases h
    rfl
  · split at h
    · cases h
      cases role <;> rfl
    · cases h

theorem mentions_declarationDefects (hx : x ∈ Validation.declarationDefects d) :
    ∀ n ∈ x.mentions, n ∈ d.mentions := by
  have hsingle : ∀ n ∈ d.mentions, x.mentions = [n] → ∀ n ∈ x.mentions, n ∈ d.mentions := by
    intro n hn hx
    rw [hx]
    exact List.forall_mem_singleton.2 hn
  rcases List.mem_append.1 hx with hx | hx
  · rcases List.mem_append.1 hx with hx | hx
    · rcases List.mem_filterMap.1 hx with ⟨n, hn, hrefused⟩
      exact hsingle n (by simp [mentions, hn]) (mentions_refusal hrefused)
    · rcases List.mem_filterMap.1 hx with ⟨n, hn, hrefused⟩
      exact hsingle n (by simp [mentions, hn]) (mentions_refusal hrefused)
  · exact hsingle d.start (by simp [mentions]) (mentions_refusal (Option.mem_toList.1 hx))

theorem mentions_ruleDefects {p : Production} (hx : x ∈ d.ruleDefects p) :
    ∀ n ∈ x.mentions, n ∈ p.head :: p.alternate := by
  have hhead : ∀ n ∈ [p.head], n ∈ p.head :: p.alternate :=
    List.forall_mem_singleton.2 List.mem_cons_self
  unfold ruleDefects at hx
  split at hx
  · rw [List.mem_singleton.1 hx]
    exact hhead
  split at hx
  · rw [List.mem_singleton.1 hx]
    exact hhead
  split at hx
  · rw [List.mem_singleton.1 hx]
    exact hhead
  -- behind a head that is a symbol come the defects of the alternate
  rcases List.mem_append.1 hx with hx | hx
  · rcases List.mem_append.1 hx with hx | hx
    · split at hx
      · rw [List.mem_singleton.1 hx]
        exact hhead
      · cases hx
    · rcases List.mem_map.1 hx with ⟨n, hn, rfl⟩
      exact List.forall_mem_singleton.2 (List.mem_cons_of_mem _ (List.mem_filter.1 hn).1)
  · split at hx
    · rw [List.mem_singleton.1 hx]
      exact fun n hn => hn
    · cases hx

theorem mem_of_mem_examined {index : Nat} {ps : List Production} {entry : Production × Nat}
    (h : entry ∈ d.examined index ps) : entry.1 ∈ ps := by
  rcases List.mem_append.1 h with h | h
  · exact List.fst_mem_of_mem_zipIdx ((List.takeWhile_sublist _).subset h)
  · exact List.fst_mem_of_mem_zipIdx ((List.dropWhile_sublist _).subset (List.mem_of_mem_take h))

/-- The message of each finding of `d` is that of a `Defect` whose `mentions` are all among
`d.mentions`. -/
theorem exists_defect {f : Diagnostic} (hf : f ∈ d.findings) :
    ∃ x : Defect, f.message = x.message ∧ ∀ n ∈ x.mentions, n ∈ d.mentions := by
  -- a finding is about a declaration, about a rule or about the start symbol
  rcases List.mem_append.1 hf with hf | hf
  · rcases List.mem_append.1 hf with hf | hf
    · rcases List.mem_map.1 hf with ⟨x, hx, rfl⟩
      exact ⟨x, rfl, mentions_declarationDefects hx⟩
    · rcases List.mem_flatMap.1 hf with ⟨entry, hentry, hf⟩
      rcases List.mem_map.1 hf with ⟨x, hx, rfl⟩
      have hp : entry.1 ∈ d.productions := mem_of_mem_examined hentry
      refine ⟨x, rfl, fun n hn => List.mem_append_right _ ?_⟩
      exact List.mem_flatMap.2 ⟨entry.1, hp, mentions_ruleDefects hx n hn⟩
  · have hstart : d.start ∈ d.mentions := by simp [mentions]
    split at hf
    · cases hf
    · rw [List.mem_singleton.1 hf]
      exact ⟨.startSymbolHasNoRule d.start, rfl, List.forall_mem_singleton.2 hstart⟩

theorem unbroken_findings (hd : ∀ n ∈ d.mentions, Unbroken n) {f : Diagnostic}
    (hf : f ∈ d.findings) : Unbroken f.text := by
  rcases exists_defect hf with ⟨x, hmessage, hmentions⟩
  refine Diagnostic.unbroken_text ?_
  rw [hmessage]
  exact x.unbroken_message fun n hn => hd n (hmentions n hn)

end Description

/-! ## Reports -/

namespace CommandLine

/-- Splitting `text` at its line feeds gives `lines` and nothing behind the last line feed, and each
line is `Unbroken`. -/
def HasLines (text : String) (lines : List String) : Prop :=
  text.toList.splitOn '\n' = lines.map String.toList ++ [[]] ∧ ∀ line ∈ lines, Unbroken line

theorem linesText_append (lines lines' : List String) :
    linesText (lines ++ lines') = linesText lines ++ linesText lines' := by
  simp [linesText]

theorem hasLines_linesText {lines : List String} (h : ∀ line ∈ lines, Unbroken line) :
    HasLines (linesText lines) lines := by
  refine ⟨?_, h⟩
  induction lines with
  | nil => simp [linesText]
  | cons line rest ih =>
      have hline : '\n' ∉ line.toList := fun hmem => h line (by simp) '\n' hmem (by decide)
      have hlater := ih fun t ht => h t (List.mem_cons_of_mem _ ht)
      have htext : (linesText (line :: rest)).toList =
          line.toList ++ '\n' :: (linesText rest).toList := by
        simp [linesText]
      rw [htext, List.splitOn_append_cons_self_of_not_mem hline, hlater]
      rfl

theorem linesText_cons_ne_empty (line : String) (rest : List String) :
    linesText (line :: rest) ≠ "" := by
  simp [linesText]

/-- In `linesText`, nonempty `lines` joined by line feeds count as one line or as several. -/
theorem linesText_intercalate {lines : List String} (h : lines ≠ []) :
    linesText [String.intercalate "\n" lines] = linesText lines := by
  induction lines with
  | nil => exact absurd rfl h
  | cons line rest ih =>
      cases rest with
      | nil => simp [linesText]
      | cons next rest =>
          have hlater := ih (List.cons_ne_nil next rest)
          simp only [linesText, List.map_cons, List.map_nil, String.join_cons] at hlater ⊢
          rw [← hlater, String.intercalate_cons_cons]
          simp [String.append_assoc]

/-- The lines of the report on `found`: an `ERROR: ` line for each finding, in order, and their
number. -/
def reportLines (found : Diagnostics) : List String :=
  found.map (fun x => "ERROR: " ++ x.text) ++ ["There were " ++ toString found.length ++ " errors"]

/-- If `source` was read as `d`, the report on `d.findings` consists of `reportLines d.findings`. -/
theorem hasLines_report {source : List Char} {d : Description}
    (h : Description.read source = .ok d) :
    HasLines (linesText [Diagnostics.text d.findings]) (reportLines d.findings) := by
  have hnames : ∀ n ∈ d.mentions, Unbroken n := fun n hn =>
    unbroken_of_isName (Description.isName_of_read h n hn)
  have hlines : ∀ line ∈ reportLines d.findings, Unbroken line := by
    intro line hline
    rcases List.mem_append.1 hline with hline | hline
    · rcases List.mem_map.1 hline with ⟨f, hf, rfl⟩
      exact unbroken_append.2 ⟨by decide +kernel, Description.unbroken_findings hnames hf⟩
    · rw [List.mem_singleton.1 hline]
      simp only [unbroken_append, unbroken_nat, and_true]
      decide +kernel
  have htext : linesText [Diagnostics.text d.findings] = linesText (reportLines d.findings) :=
    linesText_intercalate (by simp)
  rw [htext]
  exact hasLines_linesText hlines

end CommandLine
end Lookahead
