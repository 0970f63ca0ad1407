import Lookahead.Proofs.Reading.Failure
import Mathlib.Computability.Language

/-!
# Format — the texts that hold a description

The format is a regular language over the kinds of words, in which labels count by their text as
well.

- `Format.sentences`: that language.
- `Format.mem_sentences_iff`: among words that can be spelled, it has those of complete descriptions.
- `Description.read_decides_format`: exactly the texts of the format are read, and what is read has
  the words of the text.
-/

open scoped Computability

namespace Lookahead
namespace Format

variable {ws : List Word}

/-! ## The language -/

/-- The one-word sentences `[w]` with `w.kind = kind`. -/
def ofKind (kind : TokenKind) : Language Word :=
  {ws | ∃ w, w.kind = kind ∧ ws = [w]}

def label (part : Part) : Language Word :=
  {ws | ∃ w, w.kind = .label ∧ w.text = part.label ∧ ws = [w]}

def oneOrMore (l : Language Word) : Language Word :=
  l * l∗

def rule : Language Word :=
  ofKind .name * ofKind .arrow * oneOrMore (ofKind .name) * ofKind .dot

/-- The format as a language of words: the four parts in order, each behind its label. -/
def sentences : Language Word :=
  label .start * ofKind .name * label .terminals * oneOrMore (ofKind .name) *
    label .nonTerminals * oneOrMore (ofKind .name) * label .rules * oneOrMore rule

/-! ## Its words -/

theorem mem_label_iff {part : Part} : ws ∈ label part ↔ ws = [Word.label part] := by
  constructor
  · rintro ⟨⟨kind, text⟩, hkind, htext, rfl⟩
    simp only at hkind htext
    rw [Word.label, hkind, htext]
  · intro h
    exact ⟨Word.label part, rfl, rfl, h⟩

theorem mem_name_iff : ws ∈ ofKind .name ↔ ∃ n, ws = [Word.name n] := by
  constructor
  · rintro ⟨⟨kind, text⟩, hkind, rfl⟩
    simp only at hkind
    exact ⟨text, by rw [Word.name, hkind]⟩
  · rintro ⟨n, rfl⟩
    exact ⟨Word.name n, rfl, rfl⟩

/-- If `w.Sole`, then `[w]` is the only spelled sentence of `ofKind w.kind`. -/
theorem mem_ofKind_iff {w : Word} (hw : w.Sole) (hws : ∀ w ∈ ws, w.Spelled) :
    ws ∈ ofKind w.kind ↔ ws = [w] := by
  constructor
  · rintro ⟨v, hkind, rfl⟩
    rw [hw v (hws v (List.mem_singleton_self v)) hkind]
  · intro h
    exact ⟨w, rfl, h⟩

section Repetition

variable {α : Type} {l : Language Word} {P : α → Prop} {f : α → List Word}

theorem mem_kstar_iff
    (hl : ∀ ws, (∀ w ∈ ws, Word.Spelled w) → (ws ∈ l ↔ ∃ a, P a ∧ ws = f a))
    (hws : ∀ w ∈ ws, w.Spelled) :
    ws ∈ l∗ ↔ ∃ as : List α, (∀ a ∈ as, P a) ∧ ws = as.flatMap f := by
  constructor
  · intro h
    rcases Language.mem_kstar.1 h with ⟨chunks, rfl, hchunks⟩
    -- `h` speaks of all chunks and would stand in the way of the induction
    clear h
    induction chunks with
    | nil => exact ⟨[], by simp, rfl⟩
    | cons chunk chunks ih =>
        simp only [List.flatten_cons, List.forall_mem_append] at hws
        have hlater : ∀ y ∈ chunks, y ∈ l := fun y hy => hchunks y (List.mem_cons_of_mem chunk hy)
        rcases (hl chunk hws.1).1 (hchunks chunk List.mem_cons_self) with ⟨a, ha, rfl⟩
        rcases ih hlater hws.2 with ⟨as, has, heq⟩
        refine ⟨a :: as, ?_, by simp [heq]⟩
        simpa [ha] using has
  · rintro ⟨as, has, rfl⟩
    refine Language.mem_kstar.2 ⟨as.map f, List.flatMap_def, ?_⟩
    intro y hy
    rcases List.mem_map.1 hy with ⟨a, ha, rfl⟩
    have hspelled : ∀ w ∈ f a, w.Spelled :=
      fun w hw => hws w (List.mem_flatMap.2 ⟨a, ha, hw⟩)
    exact (hl (f a) hspelled).2 ⟨a, has a ha, rfl⟩

theorem mem_oneOrMore_iff
    (hl : ∀ ws, (∀ w ∈ ws, Word.Spelled w) → (ws ∈ l ↔ ∃ a, P a ∧ ws = f a))
    (hws : ∀ w ∈ ws, w.Spelled) :
    ws ∈ oneOrMore l ↔ ∃ as : List α, as ≠ [] ∧ (∀ a ∈ as, P a) ∧ ws = as.flatMap f := by
  constructor
  · rintro ⟨first, hfirst, later, hlater, rfl⟩
    rcases List.forall_mem_append.1 hws with ⟨hspelled, hspelled'⟩
    rcases (hl first hspelled).1 hfirst with ⟨a, ha, rfl⟩
    rcases (mem_kstar_iff hl hspelled').1 hlater with ⟨as, has, rfl⟩
    refine ⟨a :: as, List.cons_ne_nil a as, ?_, by simp⟩
    simpa [ha] using has
  · rintro ⟨as, hne, has, rfl⟩
    rcases List.exists_cons_of_ne_nil hne with ⟨a, later, rfl⟩
    rw [List.flatMap_cons, List.forall_mem_append] at hws
    have hfirst := (hl (f a) hws.1).2 ⟨a, has a List.mem_cons_self, rfl⟩
    have hlater := (mem_kstar_iff hl hws.2).2
      ⟨later, fun b hb => has b (List.mem_cons_of_mem a hb), rfl⟩
    exact ⟨f a, hfirst, later.flatMap f, hlater, by simp⟩

end Repetition

theorem mem_names_iff (hws : ∀ w ∈ ws, w.Spelled) :
    ws ∈ oneOrMore (ofKind .name) ↔ ∃ ns : List String, ns ≠ [] ∧ ws = ns.map Word.name := by
  have hname : ∀ ws, (∀ w ∈ ws, Word.Spelled w) →
      (ws ∈ ofKind .name ↔ ∃ n : String, True ∧ ws = [Word.name n]) := by
    intro ws _
    simpa using mem_name_iff
  simpa [List.map_eq_flatMap] using mem_oneOrMore_iff hname hws

theorem mem_rule_iff (hws : ∀ w ∈ ws, w.Spelled) :
    ws ∈ rule ↔ ∃ p : Production, p.alternate ≠ [] ∧ ws = p.words := by
  constructor
  · intro h
    -- the product is associated to the left, so its parts come off from behind
    rcases h with ⟨_, h, dot, hdot, rfl⟩
    rcases h with ⟨_, h, alternate, halternate, rfl⟩
    rcases h with ⟨head, hhead, arrow, harrow, rfl⟩
    simp only [List.forall_mem_append] at hws
    rcases hws with ⟨⟨⟨_, harrows⟩, hnames⟩, hdots⟩
    rcases mem_name_iff.1 hhead with ⟨name, rfl⟩
    rcases (mem_names_iff hnames).1 halternate with ⟨names, hne, rfl⟩
    cases (mem_ofKind_iff Word.sole_arrow harrows).1 harrow
    cases (mem_ofKind_iff Word.sole_dot hdots).1 hdot
    exact ⟨⟨name, names, none⟩, hne, (Reader.words_production ⟨name, names, none⟩).symm⟩
  · rintro ⟨p, hne, rfl⟩
    rw [Reader.words_production] at hws ⊢
    simp only [List.forall_mem_append] at hws
    rcases hws with ⟨⟨⟨_, harrows⟩, hnames⟩, hdots⟩
    have hhead : [Word.name p.head] ∈ ofKind .name := mem_name_iff.2 ⟨p.head, rfl⟩
    have harrow := (mem_ofKind_iff Word.sole_arrow harrows).2 rfl
    have hdot := (mem_ofKind_iff Word.sole_dot hdots).2 rfl
    have hfront := Language.append_mem_mul hhead harrow
    have halternate := (mem_names_iff hnames).2 ⟨p.alternate, hne, rfl⟩
    have hbody := Language.append_mem_mul hfront halternate
    exact Language.append_mem_mul hbody hdot

theorem mem_rules_iff (hws : ∀ w ∈ ws, w.Spelled) :
    ws ∈ oneOrMore rule ↔ ∃ ps : List Production, ps ≠ [] ∧ (∀ p ∈ ps, p.alternate ≠ []) ∧
      ws = ps.flatMap Production.words :=
  mem_oneOrMore_iff (fun _ => mem_rule_iff) hws

/-- On spelled words, `sentences` has exactly the words of the complete descriptions. -/
theorem mem_sentences_iff (hws : ∀ w ∈ ws, w.Spelled) :
    ws ∈ sentences ↔ Description.IsSentence ws := by
  constructor
  · intro h
    -- the product is associated to the left, so its parts come off from behind
    rcases h with ⟨_, h, rules, hrules, rfl⟩
    rcases h with ⟨_, h, rulesLabel, hrulesLabel, rfl⟩
    rcases h with ⟨_, h, nonTerminals, hnonTerminals, rfl⟩
    rcases h with ⟨_, h, nonTerminalsLabel, hnonTerminalsLabel, rfl⟩
    rcases h with ⟨_, h, terminals, hterminals, rfl⟩
    rcases h with ⟨_, h, terminalsLabel, hterminalsLabel, rfl⟩
    rcases h with ⟨startLabel, hstartLabel, start, hstart, rfl⟩
    simp only [List.forall_mem_append] at hws
    rcases hws with ⟨⟨⟨⟨⟨_, hterminalNames⟩, _⟩, hnonTerminalNames⟩, _⟩, hruleWords⟩
    rcases mem_name_iff.1 hstart with ⟨startName, rfl⟩
    rcases (mem_names_iff hterminalNames).1 hterminals with ⟨ts, hts, rfl⟩
    rcases (mem_names_iff hnonTerminalNames).1 hnonTerminals with ⟨ns, hns, rfl⟩
    rcases (mem_rules_iff hruleWords).1 hrules with ⟨ps, hps, hnamed, rfl⟩
    cases mem_label_iff.1 hstartLabel
    cases mem_label_iff.1 hterminalsLabel
    cases mem_label_iff.1 hnonTerminalsLabel
    cases mem_label_iff.1 hrulesLabel
    exact ⟨⟨startName, ts, ns, ps⟩, ⟨hts, hns, hps, hnamed⟩,
      (Reader.words_description ⟨startName, ts, ns, ps⟩).symm⟩
  · rintro ⟨d, ⟨hts, hns, hps, hnamed⟩, rfl⟩
    rw [Reader.words_description] at hws ⊢
    simp only [List.forall_mem_append] at hws
    rcases hws with ⟨⟨⟨⟨⟨_, hterminalNames⟩, _⟩, hnonTerminalNames⟩, _⟩, hruleWords⟩
    have hname : [Word.name d.start] ∈ ofKind .name := mem_name_iff.2 ⟨d.start, rfl⟩
    have hlabel (part : Part) : [Word.label part] ∈ label part := mem_label_iff.2 rfl
    -- and they are put together again from the front
    have hstart := Language.append_mem_mul (hlabel .start) hname
    have hterminals := Language.append_mem_mul
      (Language.append_mem_mul hstart (hlabel .terminals))
      ((mem_names_iff hterminalNames).2 ⟨d.terminals, hts, rfl⟩)
    have hnonTerminals := Language.append_mem_mul
      (Language.append_mem_mul hterminals (hlabel .nonTerminals))
      ((mem_names_iff hnonTerminalNames).2 ⟨d.nonTerminals, hns, rfl⟩)
    exact Language.append_mem_mul
      (Language.append_mem_mul hnonTerminals (hlabel .rules))
      ((mem_rules_iff hruleWords).2 ⟨d.productions, hps, hnamed, rfl⟩)

end Format

/-! ## Reading -/

variable {source : List Char}

theorem Description.exists_read_iff :
    (∃ d, Description.read source = .ok d) ↔
      ∃ s, TokenStream.scan source = .ok s ∧ IsSentence (s.tokens.map Token.word) := by
  constructor
  · rintro ⟨d, hread⟩
    rcases sound_of_read hread with ⟨hd, s, hscan, hwords⟩
    exact ⟨s, hscan, d, hd, hwords⟩
  · rintro ⟨s, hscan, d, hd, hwords⟩
    rcases read_of_hasWords hd ⟨s, hscan, hwords⟩ with ⟨d', hread, _⟩
    exact ⟨d', hread⟩

/-- `Description.read` succeeds exactly if `source` is scanned and its words are in
`Format.sentences`. Up to spans, what is read is the `d` with these words, `d.words`; and a failure
points into `source`. -/
theorem Description.read_decides_format (source : List Char) :
    ((∃ d, Description.read source = .ok d) ↔
        ∃ s, TokenStream.scan source = .ok s ∧
          s.tokens.map Token.word ∈ Format.sentences) ∧
      (∀ d : Description,
        (∃ d', Description.read source = .ok d' ∧ d'.withoutSpans = d.withoutSpans) ↔
          d.Complete ∧ ∃ s, TokenStream.scan source = .ok s ∧
            s.tokens.map Token.word = d.words) ∧
      ((¬∃ d, Description.read source = .ok d) ↔
        ∃ e, Description.read source = .error e ∧ e.PointsInto source) := by
  refine ⟨?_, fun d => read_iff_hasWords, ?_⟩
  · rw [exists_read_iff]
    refine exists_congr fun s => and_congr_right fun hscan => ?_
    exact (Format.mem_sentences_iff (HasWords.spelled ⟨s, hscan, rfl⟩)).symm
  · constructor
    · intro h
      cases hread : Description.read source with
      | ok d => exact absurd ⟨d, hread⟩ h
      | error e => exact ⟨e, rfl, pointsInto_of_read hread⟩
    · rintro ⟨e, he, _⟩ ⟨d, hd⟩
      rw [he] at hd
      cases hd

end Lookahead
