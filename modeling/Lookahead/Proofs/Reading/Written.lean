import Lookahead.Proofs.Reading.Layout
import Lookahead.Proofs.Reading.Reader

/-!
# Written — descriptions that are written and read again

- `IsName`: the texts that can stand for a symbol.
- `Description.read_of_laidOut`: whatever the layout, a description that is written out is read
  again.
- `Description.laidOut_text`: writing one part a line is a layout.
-/

namespace Lookahead

/-! ## Names -/

/-- `n` is a nonempty run of name characters. -/
def IsName (n : String) : Prop :=
  n ≠ "" ∧ ∀ c ∈ n.toList, Text.isNameChar c = true

/-- All names in `d`, as often as they occur. -/
def Description.mentions (d : Description) : List String :=
  d.start :: d.terminals ++ d.nonTerminals ++ d.productions.flatMap fun p => p.head :: p.alternate

namespace Word

theorem spelled_label (p : Part) : (label p).Spelled := by
  cases p with
  | start => exact ⟨"Start".toList, by decide, by decide, List.all_eq_true.1 (by decide)⟩
  | terminals => exact ⟨"Terminals".toList, by decide, by decide, List.all_eq_true.1 (by decide)⟩
  | nonTerminals => exact ⟨"NonTerminals".toList, by decide, by decide, List.all_eq_true.1 (by decide)⟩
  | rules => exact ⟨"Rules".toList, by decide, by decide, List.all_eq_true.1 (by decide)⟩

theorem spelled_name_iff {n : String} : (name n).Spelled ↔ IsName n := by
  simp [Spelled, name, LexemeKind.Admits, IsName]

theorem spelled_arrow : arrow.Spelled := by
  show "->".toList = ['-', '>']
  decide

theorem spelled_dot : dot.Spelled := by
  show ".".toList = ['.']
  decide

end Word

namespace Description

variable {d : Description} {source : List Char}

theorem spelled_words_iff : (∀ w ∈ d.words, w.Spelled) ↔ ∀ n ∈ d.mentions, IsName n := by
  rw [Reader.words_description]
  simp only [mentions, Reader.words_production, List.forall_mem_append, List.forall_mem_cons,
    List.forall_mem_flatMap, List.forall_mem_map, List.not_mem_nil, IsEmpty.forall_iff,
    implies_true, and_true, Word.spelled_label, Word.spelled_arrow, Word.spelled_dot,
    Word.spelled_name_iff, true_and, and_assoc]

theorem isName_of_read (h : Description.read source = .ok d) : ∀ n ∈ d.mentions, IsName n :=
  spelled_words_iff.1 (sound_of_read h).2.spelled

/-- If `d` is complete and its names can be spelled, then from any `source` that lays out `d.words`,
`d` is read again, up to spans. -/
theorem read_of_laidOut (hd : d.Complete) (hnames : ∀ n ∈ d.mentions, IsName n)
    (h : LaidOut d.words source) :
    ∃ d', Description.read source = .ok d' ∧ d'.withoutSpans = d.withoutSpans := by
  have hwords : HasWords source d.words := h.hasWords (spelled_words_iff.2 hnames)
  exact read_of_hasWords hd hwords

/-- One rule, `S -> a S .`, for every place where a word can end. -/
def chain : Description where
  start := "S"
  terminals := ["a"]
  nonTerminals := ["S"]
  productions := [⟨"S", ["a", "S"], none⟩]

/-- The words of `chain`, with only a comment `#->` between the two names of the alternate. -/
def chainSource : List Char :=
  "#.\n:Start:S:Terminals:a:NonTerminals:S:Rules:S->a#->\nS.#".toList

theorem laidOut_chain : LaidOut chain.words chainSource := by
  have hfirst : Filler ['#', '.', '\n'] := @Filler.comment ['.'] [] (by decide) Filler.nil
  have hgap : Filler ['#', '-', '>', '\n'] := @Filler.comment ['-', '>'] [] (by decide) Filler.nil
  have hlast : LastFiller ['#'] := @LastFiller.unclosed [] [] Filler.nil (by decide)
  refine ⟨_, _, hfirst, ?_, rfl⟩
  -- word by word, up to the two names that need the comment between them
  refine Layout.tight (by decide) (Layout.tight (by decide) ?_)
  refine Layout.tight (by decide) (Layout.tight (by decide) ?_)
  refine Layout.tight (by decide) (Layout.tight (by decide) ?_)
  refine Layout.tight (by decide) (Layout.tight (by decide) (Layout.tight (by decide) ?_))
  refine Layout.cons hgap (fun _ _ => List.cons_ne_nil _ _) ?_
  exact Layout.tight (by decide) (Layout.tight (by decide) (Layout.nil hlast))

theorem read_chain :
    chain.Complete ∧ (∀ n ∈ chain.mentions, IsName n) ∧
      LaidOut chain.words chainSource ∧
      ∃ d', Description.read chainSource = .ok d' ∧ d'.withoutSpans = chain.withoutSpans := by
  have hcomplete : chain.Complete := by simp [chain, Complete]
  have hnames : ∀ n ∈ chain.mentions, IsName n := by
    simp [chain, mentions, IsName]
    decide
  exact ⟨hcomplete, hnames, laidOut_chain, read_of_laidOut hcomplete hnames laidOut_chain⟩

end Description

/-! ## One part a line -/

/-- `ws` with a blank between each two. -/
def spaced (ws : List Word) : List Char :=
  List.intercalate [' '] (ws.map fun w => w.text.toList)

theorem spaced_singleton (w : Word) : spaced [w] = w.text.toList := by
  simp [spaced, List.intercalate_singleton]

theorem spaced_cons_cons (w v : Word) (ws : List Word) :
    spaced (w :: v :: ws) = w.text.toList ++ ([' '] ++ spaced (v :: ws)) := by
  simp [spaced, List.intercalate_cons_cons]

variable {ws more : List Word} {gap text : List Char}

theorem spaced_append (hws : ws ≠ []) (hmore : more ≠ []) :
    spaced (ws ++ more) = spaced ws ++ ([' '] ++ spaced more) := by
  induction ws with
  | nil => exact absurd rfl hws
  | cons w later ih =>
      cases later with
      | nil =>
          rcases List.exists_cons_of_ne_nil hmore with ⟨v, rest, rfl⟩
          simpa [spaced_singleton] using spaced_cons_cons w v rest
      | cons v later =>
          have hrest := ih (List.cons_ne_nil v later)
          simp only [List.cons_append] at hrest ⊢
          simp [spaced_cons_cons, hrest]

theorem spaced_names (names : List String) :
    spaced (names.map Word.name) = (String.intercalate " " names).toList := by
  simp [spaced, Word.name, Function.comp_def]

/-- `spaced ws`, some filler `gap` and a layout of `more` are a layout of `ws ++ more`. The `gap`
must not be empty if there are `more` words. -/
theorem Layout.line (hgap : Filler gap) (hmore : more ≠ [] → gap ≠ []) (h : Layout more text)
    (hws : ws ≠ []) : Layout (ws ++ more) (spaced ws ++ (gap ++ text)) := by
  induction ws with
  | nil => exact absurd rfl hws
  | cons w later ih =>
      cases later with
      | nil =>
          rw [spaced_singleton]
          -- behind the last word of the line comes the gap, behind the others a blank
          refine Layout.cons hgap ?_ h
          rintro _ ⟨next, hnext, _⟩
          exact hmore fun hnil => by simp [hnil] at hnext
      | cons v later =>
          have hblank : Filler [' '] := Filler.blank (by decide) Filler.nil
          have hrest := ih (List.cons_ne_nil v later)
          rw [spaced_cons_cons]
          simpa using Layout.cons hblank (fun _ _ => List.cons_ne_nil ' ' []) hrest

theorem layout_lines {lines : List (List Word)} (h : ∀ line ∈ lines, line ≠ []) :
    Layout lines.flatten (List.intercalate ['\n'] (lines.map spaced)) := by
  induction lines with
  | nil => exact Layout.nil (LastFiller.closed Filler.nil)
  | cons line later ih =>
      have hline : line ≠ [] := h line List.mem_cons_self
      have hrest := ih fun l hl => h l (List.mem_cons_of_mem line hl)
      cases later with
      | nil => simpa [List.intercalate_singleton] using Layout.line Filler.nil (by simp) hrest hline
      | cons next later =>
          have hbreak : Filler ['\n'] := Filler.newline Filler.nil
          have hall := Layout.line hbreak (fun _ => List.cons_ne_nil '\n' []) hrest hline
          simpa [List.intercalate_cons_cons] using hall

namespace Description

variable {d : Description}

def lines (d : Description) : List (List Word) :=
  [[Word.label .start, Word.name d.start],
    Word.label .terminals :: d.terminals.map Word.name,
    Word.label .nonTerminals :: d.nonTerminals.map Word.name,
    [Word.label .rules]] ++ d.productions.map Production.words

theorem flatten_lines (d : Description) : d.lines.flatten = d.words := by
  simp [lines, words, List.flatMap_def]

theorem spaced_part (p : Part) {names : List String} (h : names ≠ []) :
    spaced (Word.label p :: names.map Word.name) =
      (p.label ++ " " ++ String.intercalate " " names).toList := by
  have hnames : names.map Word.name ≠ [] := by simpa using h
  have happend := spaced_append (List.cons_ne_nil (Word.label p) []) hnames
  simpa [spaced_singleton, spaced_names, Word.label] using happend

theorem spaced_production {p : Production} (h : p.alternate ≠ []) :
    spaced p.words = p.text.toList := by
  have hnames : p.alternate.map Word.name ≠ [] := by simpa using h
  have hhead := spaced_append (List.cons_ne_nil (Word.name p.head) [])
    (List.cons_ne_nil Word.arrow [])
  have hbody := spaced_append (List.append_ne_nil_of_left_ne_nil
    (List.cons_ne_nil (Word.name p.head) []) [Word.arrow]) hnames
  have hall := spaced_append (List.append_ne_nil_of_right_ne_nil
    ([Word.name p.head] ++ [Word.arrow]) hnames) (List.cons_ne_nil Word.dot [])
  rw [Reader.words_production, hall, hbody, hhead]
  simp [spaced_singleton, spaced_names, Word.name, Word.arrow, Word.dot, Production.text]

theorem toList_text (hd : d.Complete) :
    d.text.toList = List.intercalate ['\n'] (d.lines.map spaced) := by
  rcases hd with ⟨hterminals, hnonTerminals, _, hnamed⟩
  have hrules : d.productions.map (spaced ∘ Production.words) =
      d.productions.map (String.toList ∘ Production.text) :=
    List.map_congr_left fun p hp => spaced_production (hnamed p hp)
  have hstart := spaced_part .start (List.cons_ne_nil d.start [])
  have hlabel : spaced [Word.label .rules] = (Part.label .rules).toList := spaced_singleton _
  rw [List.map_singleton] at hstart
  simp [text, lines, hstart, hlabel, spaced_part _ hterminals, spaced_part _ hnonTerminals, hrules]

theorem laidOut_text (hd : d.Complete) : LaidOut d.words d.text.toList := by
  have hlines : ∀ line ∈ d.lines, line ≠ [] := by
    simp [lines, Production.words]
  have hlayout := layout_lines hlines
  rw [flatten_lines, ← toList_text hd] at hlayout
  exact ⟨[], d.text.toList, Filler.nil, hlayout, rfl⟩

end Description

end Lookahead
