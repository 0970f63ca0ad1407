import Lookahead.Description.Reader
import Lookahead.Proofs.Reading.Scanner
import Lookahead.Proofs.Chains

/-!
# Reader — what the reader takes from the tokens

A step of the reader succeeds exactly if the words that the format asks for stand at the front of
the tokens, and it takes all of them.

- `Reads`: some words at the front of the tokens, and the tokens behind them.
- `Reader.names_eq_ok_iff`, `production_sound`, `production_complete`, `productions_sound`,
  `productions_complete`: the steps.
- `Reader.production_cases`, `Reader.parts_cases`: what a step that succeeds has read.
- `Reader.parts_sound`, `Reader.parts_complete`: a whole description.
- `Description.read_iff_hasWords`: a text reads as a complete description exactly if it has the words
  of that description.
-/

namespace Lookahead

/-! ## Descriptions without places -/

/-- `p` without its `span`. -/
def Production.withoutSpan (p : Production) : Production :=
  { p with span := none }

def Description.withoutSpans (d : Description) : Description :=
  { d with productions := d.productions.map Production.withoutSpan }

/-! ## Arrows and dots -/

namespace Word

/-- `w` is the only spelled word with the kind `w.kind`. -/
def Sole (w : Word) : Prop :=
  ∀ v : Word, v.Spelled → v.kind = w.kind → v = w

theorem sole_arrow : arrow.Sole := by
  rintro ⟨kind, text⟩ hv rfl
  have htext : text = "->" := String.toList_inj.1 hv
  rw [htext]
  rfl

theorem sole_dot : dot.Sole := by
  rintro ⟨kind, text⟩ hv rfl
  have htext : text = "." := String.toList_inj.1 hv
  rw [htext]
  rfl

end Word

/-! ## Words at the front -/

/-- `ts` begins with tokens that have the words `ws`, and `rest` is behind them. -/
def Reads (ts : List Token) (ws : List Word) (rest : List Token) : Prop :=
  ∃ before, ts = before ++ rest ∧ before.map Token.word = ws

variable {ts rest middle : List Token} {ws ws' : List Word} {t : Token}

namespace Reads

theorem refl (ts : List Token) : Reads ts [] ts :=
  ⟨[], rfl, rfl⟩

theorem nil_iff : Reads ts [] rest ↔ ts = rest := by
  constructor
  · rintro ⟨before, rfl, hwords⟩
    simp [List.map_eq_nil_iff.1 hwords]
  · rintro rfl
    exact refl ts

theorem append (h : Reads ts ws middle) (h' : Reads middle ws' rest) :
    Reads ts (ws ++ ws') rest := by
  rcases h with ⟨before, rfl, rfl⟩
  rcases h' with ⟨before', rfl, rfl⟩
  exact ⟨before ++ before', by simp, by simp⟩

theorem append_iff : Reads ts (ws ++ ws') rest ↔ ∃ middle, Reads ts ws middle ∧
    Reads middle ws' rest := by
  constructor
  · rintro ⟨before, rfl, hwords⟩
    rcases List.map_eq_append_iff.1 hwords with ⟨first, second, rfl, rfl, rfl⟩
    exact ⟨second ++ rest, ⟨first, by simp, rfl⟩, ⟨second, rfl, rfl⟩⟩
  · rintro ⟨middle, h, h'⟩
    exact h.append h'

theorem single (t : Token) (rest : List Token) : Reads (t :: rest) [t.word] rest :=
  ⟨[t], rfl, rfl⟩

theorem single_iff {w : Word} : Reads ts [w] rest ↔ ∃ t, t.word = w ∧ ts = t :: rest := by
  constructor
  · rintro ⟨before, rfl, hwords⟩
    rcases List.map_eq_singleton_iff.1 hwords with ⟨t, rfl, ht⟩
    exact ⟨t, ht, rfl⟩
  · rintro ⟨t, rfl, rfl⟩
    exact single t rest

theorem cons_iff {w : Word} : Reads ts (w :: ws) rest ↔
    ∃ t middle, t.word = w ∧ ts = t :: middle ∧ Reads middle ws rest := by
  constructor
  · intro h
    rcases append_iff.1 (show Reads ts ([w] ++ ws) rest from h) with ⟨middle, hfirst, hrest⟩
    rcases single_iff.1 hfirst with ⟨t, ht, rfl⟩
    exact ⟨t, middle, ht, rfl, hrest⟩
  · rintro ⟨t, middle, rfl, rfl, h⟩
    exact (single t middle).append h

theorem nil_right_iff : Reads ts ws [] ↔ ts.map Token.word = ws := by
  constructor
  · rintro ⟨before, rfl, rfl⟩
    simp
  · intro h
    exact ⟨ts, by simp, h⟩

/-- If the words of `ts` are spelled, so are those of the `rest`. -/
theorem spelled (h : Reads ts ws rest) (hts : ∀ t ∈ ts, t.word.Spelled) :
    ∀ t ∈ rest, t.word.Spelled := by
  rcases h with ⟨before, rfl, _⟩
  intro t ht
  exact hts t (List.mem_append_right before ht)

end Reads

/-- The first of `ts`, if there is one, is no name. -/
def NoName (ts : List Token) : Prop :=
  ∀ t ∈ ts.head?, Reader.isName t = false

/-! ## Steps -/

namespace Reader

variable {kind : TokenKind} {expected : Expected} {part : Part} {names' : List String}
variable {p : Production} {ps : List Production} {d : Description}

theorem word_of_name (h : t.kind = .name) : t.word = Word.name t.lexeme := by
  simp [Token.word, Word.name, h]

theorem expect_eq_ok_iff :
    expect kind expected ts = .ok (t, rest) ↔ t.kind = kind ∧ ts = t :: rest := by
  cases ts with
  | nil => simp [expect]
  | cons u us =>
      by_cases hkind : u.kind = kind
      · constructor
        · intro h
          simp only [expect, hkind, if_true, Except.ok.injEq, Prod.mk.injEq] at h
          exact ⟨h.1 ▸ hkind, by simp [h]⟩
        · rintro ⟨_, heq⟩
          cases heq
          simp [expect, hkind]
      · constructor
        · intro h
          simp [expect, hkind] at h
        · rintro ⟨ht, heq⟩
          cases heq
          exact absurd ht hkind

theorem expect_complete {w : Word} (hkind : w.kind = kind) (h : Reads ts [w] rest) :
    ∃ t, t.word = w ∧ ∀ expected, expect kind expected ts = .ok (t, rest) := by
  rcases Reads.single_iff.1 h with ⟨t, rfl, rfl⟩
  exact ⟨t, rfl, fun _ => expect_eq_ok_iff.2 ⟨hkind, rfl⟩⟩

theorem expect_name (h : expect .name expected ts = .ok (t, rest)) :
    Reads ts [Word.name t.lexeme] rest := by
  rcases expect_eq_ok_iff.1 h with ⟨hkind, rfl⟩
  exact word_of_name hkind ▸ Reads.single t rest

theorem expectLabel_eq_ok_iff :
    expectLabel part ts = .ok rest ↔ Reads ts [Word.label part] rest := by
  rw [Reads.single_iff]
  cases ts with
  | nil => simp [expectLabel]
  | cons u us =>
      by_cases hword : u.kind = .label ∧ u.lexeme = part.label
      · simp [expectLabel, hword, Token.word, Word.label]
      · simp only [expectLabel, hword, if_false, List.cons.injEq, reduceCtorEq, false_iff]
        rintro ⟨t, ht, rfl, _⟩
        simp only [Token.word, Word.label, Word.mk.injEq] at ht
        exact hword ht

theorem map_word_of_names (h : ∀ t ∈ ts, isName t = true) :
    ts.map Token.word = (ts.map Token.lexeme).map Word.name := by
  simp only [List.map_map, List.map_inj_left]
  intro t ht
  exact word_of_name (by simpa [isName] using h t ht)

theorem noName_dropWhile (ts : List Token) : NoName (ts.dropWhile isName) := by
  intro t ht
  have hstop := List.head?_dropWhile_not isName ts
  simpa [Option.mem_def.1 ht] using hstop

/-- `names ts` gives `names'` exactly if `ts` begins with these names, at least one, and `rest` with
something else. -/
theorem names_eq_ok_iff : names ts = .ok (names', rest) ↔
    names' ≠ [] ∧ Reads ts (names'.map Word.name) rest ∧ NoName rest := by
  constructor
  · intro h
    rcases bind_eq_ok_iff.1 h with ⟨⟨first, behind⟩, hfirst, hrest⟩
    rcases expect_eq_ok_iff.1 hfirst with ⟨hname, rfl⟩
    cases hrest
    refine ⟨by simp, ⟨first :: behind.takeWhile isName, by simp, ?_⟩, noName_dropWhile behind⟩
    have hnames := map_word_of_names (List.all_eq_true.1 (List.all_takeWhile (l := behind)))
    simpa [word_of_name hname] using hnames
  · rintro ⟨hne, ⟨before, rfl, hwords⟩, hrest⟩
    have hall : ∀ t ∈ before, isName t = true := by
      intro t ht
      have hmem : t.word ∈ names'.map Word.name := hwords ▸ List.mem_map_of_mem ht
      rcases List.mem_map.1 hmem with ⟨n, _, hn⟩
      have hkind : t.kind = .name := congrArg Word.kind hn.symm
      simp [isName, hkind]
    have hlexemes : before.map Token.lexeme = names' := by
      have htexts := congrArg (List.map Word.text) hwords
      simpa [Function.comp_def, Token.word, Word.name] using htexts
    cases before with
    | nil => exact absurd hlexemes.symm hne
    | cons first others =>
        -- the first name is asked for, the others are taken as long as they go on
        have hname : first.kind = .name := by simpa [isName] using hall first List.mem_cons_self
        have hothers : ∀ t ∈ others, isName t = true :=
          fun t ht => hall t (List.mem_cons_of_mem first ht)
        have hspan := span_append_of_boundary hothers hrest
        refine bind_eq_ok_iff.2 ⟨(first, others ++ rest), expect_eq_ok_iff.2 ⟨hname, rfl⟩, ?_⟩
        simp [hspan, ← hlexemes, pure, Except.pure]

/-- If a dot is the first of `ts`, then `NoName ts`. -/
theorem noName_of_dot (h : Reads ts [Word.dot] rest) : NoName ts := by
  rcases Reads.single_iff.1 h with ⟨t, ht, rfl⟩
  have hkind : t.kind = .dot := congrArg Word.kind ht
  simp [NoName, isName, hkind]

theorem words_production (p : Production) :
    p.words = [Word.name p.head] ++ [Word.arrow] ++ p.alternate.map Word.name ++ [Word.dot] := by
  simp [Production.words]

/-- If `production ts` gives `p`, then `ts` begins with the head, the arrow, the names and the dot
of `p`, and `p.span` reaches from the `start` of `head` to the `stop` of `dot`. -/
theorem production_cases (h : production ts = .ok (p, rest)) :
    ∃ head arrow between dot, ts = head :: arrow :: (between ++ dot :: rest) ∧
      head.kind = .name ∧ arrow.kind = .arrow ∧ dot.kind = .dot ∧ p.alternate ≠ [] ∧
      head.lexeme = p.head ∧ between.map Token.word = p.alternate.map Word.name ∧
      p.span = some ⟨head.start.offset, dot.stop, head.start.line, head.start.column⟩ := by
  rcases bind_eq_ok_iff.1 h with ⟨⟨head, ts₁⟩, hhead, h₁⟩
  rcases bind_eq_ok_iff.1 h₁ with ⟨⟨arrow, ts₂⟩, harrow, h₂⟩
  rcases bind_eq_ok_iff.1 h₂ with ⟨⟨alternate, ts₃⟩, hnames, h₃⟩
  rcases bind_eq_ok_iff.1 h₃ with ⟨⟨dot, ts₄⟩, hdot, h₄⟩
  cases h₄
  rcases expect_eq_ok_iff.1 hhead with ⟨hname, rfl⟩
  rcases expect_eq_ok_iff.1 harrow with ⟨harrowKind, rfl⟩
  rcases expect_eq_ok_iff.1 hdot with ⟨hdotKind, rfl⟩
  rcases names_eq_ok_iff.1 hnames with ⟨hne, ⟨between, rfl, hwords⟩, _⟩
  exact ⟨head, arrow, between, dot, rfl, hname, harrowKind, hdotKind, hne, rfl, hwords, rfl⟩

theorem production_sound (hts : ∀ t ∈ ts, t.word.Spelled) (h : production ts = .ok (p, rest)) :
    p.alternate ≠ [] ∧ Reads ts p.words rest := by
  rcases production_cases h with
    ⟨head, arrow, between, dot, rfl, hhead, harrow, hdot, hne, hlexeme, hbetween, _⟩
  -- an arrow or a dot is known by its kind
  have hto : arrow.word = Word.arrow := Word.sole_arrow _ (hts arrow (by simp)) harrow
  have hend : dot.word = Word.dot := Word.sole_dot _ (hts dot (by simp)) hdot
  refine ⟨hne, head :: arrow :: (between ++ [dot]), by simp, ?_⟩
  simp [words_production, word_of_name hhead, hlexeme, hto, hbetween, hend]

theorem production_complete (hp : p.alternate ≠ []) (h : Reads ts p.words rest) :
    ∃ p', production ts = .ok (p', rest) ∧ p'.withoutSpan = p.withoutSpan := by
  rw [words_production] at h
  -- the words are cut from behind; `tsₖ` is what the step number `k` leaves
  rcases Reads.append_iff.1 h with ⟨ts₃, h₃, hdot⟩
  rcases Reads.append_iff.1 h₃ with ⟨ts₂, h₂, hnames⟩
  rcases Reads.append_iff.1 h₂ with ⟨ts₁, hname, harrow⟩
  rcases expect_complete rfl hname with ⟨head, hword, hhead⟩
  rcases expect_complete rfl harrow with ⟨arrow, _, harrow⟩
  have halternate := names_eq_ok_iff.2 ⟨hp, hnames, noName_of_dot hdot⟩
  rcases expect_complete rfl hdot with ⟨dot, _, hdot⟩
  have hlexeme : head.lexeme = p.head := congrArg Word.text hword
  let span : SourceSpan := ⟨head.start.offset, dot.stop, head.start.line, head.start.column⟩
  refine ⟨⟨head.lexeme, p.alternate, some span⟩, ?_, ?_⟩
  · refine bind_eq_ok_iff.2 ⟨(head, ts₁), hhead .head, ?_⟩
    refine bind_eq_ok_iff.2 ⟨(arrow, ts₂), harrow .arrow, ?_⟩
    refine bind_eq_ok_iff.2 ⟨(p.alternate, ts₃), halternate, ?_⟩
    exact bind_eq_ok_iff.2 ⟨(dot, rest), hdot .dot, rfl⟩
  · simp [Production.withoutSpan, hlexeme]

/-! ## Several productions -/

theorem head?_any_isName_iff : rest.head?.any isName = true ↔ ¬NoName rest := by
  cases rest with
  | nil => simp [NoName]
  | cons t rest => simp [NoName]

theorem productions_of_noName (hp : production ts = .ok (p, rest)) (hrest : NoName rest) :
    productions ts = .ok ([p], rest) := by
  have hstop : rest.head?.any isName = false :=
    Bool.eq_false_iff.2 fun hname => head?_any_isName_iff.1 hname hrest
  rw [productions]
  split
  · simp_all
  · simp_all

theorem productions_of_name (hp : production ts = .ok (p, middle)) (hmiddle : ¬NoName middle)
    (hlater : productions middle = .ok (ps, rest)) : productions ts = .ok (p :: ps, rest) := by
  have hmore : middle.head?.any isName = true := head?_any_isName_iff.2 hmiddle
  rw [productions]
  split
  · simp_all
  · simp_all

theorem productions_sound (hts : ∀ t ∈ ts, t.word.Spelled)
    (h : productions ts = .ok (ps, rest)) :
    (ps ≠ [] ∧ ∀ p ∈ ps, p.alternate ≠ []) ∧ Reads ts (ps.flatMap Production.words) rest ∧
      NoName rest := by
  fun_induction productions ts generalizing ps with
  | case1 ts e hfirst => cases h
  | case2 ts p middle hfirst hname e hlater ih => cases h
  | case3 ts p middle hfirst hname later rest' hlater ih =>
      cases h
      rcases production_sound hts hfirst with ⟨hp, hreads⟩
      rcases ih (hreads.spelled hts) hlater with ⟨⟨_, hall⟩, hmore, hend⟩
      refine ⟨⟨by simp, ?_⟩, ?_, hend⟩
      · simpa [hp] using hall
      · simpa using hreads.append hmore
  | case4 ts p middle hfirst hname =>
      cases h
      rcases production_sound hts hfirst with ⟨hp, hreads⟩
      refine ⟨⟨by simp, ?_⟩, ?_, ?_⟩
      · simpa using hp
      · simpa using hreads
      · simpa [head?_any_isName_iff] using hname

theorem productions_complete (hne : ps ≠ []) (hps : ∀ p ∈ ps, p.alternate ≠ [])
    (h : Reads ts (ps.flatMap Production.words) rest) (hrest : NoName rest) :
    ∃ ps', productions ts = .ok (ps', rest) ∧
      ps'.map Production.withoutSpan = ps.map Production.withoutSpan := by
  induction ps generalizing ts with
  | nil => exact absurd rfl hne
  | cons p later ih =>
      rcases Reads.append_iff.1 (List.flatMap_cons ▸ h) with ⟨middle, hfirst, hlater⟩
      rcases production_complete (hps p List.mem_cons_self) hfirst with ⟨p', hp', hsame⟩
      cases later with
      | nil =>
          have heq : middle = rest := Reads.nil_iff.1 hlater
          subst heq
          exact ⟨[p'], productions_of_noName hp' hrest, by simp [hsame]⟩
      | cons q later =>
          -- the head of the next production follows
          have hname : ¬NoName middle := by
            rcases Reads.cons_iff.1 hlater with ⟨t, _, ht, rfl, _⟩
            have hkind : t.kind = .name := congrArg Word.kind ht
            simp [NoName, isName, hkind]
          have hothers : ∀ r ∈ q :: later, r.alternate ≠ [] :=
            fun r hr => hps r (List.mem_cons_of_mem p hr)
          rcases ih (List.cons_ne_nil q later) hothers hlater with ⟨later', hread, hlaterSame⟩
          refine ⟨p' :: later', productions_of_name hp' hname hread, ?_⟩
          simp only [List.map_cons, hsame, hlaterSame]

/-! ## A whole description -/

theorem words_description (d : Description) :
    d.words = [Word.label .start] ++ [Word.name d.start] ++ [Word.label .terminals] ++
      d.terminals.map Word.name ++ [Word.label .nonTerminals] ++ d.nonTerminals.map Word.name ++
      [Word.label .rules] ++ d.productions.flatMap Production.words := by
  simp [Description.words]

/-- If `parts ts` gives `d`, then `ts` begins with the words of `d` up to the label of the rules,
and `productions behind` gives `d.productions`. -/
theorem parts_cases (h : parts ts = .ok (d, rest)) :
    d.terminals ≠ [] ∧ d.nonTerminals ≠ [] ∧ ∃ behind,
      Reads ts ([Word.label .start] ++ [Word.name d.start] ++ [Word.label .terminals] ++
        d.terminals.map Word.name ++ [Word.label .nonTerminals] ++ d.nonTerminals.map Word.name ++
        [Word.label .rules]) behind ∧
      productions behind = .ok (d.productions, rest) := by
  -- `tsₖ` is what the step number `k` leaves
  rcases bind_eq_ok_iff.1 h with ⟨ts₁, hstart, h₁⟩
  rcases bind_eq_ok_iff.1 h₁ with ⟨⟨start, ts₂⟩, hname, h₂⟩
  rcases bind_eq_ok_iff.1 h₂ with ⟨ts₃, hterminals, h₃⟩
  rcases bind_eq_ok_iff.1 h₃ with ⟨⟨terminals, ts₄⟩, hfirst, h₄⟩
  rcases bind_eq_ok_iff.1 h₄ with ⟨ts₅, hnonTerminals, h₅⟩
  rcases bind_eq_ok_iff.1 h₅ with ⟨⟨nonTerminals, ts₆⟩, hsecond, h₆⟩
  rcases bind_eq_ok_iff.1 h₆ with ⟨ts₇, hrules, h₇⟩
  rcases bind_eq_ok_iff.1 h₇ with ⟨⟨ps, ts₈⟩, hps, h₈⟩
  cases h₈
  rcases names_eq_ok_iff.1 hfirst with ⟨hsomeTerminal, hfirstReads, _⟩
  rcases names_eq_ok_iff.1 hsecond with ⟨hsomeNonTerminal, hsecondReads, _⟩
  have hstartPart := (expectLabel_eq_ok_iff.1 hstart).append (expect_name hname)
  have hterminalPart :=
    (hstartPart.append (expectLabel_eq_ok_iff.1 hterminals)).append hfirstReads
  have hnonTerminalPart :=
    (hterminalPart.append (expectLabel_eq_ok_iff.1 hnonTerminals)).append hsecondReads
  have hbefore := hnonTerminalPart.append (expectLabel_eq_ok_iff.1 hrules)
  exact ⟨hsomeTerminal, hsomeNonTerminal, ts₇, hbefore, hps⟩

theorem parts_sound (hts : ∀ t ∈ ts, t.word.Spelled) (h : parts ts = .ok (d, rest)) :
    d.Complete ∧ Reads ts d.words rest := by
  rcases parts_cases h with ⟨hsomeTerminal, hsomeNonTerminal, behind, hbefore, hps⟩
  rcases productions_sound (hbefore.spelled hts) hps with ⟨⟨hsomeRule, hnamed⟩, hreads, _⟩
  refine ⟨⟨hsomeTerminal, hsomeNonTerminal, hsomeRule, hnamed⟩, ?_⟩
  exact words_description _ ▸ hbefore.append hreads

/-- If a label is the first of `ts`, then `NoName ts`. -/
theorem noName_of_label (h : Reads ts [Word.label part] rest) : NoName ts := by
  rcases Reads.single_iff.1 h with ⟨t, ht, rfl⟩
  have hkind : t.kind = .label := congrArg Word.kind ht
  simp [NoName, isName, hkind]

theorem parts_complete (hd : d.Complete) (h : ts.map Token.word = d.words) :
    ∃ d', parts ts = .ok (d', []) ∧ d'.withoutSpans = d.withoutSpans := by
  rcases hd with ⟨hsomeTerminal, hsomeNonTerminal, hsomeRule, hnamed⟩
  have hreads : Reads ts d.words [] := Reads.nil_right_iff.2 h
  rw [words_description] at hreads
  -- the words are cut from behind; `tsₖ` is what the step number `k` leaves
  rcases Reads.append_iff.1 hreads with ⟨ts₇, h₇, hps⟩
  rcases Reads.append_iff.1 h₇ with ⟨ts₆, h₆, hrules⟩
  rcases Reads.append_iff.1 h₆ with ⟨ts₅, h₅, hsecond⟩
  rcases Reads.append_iff.1 h₅ with ⟨ts₄, h₄, hnonTerminals⟩
  rcases Reads.append_iff.1 h₄ with ⟨ts₃, h₃, hfirst⟩
  rcases Reads.append_iff.1 h₃ with ⟨ts₂, h₂, hterminals⟩
  rcases Reads.append_iff.1 h₂ with ⟨ts₁, hstart, hname⟩
  rcases expect_complete rfl hname with ⟨start, hword, hnameRead⟩
  have hfirstRead := names_eq_ok_iff.2 ⟨hsomeTerminal, hfirst, noName_of_label hnonTerminals⟩
  have hsecondRead := names_eq_ok_iff.2 ⟨hsomeNonTerminal, hsecond, noName_of_label hrules⟩
  have hend : NoName [] := by simp [NoName]
  rcases productions_complete hsomeRule hnamed hps hend with ⟨ps, hpsRead, hsame⟩
  have hlexeme : start.lexeme = d.start := congrArg Word.text hword
  refine ⟨⟨start.lexeme, d.terminals, d.nonTerminals, ps⟩, ?_, ?_⟩
  · refine bind_eq_ok_iff.2 ⟨ts₁, expectLabel_eq_ok_iff.2 hstart, ?_⟩
    refine bind_eq_ok_iff.2 ⟨(start, ts₂), hnameRead .startName, ?_⟩
    refine bind_eq_ok_iff.2 ⟨ts₃, expectLabel_eq_ok_iff.2 hterminals, ?_⟩
    refine bind_eq_ok_iff.2 ⟨(d.terminals, ts₄), hfirstRead, ?_⟩
    refine bind_eq_ok_iff.2 ⟨ts₅, expectLabel_eq_ok_iff.2 hnonTerminals, ?_⟩
    refine bind_eq_ok_iff.2 ⟨(d.nonTerminals, ts₆), hsecondRead, ?_⟩
    refine bind_eq_ok_iff.2 ⟨ts₇, expectLabel_eq_ok_iff.2 hrules, ?_⟩
    exact bind_eq_ok_iff.2 ⟨(ps, []), hpsRead, rfl⟩
  · simp [Description.withoutSpans, hlexeme, hsame]

end Reader

/-! ## Texts -/

variable {s : TokenStream} {d : Description} {source : List Char}

theorem TokenStream.description_eq_ok_iff :
    s.description = .ok d ↔ Reader.parts s.tokens = .ok (d, []) := by
  unfold TokenStream.description
  split
  · next h => simp [h]
  · next h => simp [h]
  · next h => simp [h]
  · next h => simp [h]

theorem Description.read_eq_ok_iff :
    Description.read source = .ok d ↔
      ∃ s, TokenStream.scan source = .ok s ∧ Reader.parts s.tokens = .ok (d, []) := by
  unfold Description.read
  split
  · next h => simp [h]
  · next h => simp [h, TokenStream.description_eq_ok_iff]

@[simp]
theorem Production.words_withoutSpan (p : Production) : p.withoutSpan.words = p.words :=
  rfl

namespace Description

theorem words_withoutSpans (d : Description) : d.withoutSpans.words = d.words := by
  simp [withoutSpans, words, List.flatMap_map]

theorem complete_withoutSpans : d.withoutSpans.Complete ↔ d.Complete := by
  simp [withoutSpans, Complete, Production.withoutSpan]

theorem sound_of_read (h : Description.read source = .ok d) :
    d.Complete ∧ HasWords source d.words := by
  rcases read_eq_ok_iff.1 h with ⟨s, hscan, hparts⟩
  have hspelled : ∀ t ∈ s.tokens, t.word.Spelled := by
    intro t ht
    exact HasWords.spelled ⟨s, hscan, rfl⟩ t.word (List.mem_map_of_mem ht)
  rcases Reader.parts_sound hspelled hparts with ⟨hd, hreads⟩
  exact ⟨hd, s, hscan, Reads.nil_right_iff.1 hreads⟩

theorem read_of_hasWords (hd : d.Complete) (h : HasWords source d.words) :
    ∃ d', Description.read source = .ok d' ∧ d'.withoutSpans = d.withoutSpans := by
  rcases h with ⟨s, hscan, hwords⟩
  rcases Reader.parts_complete hd hwords with ⟨d', hparts, hsame⟩
  exact ⟨d', read_eq_ok_iff.2 ⟨s, hscan, hparts⟩, hsame⟩

/-- Up to spans, `source` is read as `d` exactly if `d` is complete and `source` has the words
`d.words`. -/
theorem read_iff_hasWords :
    (∃ d', Description.read source = .ok d' ∧ d'.withoutSpans = d.withoutSpans) ↔
      d.Complete ∧ HasWords source d.words := by
  constructor
  · rintro ⟨d', hread, hsame⟩
    rcases sound_of_read hread with ⟨hcomplete, hwords⟩
    rw [← complete_withoutSpans, hsame, complete_withoutSpans] at hcomplete
    rw [← words_withoutSpans, hsame, words_withoutSpans] at hwords
    exact ⟨hcomplete, hwords⟩
  · rintro ⟨hd, hwords⟩
    exact read_of_hasWords hd hwords

end Description

end Lookahead
