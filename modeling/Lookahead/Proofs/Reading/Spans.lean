import Lookahead.Proofs.Reading.Carets
import Mathlib.Data.List.Forall2

/-!
# Spans — rules cut out of their text

A rule reaches from the token of its head to its dot. The scan looks behind a piece only to see that
it ends there, so that the part of a text that some pieces make up is scanned as it was in the whole.

- `lexemes_part`: pieces in a row, found again in the part that they make up.
- `TokenStream.scan_part`: the same for tokens, from the first to the last of some in a row.
- `Production.Spans`: the tokens of a rule, and the span that it was given.
- `Reader.productions_spans`, `Description.spans_of_read`: the rules share out the tokens.
- `Production.Cut`: two offsets between which the text is a rule.
- `Description.spans_cut_source`: spans cut the text at its rules, with nothing but filler between.
-/

namespace Lookahead

open Text

variable {source rest : List Char} {pieces before inner after : List Lexeme} {l : Lexeme}

/-! ## Pieces in a row -/

/-- If a lexeme can end in front of `rest ++ more`, it can end in front of `rest`. -/
theorem LexemeKind.EndsAt.of_append {kind : LexemeKind} {more : List Char}
    (h : kind.EndsAt (rest ++ more)) : kind.EndsAt rest := by
  have hhead : ∀ c ∈ rest.head?, c ∈ (rest ++ more).head? := by
    cases rest with
    | nil => simp
    | cons c rest => simp
  cases kind with
  | blank => exact fun c hc => h c (hhead c hc)
  | newline => trivial
  | comment => exact fun c hc => h c (hhead c hc)
  | token kind =>
      cases kind with
      | name => exact fun c hc => h c (hhead c hc)
      | label => trivial
      | arrow => trivial
      | dot => trivial

theorem next?_of_lexemes_cons (h : lexemes source = (l :: pieces, rest)) :
    ∃ behind, Lexeme.next? source = some (l, behind) ∧ lexemes behind = (pieces, rest) := by
  cases hnext : Lexeme.next? source with
  | none =>
      rw [lexemes_of_next?_eq_none hnext] at h
      cases h
  | some found =>
      rw [lexemes_of_next?_eq_some hnext] at h
      cases h
      exact ⟨found.2, rfl, rfl⟩

/-- If `lexemes source` begins with `before`, then the other `pieces` are the lexemes of some text
`behind`. -/
theorem lexemes_behind (h : lexemes source = (before ++ pieces, rest)) :
    ∃ behind, lexemes behind = (pieces, rest) := by
  induction before generalizing source with
  | nil => exact ⟨source, h⟩
  | cons l before ih =>
      rcases next?_of_lexemes_cons h with ⟨behind, _, hbehind⟩
      exact ih hbehind

/-- If `lexemes source` begins with `inner`, these are all the lexemes of the part that they make
up. -/
theorem lexemes_front (h : lexemes source = (inner ++ after, rest)) :
    lexemes (inner.flatMap Lexeme.text) = (inner, []) := by
  induction inner generalizing source with
  | nil => exact lexemes_of_next?_eq_none rfl
  | cons l inner ih =>
      rw [List.cons_append] at h
      rcases next?_of_lexemes_cons h with ⟨behind, hnext, hbehind⟩
      rcases Lexeme.next?_eq_some_iff.1 hnext with ⟨_, hadmits, hends⟩
      -- the first piece ends where the others begin, whatever comes behind these
      have hwhole := text_lexemes behind
      rw [hbehind, List.flatMap_append, List.append_assoc] at hwhole
      rw [← hwhole] at hends
      have hfirst : Lexeme.next? (l.text ++ inner.flatMap Lexeme.text) =
          some (l, inner.flatMap Lexeme.text) :=
        Lexeme.next?_eq_some_iff.2 ⟨rfl, hadmits, hends.of_append⟩
      rw [List.flatMap_cons, lexemes_of_next?_eq_some hfirst, ih hbehind]

theorem lexemes_part (h : lexemes source = (before ++ (inner ++ after), rest)) :
    lexemes (inner.flatMap Lexeme.text) = (inner, []) := by
  rcases lexemes_behind h with ⟨behind, hbehind⟩
  exact lexemes_front hbehind

/-! ## Tokens in a row -/

/-- `t` as a lexeme. -/
def Token.piece (t : Token) : Lexeme :=
  ⟨.token t.kind, t.lexeme.toList⟩

/-- `l` as a token at `place`, if it is one. -/
def Lexeme.tokenAt? (place : Position) (l : Lexeme) : Option Token :=
  match l.kind with
  | .token kind => some ⟨kind, String.ofList l.text, place⟩
  | _ => none

theorem Lexeme.tokenAt?_eq_some {place : Position} {t : Token} (h : l.tokenAt? place = some t) :
    l = t.piece ∧ place = t.start := by
  rcases l with ⟨kind, text⟩
  cases kind with
  | token kind =>
      cases h
      simp [Token.piece]
  | blank => cases h
  | newline => cases h
  | comment => cases h

theorem Token.tokenAt?_piece (t : Token) (place : Position) :
    t.piece.tokenAt? place = some ⟨t.kind, t.lexeme, place⟩ := by
  simp [piece, Lexeme.tokenAt?]

namespace TokenStream

variable {place : Position} {s : TokenStream} {t first last : Token} {ts us middle : List Token}

theorem tokensFrom_cons (place : Position) (l : Lexeme) (pieces : List Lexeme) :
    tokensFrom place (l :: pieces) =
      (l.tokenAt? place).toList ++ tokensFrom (Lexeme.placeBehind place l) pieces := by
  rcases l with ⟨kind, text⟩
  cases kind <;> rfl

theorem tokensFrom_append (place : Position) (before after : List Lexeme) :
    tokensFrom place (before ++ after) =
      tokensFrom place before ++ tokensFrom (before.foldl Lexeme.placeBehind place) after := by
  induction before generalizing place with
  | nil => rfl
  | cons l before ih => simp [tokensFrom_cons, ih]

/-- `pieces` move the offset by the length of their text. -/
theorem offset_placeBehind (place : Position) (pieces : List Lexeme) :
    (pieces.foldl Lexeme.placeBehind place).offset =
      place.offset + (pieces.flatMap Lexeme.text).length := by
  induction pieces generalizing place with
  | nil => rfl
  | cons l pieces ih =>
      have hone : (Lexeme.placeBehind place l).offset = place.offset + l.text.length := by
        unfold Lexeme.placeBehind
        split <;> rfl
      rw [List.foldl_cons, ih, hone, List.flatMap_cons, List.length_append, Nat.add_assoc]

/-- If `pieces` have the tokens `ts ++ t :: us`, then they have `t.piece` between the pieces of `ts`
and those of `us`, and `t.start` is the place behind the former. -/
theorem exists_piece (h : tokensFrom place pieces = ts ++ t :: us) :
    ∃ before after, pieces = before ++ t.piece :: after ∧ tokensFrom place before = ts ∧
      before.foldl Lexeme.placeBehind place = t.start ∧
      tokensFrom (Lexeme.placeBehind t.start t.piece) after = us := by
  induction pieces generalizing place ts with
  | nil => simp [tokensFrom] at h
  | cons l pieces ih =>
      rw [tokensFrom_cons] at h
      cases htoken : l.tokenAt? place with
      | none =>
          -- filler in front of the token
          rw [htoken] at h
          rcases ih h with ⟨before, after, rfl, hbefore, hplace, hafter⟩
          refine ⟨l :: before, after, rfl, ?_, hplace, hafter⟩
          rw [tokensFrom_cons, htoken, hbefore]
          rfl
      | some u =>
          -- the token itself, or one in front of it
          rcases Lexeme.tokenAt?_eq_some htoken with ⟨rfl, rfl⟩
          rw [htoken] at h
          cases ts with
          | nil =>
              cases h
              exact ⟨[], pieces, rfl, rfl, rfl, rfl⟩
          | cons v ts =>
              rcases List.cons.inj h with ⟨rfl, hlater⟩
              rcases ih hlater with ⟨before, after, rfl, hbefore, hplace, hafter⟩
              refine ⟨u.piece :: before, after, rfl, ?_, hplace, hafter⟩
              rw [tokensFrom_cons, htoken, hbefore]
              rfl

theorem scan_eq_ok_iff :
    scan source = .ok s ↔ ∃ pieces, lexemes source = (pieces, []) ∧
      s = ⟨tokensFrom {} pieces, pieces.foldl Lexeme.placeBehind {}⟩ := by
  rcases hlexemes : lexemes source with ⟨pieces, rest⟩
  cases rest with
  | nil => simp [scan, hlexemes, eq_comm]
  | cons c rest => simp [scan, hlexemes]

/-- The lexemes of `first`, of `last` and `between` them. -/
def row (first : Token) (between : List Lexeme) (last : Token) : List Lexeme :=
  first.piece :: (between ++ [last.piece])

theorem tokensFrom_row (place : Position) (first last : Token) (between : List Lexeme) :
    tokensFrom place (row first between last) =
      ⟨first.kind, first.lexeme, place⟩ ::
        (tokensFrom (Lexeme.placeBehind place first.piece) between ++
          [⟨last.kind, last.lexeme, (first.piece :: between).foldl Lexeme.placeBehind place⟩]) := by
  rw [row, tokensFrom_cons, tokensFrom_append, tokensFrom_cons, Token.tokenAt?_piece,
    Token.tokenAt?_piece]
  rfl

/-- The text of `row first between last` ends where the token `last` does. -/
theorem stop_row (place : Position) (first last : Token) (between : List Lexeme) :
    ((first.piece :: between).foldl Lexeme.placeBehind place).offset + last.lexeme.length =
      place.offset + ((row first between last).flatMap Lexeme.text).length := by
  have htext : (row first between last).flatMap Lexeme.text =
      (first.piece :: between).flatMap Lexeme.text ++ last.lexeme.toList := by
    simp [row, Token.piece]
  rw [offset_placeBehind, htext, List.length_append, String.length_toList, Nat.add_assoc]

/-- If `first :: (middle ++ [last])` are tokens of `source` in a row, then the lexemes of `source`
have a `row` with exactly these tokens, and it reaches from `first.start` to `last.stop`. -/
theorem exists_row (h : scan source = .ok s)
    (hs : s.tokens = ts ++ first :: (middle ++ last :: us)) :
    ∃ before between after, lexemes source = (before ++ (row first between last ++ after), []) ∧
      tokensFrom first.start (row first between last) = first :: (middle ++ [last]) ∧
      first.start.offset = (before.flatMap Lexeme.text).length ∧
      last.stop = first.start.offset +
        ((row first between last).flatMap Lexeme.text).length := by
  rcases scan_eq_ok_iff.1 h with ⟨pieces, hlexemes, rfl⟩
  rcases exists_piece hs with ⟨before, behind, rfl, _, hfirst, hbehind⟩
  rcases exists_piece hbehind with ⟨between, after, rfl, hbetween, hlast, _⟩
  refine ⟨before, between, after, ?_, ?_, ?_, ?_⟩
  · simpa [row] using hlexemes
  · rw [tokensFrom_row, hbetween, List.foldl_cons, hlast]
  · rw [← hfirst, offset_placeBehind, Nat.zero_add]
  · rw [← stop_row, List.foldl_cons, hlast, Token.stop]

/-- If `first :: (middle ++ [last])` are tokens of `source` in a row, then the part of `source` from
`first.start` to `last.stop` is scanned by itself into tokens with the same words, from its offset
`0` to its end. -/
theorem scan_part (h : scan source = .ok s)
    (hs : s.tokens = ts ++ first :: (middle ++ last :: us)) :
    ∃ part, scan (source.extract first.start.offset last.stop) = .ok part ∧
      part.tokens.map Token.word = (first :: (middle ++ [last])).map Token.word ∧
      part.tokens.head?.map Token.start = some {} ∧
      part.tokens.getLast?.map Token.stop = some (last.stop - first.start.offset) ∧
      part.stop.offset = last.stop - first.start.offset := by
  rcases exists_row h hs with ⟨before, between, after, hlexemes, htokens, hfirst, hlast⟩
  have hsource : source = before.flatMap Lexeme.text ++
      ((row first between last).flatMap Lexeme.text ++ after.flatMap Lexeme.text) := by
    have hwhole := text_lexemes source
    rw [hlexemes] at hwhole
    simpa using hwhole.symm
  have hwidth : last.stop - first.start.offset =
      ((row first between last).flatMap Lexeme.text).length := by
    rw [hlast, Nat.add_sub_cancel_left]
  -- the slice between the two offsets is the text of the row
  have hslice : source.extract first.start.offset last.stop =
      (row first between last).flatMap Lexeme.text := by
    rw [List.extract_eq_take_drop, hwidth, hfirst, hsource, List.drop_left, List.take_left]
  have hpart : scan (source.extract first.start.offset last.stop) =
      .ok ⟨tokensFrom {} (row first between last),
        (row first between last).foldl Lexeme.placeBehind {}⟩ :=
    scan_eq_ok_iff.2 ⟨_, hslice ▸ lexemes_part hlexemes, rfl⟩
  refine ⟨_, hpart, ?_, ?_, ?_, ?_⟩
  · -- the words of pieces do not depend on where they stand
    rw [map_word_tokensFrom, ← htokens, map_word_tokensFrom]
  · rw [tokensFrom_row]
    rfl
  · have hend := stop_row {} first last between
    rw [tokensFrom_row, ← List.cons_append, List.getLast?_concat, hwidth]
    simpa [Token.stop] using hend
  · rw [hwidth, offset_placeBehind, Nat.zero_add]

end TokenStream

/-! ## Tokens of rules -/

/-- `ts` has the words of `p`, and `p.span` reaches from the first of `ts` to the last. -/
def Production.Spans (p : Production) (ts : List Token) : Prop :=
  ts.map Token.word = p.words ∧ ∃ head middle dot, ts = head :: (middle ++ [dot]) ∧
    p.span = some ⟨head.start.offset, dot.stop, head.start.line, head.start.column⟩

namespace Reader

variable {ts rest : List Token} {p : Production} {ps : List Production} {d : Description}

theorem production_spans (hts : ∀ t ∈ ts, t.word.Spelled) (h : production ts = .ok (p, rest)) :
    ∃ own, ts = own ++ rest ∧ p.Spans own := by
  rcases production_sound hts h with ⟨_, own, htokens, hwords⟩
  rcases production_cases h with ⟨head, arrow, between, dot, hrow, _, _, _, _, _, _, hspan⟩
  have hown : own = head :: ((arrow :: between) ++ [dot]) := by
    apply (List.append_left_inj rest).1
    simpa using htokens.symm.trans hrow
  exact ⟨own, htokens, hwords, head, arrow :: between, dot, hown, hspan⟩

/-- `productions ts` shares out the tokens in front of `rest`, so that each production `Spans` its
own. -/
theorem productions_spans (hts : ∀ t ∈ ts, t.word.Spelled)
    (h : productions ts = .ok (ps, rest)) :
    ∃ shares, ts = shares.flatten ++ rest ∧ List.Forall₂ Production.Spans ps shares := by
  fun_induction productions ts generalizing ps with
  | case1 ts e hfirst => cases h
  | case2 ts p middle hfirst hname e hlater ih => cases h
  | case3 ts p middle hfirst hname later rest' hlater ih =>
      cases h
      rcases production_spans hts hfirst with ⟨own, rfl, hown⟩
      have hmiddle : ∀ t ∈ middle, t.word.Spelled :=
        fun t ht => hts t (List.mem_append_right own ht)
      rcases ih hmiddle hlater with ⟨shares, rfl, hshares⟩
      exact ⟨own :: shares, by simp, .cons hown hshares⟩
  | case4 ts p middle hfirst hname =>
      cases h
      rcases production_spans hts hfirst with ⟨own, rfl, hown⟩
      exact ⟨[own], by simp, .cons hown .nil⟩

end Reader

/-! ## Texts of rules -/

variable {s : TokenStream} {d : Description}

/-- If `d` was read, the tokens of `source` are some tokens `before` and then the `shares` of the
rules, and each production `Spans` its share. -/
theorem Description.spans_of_read (h : Description.read source = .ok d) :
    ∃ s before shares, TokenStream.scan source = .ok s ∧ s.tokens = before ++ shares.flatten ∧
      d.productions ≠ [] ∧ List.Forall₂ Production.Spans d.productions shares := by
  rcases read_eq_ok_iff.1 h with ⟨s, hscan, hparts⟩
  rcases Reader.parts_cases hparts with ⟨_, _, behind, ⟨before, htokens, _⟩, hproductions⟩
  have hspelled : ∀ t ∈ behind, t.word.Spelled := by
    intro t ht
    exact (covers_of_scan hscan).spelled t (htokens ▸ List.mem_append_right before ht)
  rcases Reader.productions_spans hspelled hproductions with ⟨shares, hbehind, hshares⟩
  rw [List.append_nil] at hbehind
  exact ⟨s, before, shares, hscan, hbehind ▸ htokens, (sound_of_read h).1.2.2.1, hshares⟩

/-- `first` and `stop` are the offsets in `p.span`, and the part of `source` between them is scanned
into the words of `p`, from its offset `0` to its end. -/
structure Production.Cut (p : Production) (source : List Char) (first stop : Nat) : Prop where
  inside : first < stop ∧ stop ≤ source.length
  span : p.span = some ⟨first, stop, 1 + (source.take first).count '\n',
    1 + ((source.take first).rtakeWhile (· != '\n')).length⟩
  scan : ∃ part, TokenStream.scan (source.extract first stop) = .ok part ∧
    part.tokens.map Token.word = p.words ∧ part.tokens.head?.map Token.start = some ⟨0, 1, 1⟩ ∧
    part.tokens.getLast?.map Token.stop = some (stop - first) ∧ part.stop.offset = stop - first

/-- The `start` of the first of `ts` and the `stop` of the last. -/
def extent (ts : List Token) : Nat × Nat :=
  ((ts.map fun t => t.start.offset).headD 0, (ts.map Token.stop).getLastD 0)

theorem extent_row (head dot : Token) (middle : List Token) :
    extent (head :: (middle ++ [dot])) = (head.start.offset, dot.stop) := by
  rw [extent, ← List.cons_append, List.map_append, List.map_append, List.map_singleton,
    List.map_singleton, List.getLastD_concat]
  rfl

/-- If `own` is nonempty, the last `stop` of `before ++ own` is that of `own`. -/
theorem extent_append {own : List Token} (h : own ≠ []) (before : List Token) :
    ((before ++ own).map Token.stop).getLastD 0 = (extent own).2 := by
  rcases List.eq_nil_or_concat' own with rfl | ⟨front, t, rfl⟩
  · exact absurd rfl h
  · simp only [extent, ← List.append_assoc, List.map_append, List.map_singleton,
      List.getLastD_concat]

namespace Production

variable {p : Production} {before own after : List Token}

theorem Spans.ne_nil (h : p.Spans own) : own ≠ [] := by
  rcases h with ⟨_, head, middle, dot, rfl, _⟩
  exact List.cons_ne_nil head _

theorem ne_nil_of_forall₂ {ps : List Production} {shares : List (List Token)}
    (h : List.Forall₂ Spans ps shares) : ∀ own ∈ shares, own ≠ [] := by
  induction h with
  | nil => simp
  | cons hown _ ih => exact List.forall_mem_cons.2 ⟨hown.ne_nil, ih⟩

/-- If `own` are tokens of `source` in a row and `p.Spans own`, then `p` is cut out of `source` at
`extent own`. -/
theorem Spans.cut (hown : p.Spans own) (h : TokenStream.scan source = .ok s)
    (hs : s.tokens = before ++ (own ++ after)) :
    p.Cut source (extent own).1 (extent own).2 := by
  rcases hown with ⟨hwords, head, middle, dot, rfl, hspan⟩
  have hhead : head ∈ s.tokens := by simp [hs]
  have hdot : dot ∈ s.tokens := by simp [hs]
  have hcovers := covers_of_scan h
  have hplace := agrees_of_token h hhead
  -- the dot is behind the head, so the part is not empty
  have hordered : head.stop ≤ dot.start.offset := by
    have hall := hcovers.ordered
    rw [hs] at hall
    have hpairs := (List.pairwise_append.1 (List.pairwise_append.1 hall).2.1).1
    exact (List.pairwise_cons.1 hpairs).1 dot (by simp)
  rw [extent_row]
  constructor
  · have hfirst := hcovers.inside head hhead
    have hlast := hcovers.inside dot hdot
    omega
  · rw [hspan, hplace.line, hplace.column]
    push_cast
    rfl
  · have hrow : s.tokens = before ++ head :: (middle ++ dot :: after) := by simpa using hs
    rcases TokenStream.scan_part h hrow with ⟨part, hpart, hsame, hbegin, hend, hstop⟩
    exact ⟨part, hpart, hsame.trans hwords, hbegin, hend, hstop⟩

end Production

/-! ## Between and behind the rules -/

namespace TokenStream.Covers

variable {before own : List Token} {shares : List (List Token)}

/-- The extent of each share ends at or before the beginning of every later one. -/
theorem extents_pairwise (h : s.Covers source) (hs : s.tokens = before ++ shares.flatten)
    (hne : ∀ own ∈ shares, own ≠ []) :
    (shares.map extent).Pairwise fun b c => b.2 ≤ c.1 := by
  have hordered := h.ordered
  rw [hs] at hordered
  have hshares := (List.pairwise_flatten.1 (List.pairwise_append.1 hordered).2.1).2
  apply List.pairwise_map.2
  apply hshares.imp_of_mem
  intro own own' hown hown' hall
  rcases List.exists_cons_of_ne_nil (hne own' hown') with ⟨head, rest, rfl⟩
  rcases List.eq_nil_or_concat' own with rfl | ⟨front, dot, rfl⟩
  · exact absurd rfl (hne [] hown)
  · have hle := hall dot (by simp) head (by simp)
    simpa [extent, List.getLastD_concat] using hle

/-- Between the extents of two neighbouring shares `source` has only filler. -/
theorem extents_chain (h : s.Covers source) (hs : s.tokens = before ++ shares.flatten)
    (hne : ∀ own ∈ shares, own ≠ []) :
    (shares.map extent).IsChain fun b c => Filler (source.extract b.2 c.1) := by
  induction shares generalizing before with
  | nil => exact List.IsChain.nil
  | cons own shares ih =>
      have hlater : s.tokens = (before ++ own) ++ shares.flatten := by simpa using hs
      have hchain := ih hlater fun own' hown' => hne own' (List.mem_cons_of_mem own hown')
      cases shares with
      | nil => exact List.IsChain.singleton _
      | cons next shares =>
          rcases List.exists_cons_of_ne_nil (hne next (by simp)) with ⟨head, rest, rfl⟩
          have hgap := h.gaps (before ++ own) head (rest ++ shares.flatten) (by simpa using hlater)
          rw [extent_append (hne own List.mem_cons_self)] at hgap
          exact List.IsChain.cons_cons hgap hchain

/-- Behind the extent of the last share `source` has only filler. -/
theorem lastFiller_behind (h : s.Covers source) (hs : s.tokens = before ++ shares.flatten)
    (hne : ∀ own ∈ shares, own ≠ []) (hsome : shares ≠ []) :
    ∃ b ∈ (shares.map extent).getLast?, LastFiller (source.extract b.2 source.length) := by
  rcases List.eq_nil_or_concat' shares with rfl | ⟨front, own, rfl⟩
  · exact absurd rfl hsome
  · refine ⟨extent own, by simp, ?_⟩
    have hlast := h.lastGap
    have htokens : s.tokens = (before ++ front.flatten) ++ own := by simpa using hs
    rw [htokens, extent_append (hne own (by simp))] at hlast
    exact hlast

end TokenStream.Covers

theorem forall₂_cut (hscan : TokenStream.scan source = .ok s) {ps : List Production}
    {before : List Token} {shares : List (List Token)}
    (hs : s.tokens = before ++ shares.flatten) (h : List.Forall₂ Production.Spans ps shares) :
    List.Forall₂ (fun p b => p.Cut source b.1 b.2) ps (shares.map extent) := by
  induction h generalizing before with
  | nil => exact .nil
  | @cons p own ps shares hown _ ih =>
      have hrow : s.tokens = before ++ (own ++ shares.flatten) := by simpa using hs
      have hlater : s.tokens = (before ++ own) ++ shares.flatten := by simpa using hs
      exact .cons (hown.cut hscan hrow) (ih hlater)

/-- If `d` was read, each production has `bounds` that cut it out of `source`: scanned by itself,
that part has the words of the rule and nothing around them. The `bounds` are in order and do not
overlap, and `source` has only filler between two neighbours and behind the last. -/
theorem Description.spans_cut_source (h : Description.read source = .ok d) :
    ∃ bounds : List (Nat × Nat),
      List.Forall₂ (fun p b => p.Cut source b.1 b.2) d.productions bounds ∧
        (bounds.Pairwise fun b c => b.2 ≤ c.1) ∧
        (bounds.IsChain fun b c => Filler (source.extract b.2 c.1)) ∧
        ∃ b ∈ bounds.getLast?, LastFiller (source.extract b.2 source.length) := by
  rcases spans_of_read h with ⟨s, before, shares, hscan, htokens, hsome, hshares⟩
  have hcovers := covers_of_scan hscan
  have hne := Production.ne_nil_of_forall₂ hshares
  have hshare : shares ≠ [] := by
    rintro rfl
    exact hsome (List.forall₂_nil_right_iff.1 hshares)
  exact ⟨shares.map extent, forall₂_cut hscan htokens hshares,
    hcovers.extents_pairwise htokens hne, hcovers.extents_chain htokens hne,
    hcovers.lastFiller_behind htokens hne hshare⟩

/-- A source with comments before, in, between and behind the rules, and a dot or an arrow in most
of them. -/
def commentedSource : List Char :=
  ":Start:S:Terminals:a:NonTerminals:S A:Rules: #.\n S->a#.\nA.#->\nA->EMPTY.#".toList

def commented : Description where
  start := "S"
  terminals := ["a"]
  nonTerminals := ["S", "A"]
  productions := [⟨"S", ["a", "A"], some ⟨49, 58, 2, 2⟩⟩, ⟨"A", ["EMPTY"], some ⟨62, 71, 4, 1⟩⟩]

theorem Description.spans_cut_commented :
    Description.read commentedSource = .ok commented ∧
      ∃ bounds : List (Nat × Nat),
        List.Forall₂ (fun p b => p.Cut commentedSource b.1 b.2) commented.productions bounds ∧
          (bounds.Pairwise fun b c => b.2 ≤ c.1) ∧
          (bounds.IsChain fun b c => Filler (commentedSource.extract b.2 c.1)) ∧
          ∃ b ∈ bounds.getLast?,
            LastFiller (commentedSource.extract b.2 commentedSource.length) := by
  have hread : Description.read commentedSource = .ok commented := by decide +kernel
  exact ⟨hread, spans_cut_source hread⟩

end Lookahead
