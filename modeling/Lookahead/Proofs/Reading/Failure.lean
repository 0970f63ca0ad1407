import Lookahead.Proofs.Reading.Reader

/-!
# Failure — where the reader stops

The reader only moves forward over the tokens, and never beyond the last of them. What it stops at
is a token of the text or the end of it.

- `Reader.Stays`: a step that stays within its tokens, with one lemma for each step.
- `ReadError.PointsInto`: a failure about a place of the text.
- `Description.pointsInto_of_read`: every failure is one.
-/

namespace Lookahead
namespace Reader

variable {ts middle : List Token}

/-! ## Steps -/

/-- What a step leaves behind, or the `rest` at which it stops, is an end of its tokens `ts`. -/
def Stays {α : Type} (ts : List Token) (left : α → List Token) : Except Mismatch α → Prop
  | .ok a => left a <:+ ts
  | .error m => m.rest <:+ ts

section Stays

variable {α β : Type} {left : α → List Token} {left' : β → List Token} {x : Except Mismatch α}
variable {f : α → Except Mismatch β}

theorem Stays.mono {y : Except Mismatch α} (h : Stays middle left y) (hmiddle : middle <:+ ts) :
    Stays ts left y := by
  cases y with
  | error m => exact List.IsSuffix.trans h hmiddle
  | ok a => exact List.IsSuffix.trans h hmiddle

theorem Stays.bind (hx : Stays ts left x) (hf : ∀ a, Stays (left a) left' (f a)) :
    Stays ts left' (x >>= f) := by
  cases x with
  | error m => exact hx
  | ok a => exact (hf a).mono hx

theorem expect_stays (kind : TokenKind) (expected : Expected) (ts : List Token) :
    Stays ts Prod.snd (expect kind expected ts) := by
  cases ts with
  | nil => exact List.suffix_refl []
  | cons t rest =>
      by_cases hkind : t.kind = kind
      · simp [expect, hkind, Stays]
      · simp [expect, hkind, Stays]

theorem expectLabel_stays (part : Part) (ts : List Token) :
    Stays ts id (expectLabel part ts) := by
  cases ts with
  | nil => exact List.suffix_refl []
  | cons t rest =>
      by_cases hword : t.kind = .label ∧ t.lexeme = part.label
      · simp [expectLabel, hword, Stays]
      · simp [expectLabel, hword, Stays]

theorem names_stays (ts : List Token) : Stays ts Prod.snd (names ts) := by
  refine (expect_stays .name .names ts).bind fun first => ?_
  exact List.dropWhile_suffix isName

theorem production_stays (ts : List Token) : Stays ts Prod.snd (production ts) := by
  refine (expect_stays .name .head ts).bind fun head => ?_
  refine (expect_stays .arrow .arrow head.2).bind fun arrow => ?_
  refine (names_stays arrow.2).bind fun alternate => ?_
  refine (expect_stays .dot .dot alternate.2).bind fun dot => ?_
  exact List.suffix_refl dot.2

theorem productions_stays (ts : List Token) : Stays ts Prod.snd (productions ts) := by
  fun_induction productions ts with
  | case1 ts e hfirst => simpa [hfirst, Stays] using production_stays ts
  | case2 ts p middle hfirst hname e hlater ih =>
      have hmiddle : middle <:+ ts := by simpa [hfirst, Stays] using production_stays ts
      have hrest : e.rest <:+ middle := by simpa [hlater, Stays] using ih
      exact hrest.trans hmiddle
  | case3 ts p middle hfirst hname later rest hlater ih =>
      have hmiddle : middle <:+ ts := by simpa [hfirst, Stays] using production_stays ts
      have hrest : rest <:+ middle := by simpa [hlater, Stays] using ih
      exact hrest.trans hmiddle
  | case4 ts p middle hfirst hname => simpa [hfirst, Stays] using production_stays ts

theorem parts_stays (ts : List Token) : Stays ts Prod.snd (parts ts) := by
  refine (expectLabel_stays .start ts).bind fun ts₁ => ?_
  refine (expect_stays .name .startName ts₁).bind fun start => ?_
  refine (expectLabel_stays .terminals start.2).bind fun ts₃ => ?_
  refine (names_stays ts₃).bind fun terminals => ?_
  refine (expectLabel_stays .nonTerminals terminals.2).bind fun ts₅ => ?_
  refine (names_stays ts₅).bind fun nonTerminals => ?_
  refine (expectLabel_stays .rules nonTerminals.2).bind fun ts₇ => ?_
  refine (productions_stays ts₇).bind fun productions => ?_
  exact List.suffix_refl productions.2

end Stays

end Reader

/-! ## Texts -/

variable {source : List Char}

/-- `e` points into `source`: at its stray character, at a token, or at `s.stop` if no tokens are
left. -/
def ReadError.PointsInto (source : List Char) : ReadError → Prop
  | .strayChar stray => TokenStream.scan source = .error stray
  | .mismatch _ found place =>
      ∃ s rest, TokenStream.scan source = .ok s ∧ rest <:+ s.tokens ∧ found = rest.head? ∧
        place = found.elim s.stop Token.start
  | .leftover found => ∃ s, TokenStream.scan source = .ok s ∧ found ∈ s.tokens

theorem Description.pointsInto_of_read {e : ReadError}
    (h : Description.read source = .error e) : e.PointsInto source := by
  cases hscan : TokenStream.scan source with
  | error stray =>
      simp only [Description.read, hscan, Except.error.injEq] at h
      exact h ▸ hscan
  | ok s =>
      simp only [Description.read, hscan, TokenStream.description] at h
      have hstays := Reader.parts_stays s.tokens
      -- a mismatch behind all tokens or at one of them, no failure, and a leftover token
      split at h
      · next expected hparts =>
        cases h
        exact ⟨s, [], hscan, List.nil_suffix, rfl, rfl⟩
      · next expected t rest hparts =>
        cases h
        rw [hparts] at hstays
        exact ⟨s, t :: rest, hscan, hstays, rfl, rfl⟩
      · cases h
      · next d t rest hparts =>
        cases h
        rw [hparts] at hstays
        exact ⟨s, hscan, List.IsSuffix.subset hstays List.mem_cons_self⟩

end Lookahead
