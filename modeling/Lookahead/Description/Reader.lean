import Lookahead.Description
import Lookahead.Text.Quoted

/-!
# Description/Reader — descriptions from text

The reader walks over the tokens once, from left to right, and stops at the first one that cannot
stand where it stands.

- `Expected`: what can follow at a place.
- `ReadError`: a stray character, a token out of place, or a token behind the last rule.
- `Description.read`: the description that a text holds.
-/

namespace Lookahead

open Text

/-! ## What can go wrong -/

/-- What the format asks for at a place, as `Expected.text` puts it. -/
inductive Expected
  | label (part : Part)
  | startName
  | names
  | head
  | arrow
  | dot
  deriving DecidableEq, Repr

def Expected.text : Expected → String
  | .label part => "'" ++ part.label ++ "'"
  | .startName => "a single alphanumeric name"
  | .names => "a whitespace separated list of alphanumeric names"
  | .head => "alphanumeric name for head of rule"
  | .arrow => "'->'"
  | .dot => "'.'"

inductive ReadError
  | strayChar (stray : StrayChar)
  /-- Something else stands at `place`: a token, or the end of the text. -/
  | mismatch (expected : Expected) (found : Option Token) (place : Position)
  | leftover (found : Token)
  deriving DecidableEq, Repr

namespace ReadError

/-- The place where reading stopped: of the stray character, of the token, or of the end of the
text. -/
def place : ReadError → Position
  | .strayChar stray => stray.place
  | .mismatch _ _ place => place
  | .leftover found => found.start

/-- A token is shown by its quoted text, the end of the text as `EOF`. -/
def describe : Option Token → String
  | some t => quoted t.lexeme
  | none => "EOF"

/-- What happened, with the line and the column of `place`. -/
def headline : ReadError → String
  | .strayChar stray =>
      "Unexpected char " ++ quoted (String.singleton stray.char) ++ " at " ++ stray.place.text
  | .mismatch expected found place =>
      "Expected " ++ expected.text ++ ", got " ++ describe found ++ " at " ++ place.text
  | .leftover found =>
      "There was some leftover input at " ++ found.start.text ++ ": " ++ describe (some found)

/-- The `headline`, and below it the `excerpt` of `source` around `place`. -/
def message (source : List Char) (e : ReadError) : String :=
  e.headline ++ "\n" ++ excerpt source e.place.offset

/-! Each kind of failure with its line and column written out. -/

theorem message_strayChar (source : List Char) (stray : StrayChar) :
    (strayChar stray).message source =
      "Unexpected char " ++ quoted (String.singleton stray.char) ++ " at " ++
        toString stray.place.line ++ ":" ++ toString stray.place.column ++ "\n" ++
          excerpt source stray.place.offset := by
  unfold message headline place Position.text
  dsimp only
  rw [← String.append_assoc, ← String.append_assoc]

theorem message_mismatch (source : List Char) (expected : Expected) (found : Option Token)
    (p : Position) :
    (mismatch expected found p).message source =
      "Expected " ++ expected.text ++ ", got " ++ describe found ++ " at " ++
        toString p.line ++ ":" ++ toString p.column ++ "\n" ++ excerpt source p.offset := by
  unfold message headline place Position.text
  dsimp only
  rw [← String.append_assoc, ← String.append_assoc]

theorem message_leftover (source : List Char) (found : Token) :
    (leftover found).message source =
      "There was some leftover input at " ++ toString found.start.line ++ ":" ++
        toString found.start.column ++ ": " ++ describe (some found) ++ "\n" ++
          excerpt source found.start.offset := by
  unfold message headline place Position.text
  dsimp only
  rw [← String.append_assoc, ← String.append_assoc]

end ReadError

/-! ## Reading tokens -/

/-- What was `expected`, and the `rest` of the tokens from the first unfit one on. The `rest` is
empty at the end of the text. -/
structure Mismatch where
  expected : Expected
  rest : List Token
  deriving DecidableEq, Repr

namespace Reader

/-- The first token, if it is of the given `kind`, and the tokens behind it. -/
def expect (kind : TokenKind) (expected : Expected) :
    List Token → Except Mismatch (Token × List Token)
  | [] => .error ⟨expected, []⟩
  | t :: rest => if t.kind = kind then .ok (t, rest) else .error ⟨expected, t :: rest⟩

/-- The tokens behind the label of `part`. -/
def expectLabel (part : Part) : List Token → Except Mismatch (List Token)
  | [] => .error ⟨.label part, []⟩
  | t :: rest =>
      if t.kind = .label ∧ t.lexeme = part.label then .ok rest
      else .error ⟨.label part, t :: rest⟩

def isName (t : Token) : Bool := t.kind = .name

/-- The lexemes of one name and of all names right behind it, and the other tokens. -/
def names (ts : List Token) : Except Mismatch (List String × List Token) := do
  let (first, rest) ← expect .name .names ts
  return (first.lexeme :: (rest.takeWhile isName).map Token.lexeme, rest.dropWhile isName)

/-- One production, and the tokens behind it. Its span reaches from the head to the end of the
dot. -/
def production (ts : List Token) : Except Mismatch (Production × List Token) := do
  let (head, rest) ← expect .name .head ts
  let (_, rest) ← expect .arrow .arrow rest
  let (alternate, rest) ← names rest
  let (dot, rest) ← expect .dot .dot rest
  let span := ⟨head.start.offset, dot.stop, head.start.line, head.start.column⟩
  return (⟨head.lexeme, alternate, some span⟩, rest)

theorem expect_length_lt {kind : TokenKind} {expected : Expected} {ts rest : List Token}
    {t : Token} (h : expect kind expected ts = .ok (t, rest)) : rest.length < ts.length := by
  cases ts with
  | nil => cases h
  | cons u us =>
    simp only [expect] at h
    split at h
    · cases h; exact Nat.lt_succ_self _
    · cases h

theorem names_length_le {ts rest : List Token} {ns : List String}
    (h : names ts = .ok (ns, rest)) : rest.length ≤ ts.length := by
  unfold names at h
  cases hf : expect .name .names ts with
  | error e => rw [hf] at h; cases h
  | ok p =>
    rw [hf] at h
    cases h
    have h₁ := (List.dropWhile_sublist isName (l := p.2)).length_le
    have h₂ := expect_length_lt hf
    omega

theorem production_length_lt {ts rest : List Token} {p : Production}
    (h : production ts = .ok (p, rest)) : rest.length < ts.length := by
  unfold production at h
  cases h₁ : expect .name .head ts with
  | error e => rw [h₁] at h; cases h
  | ok r₁ =>
    rw [h₁] at h
    simp only [bind, Except.bind] at h
    cases h₂ : expect .arrow .arrow r₁.2 with
    | error e => rw [h₂] at h; cases h
    | ok r₂ =>
      rw [h₂] at h
      simp only at h
      cases h₃ : names r₂.2 with
      | error e => rw [h₃] at h; cases h
      | ok r₃ =>
        rw [h₃] at h
        simp only at h
        cases h₄ : expect .dot .dot r₃.2 with
        | error e => rw [h₄] at h; cases h
        | ok r₄ =>
          rw [h₄] at h
          cases h
          -- the weak bound on the names is enough, since each other step takes a token
          have := expect_length_lt h₁
          have := expect_length_lt h₂
          have := names_length_le h₃
          have := expect_length_lt h₄
          omega

/-- One `production`, and more as long as a name follows. -/
def productions (ts : List Token) : Except Mismatch (List Production × List Token) :=
  match _h : production ts with
  | .error e => .error e
  | .ok (p, rest) =>
      if rest.head?.any isName then
        match productions rest with
        | .error e => .error e
        | .ok (ps, rest) => .ok (p :: ps, rest)
      else .ok ([p], rest)
  termination_by ts.length
  decreasing_by exact production_length_lt _h

/-- The four parts of a description in order, and the tokens behind the last production. -/
def parts (ts : List Token) : Except Mismatch (Description × List Token) := do
  let ts ← expectLabel .start ts
  let (start, ts) ← expect .name .startName ts
  let ts ← expectLabel .terminals ts
  let (terminals, ts) ← names ts
  let ts ← expectLabel .nonTerminals ts
  let (nonTerminals, ts) ← names ts
  let ts ← expectLabel .rules ts
  let (productions, ts) ← productions ts
  return (⟨start.lexeme, terminals, nonTerminals, productions⟩, ts)

end Reader

/-! ## Reading text -/

/-- The description that the tokens of `s` hold. A token behind the last production is
`leftover`. -/
def TokenStream.description (s : TokenStream) : Except ReadError Description :=
  match Reader.parts s.tokens with
  | .error ⟨expected, []⟩ => .error (.mismatch expected none s.stop)
  | .error ⟨expected, t :: _⟩ => .error (.mismatch expected (some t) t.start)
  | .ok (d, []) => .ok d
  | .ok (_, t :: _) => .error (.leftover t)

def Description.read (source : List Char) : Except ReadError Description :=
  match TokenStream.scan source with
  | .error stray => .error (.strayChar stray)
  | .ok s => s.description

end Lookahead
