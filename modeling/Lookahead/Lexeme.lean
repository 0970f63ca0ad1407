import Lookahead.Text.NameChars

/-!
# Lexeme — how the text of a grammar description falls into pieces

A description is a sequence of pieces of seven kinds: runs of blanks, line feeds, comments, labels
such as `:Start:`, arrows `->`, dots, and names.

- `LexemeKind.Admits`: which texts are a piece of a kind.
- `Tiling`: some pieces, each of its kind, that make up a text.
- `Lexeme.next?`: the piece at the front of a text, as long as it can be.
- `lexemes`: the pieces from the front on, and the rest of the text, which begins with no piece.
- `text_lexemes`: pieces and rest together are the text.
-/

namespace Lookahead

/-! ## Kinds -/

/-- The kinds of piece that carry meaning. -/
inductive TokenKind
  | label
  | arrow
  | dot
  | name
  deriving DecidableEq, Repr

/-- The kinds of piece. A `blank`, a `newline` and a `comment` only keep tokens apart. -/
inductive LexemeKind
  | blank
  | newline
  | comment
  | token (kind : TokenKind)
  deriving DecidableEq, Repr

/-- Whether `c` is a space, a tab, a form feed or a carriage return. -/
def isBlank (c : Char) : Bool :=
  c == ' ' || c == '\t' || c == '\x0c' || c == '\r'

def isLetter (c : Char) : Bool :=
  (decide ('A' ≤ c) && decide (c ≤ 'Z')) || (decide ('a' ≤ c) && decide (c ≤ 'z'))

/-- The texts that are a piece of each kind. -/
def LexemeKind.Admits : LexemeKind → List Char → Prop
  | .blank, cs => cs ≠ [] ∧ ∀ c ∈ cs, isBlank c = true
  | .newline, cs => cs = ['\n']
  | .comment, cs => ∃ body, cs = '#' :: body ∧ '\n' ∉ body
  | .token .label, cs =>
      ∃ word, cs = ':' :: word ++ [':'] ∧ word ≠ [] ∧ ∀ c ∈ word, isLetter c = true
  | .token .arrow, cs => cs = ['-', '>']
  | .token .dot, cs => cs = ['.']
  | .token .name, cs => cs ≠ [] ∧ ∀ c ∈ cs, Text.isNameChar c = true

structure Lexeme where
  kind : LexemeKind
  text : List Char
  deriving DecidableEq, Repr

/-- The `pieces`, each admitted by its kind, make up `source`. -/
def Tiling (pieces : List Lexeme) (source : List Char) : Prop :=
  (∀ p ∈ pieces, p.kind.Admits p.text) ∧ pieces.flatMap Lexeme.text = source

/-! ## The piece at the front -/

namespace Lexeme

/-- A run of characters of one class, which begins with `c`. -/
def run (kind : LexemeKind) (inside : Char → Bool) (c : Char) (rest : List Char) :
    Lexeme × List Char :=
  (⟨kind, c :: rest.takeWhile inside⟩, rest.dropWhile inside)

/-- The label behind a colon: letters and a second colon, and what is behind them. -/
def label? (rest : List Char) : Option (Lexeme × List Char) :=
  match rest.takeWhile isLetter, rest.dropWhile isLetter with
  | [], _ => none
  | word, ':' :: rest => some (⟨.token .label, ':' :: word ++ [':']⟩, rest)
  | _, _ => none

/-- The arrow behind a dash, and what is behind it. -/
def arrow? : List Char → Option (Lexeme × List Char)
  | '>' :: rest => some (⟨.token .arrow, ['-', '>']⟩, rest)
  | _ => none

/-- The piece at the front of a text, as long as it can be, and the text behind it. -/
def next? : List Char → Option (Lexeme × List Char)
  | [] => none
  | c :: rest =>
      if isBlank c then some (run .blank isBlank c rest)
      else if c = '\n' then some (⟨.newline, [c]⟩, rest)
      else if c = '#' then some (run .comment (· != '\n') c rest)
      else if c = ':' then label? rest
      else if c = '-' then arrow? rest
      else if c = '.' then some (⟨.token .dot, [c]⟩, rest)
      else if Text.isNameChar c then some (run (.token .name) Text.isNameChar c rest)
      else none

theorem run_append (kind : LexemeKind) (inside : Char → Bool) (c : Char) (rest : List Char) :
    (run kind inside c rest).1.text ++ (run kind inside c rest).2 = c :: rest := by
  simp [run]

theorem label?_append {rest : List Char} {l : Lexeme} {after : List Char}
    (h : label? rest = some (l, after)) : l.text ++ after = ':' :: rest := by
  unfold label? at h
  have hsplit := @List.takeWhile_append_dropWhile _ isLetter rest
  split at h
  · cases h
  · next hdrop _ =>
    simp only [Option.some.injEq, Prod.mk.injEq] at h
    obtain ⟨rfl, rfl⟩ := h
    rw [hdrop] at hsplit
    simpa using hsplit
  · cases h

theorem arrow?_append {rest : List Char} {l : Lexeme} {after : List Char}
    (h : arrow? rest = some (l, after)) : l.text ++ after = '-' :: rest := by
  unfold arrow? at h
  split at h
  · simp only [Option.some.injEq, Prod.mk.injEq] at h
    obtain ⟨rfl, rfl⟩ := h
    rfl
  · cases h

/-- `next?` loses nothing: `l.text` and `after` together are `source`. -/
theorem next?_append {source : List Char} {l : Lexeme} {after : List Char}
    (h : next? source = some (l, after)) : l.text ++ after = source := by
  cases source with
  | nil => cases h
  | cons c rest =>
    have single (kind : LexemeKind) (h : some (Lexeme.mk kind [c], rest) = some (l, after)) :
        l.text ++ after = c :: rest := by
      cases h
      rfl
    have many (kind : LexemeKind) (inside : Char → Bool)
        (h : some (run kind inside c rest) = some (l, after)) : l.text ++ after = c :: rest := by
      have := run_append kind inside c rest
      rw [Option.some.inj h] at this
      exact this
    -- the branches of `next?` in order, from blanks down to names
    simp only [next?] at h
    split at h
    · exact many _ _ h
    split at h
    · exact single _ h
    split at h
    · exact many _ _ h
    split at h
    · next hc => exact hc ▸ label?_append h
    split at h
    · next hc => exact hc ▸ arrow?_append h
    split at h
    · exact single _ h
    split at h
    · exact many _ _ h
    · cases h

/-- A piece that `next?` finds is not empty. -/
theorem text_ne_nil_of_next? {source : List Char} {l : Lexeme} {after : List Char}
    (h : next? source = some (l, after)) : l.text ≠ [] := by
  cases source with
  | nil => cases h
  | cons c rest =>
    simp only [next?, run] at h
    split at h
    · cases h; simp
    split at h
    · cases h; simp
    split at h
    · cases h; simp
    split at h
    · unfold label? at h
      split at h
      · cases h
      · cases h; simp
      · cases h
    split at h
    · unfold arrow? at h
      split at h
      · cases h; simp
      · cases h
    split at h
    · cases h; simp
    split at h
    · cases h; simp
    · cases h

theorem length_lt_of_next? {source : List Char} {l : Lexeme} {after : List Char}
    (h : next? source = some (l, after)) : after.length < source.length := by
  have happend := congrArg List.length (next?_append h)
  have hpos := List.length_pos_iff.2 (text_ne_nil_of_next? h)
  rw [List.length_append] at happend
  omega

end Lexeme

/-! ## All pieces -/

/-- The pieces of `source` one behind the other as far as `next?` finds any, and the rest. -/
def lexemes (source : List Char) : List Lexeme × List Char :=
  match _h : Lexeme.next? source with
  | none => ([], source)
  | some (l, after) =>
      let (more, rest) := lexemes after
      (l :: more, rest)
  termination_by source.length
  decreasing_by exact Lexeme.length_lt_of_next? _h

theorem lexemes_of_next?_eq_none {source : List Char} (h : Lexeme.next? source = none) :
    lexemes source = ([], source) := by
  rw [lexemes]
  split
  · rfl
  · next h' => rw [h] at h'; cases h'

theorem lexemes_of_next?_eq_some {source after : List Char} {l : Lexeme}
    (h : Lexeme.next? source = some (l, after)) :
    lexemes source = (l :: (lexemes after).1, (lexemes after).2) := by
  rw [lexemes]
  split
  · next h' => rw [h] at h'; cases h'
  · next h' =>
    rw [h] at h'
    cases h'
    rfl

/-- `lexemes` loses nothing: its pieces and its rest together are `source`. -/
theorem text_lexemes (source : List Char) :
    (lexemes source).1.flatMap Lexeme.text ++ (lexemes source).2 = source := by
  fun_induction lexemes source with
  | case1 source h => rfl
  | case2 source l after h more rest hmore ih =>
    rw [hmore] at ih
    rw [List.flatMap_cons, List.append_assoc, ih, Lexeme.next?_append h]

end Lookahead
