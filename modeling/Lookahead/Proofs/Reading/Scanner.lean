import Lookahead.Token

/-!
# Scanner — the words of a text

Each piece that the scan finds is of its kind, and what stands in front of a text decides how the
words of the whole come from the words of the rest.

- `Lexeme.admits_of_next?`, `tiling_lexemes`: the pieces of a text that falls apart tile it.
- `HasWords`: a text without stray characters, and its words.
- `HasWords.spelled`: each word is spelled as its kind asks.
- `HasWords.blank`, `newline`, `comment`, `word`: one thing more in front.
-/

namespace Lookahead

/-- If `inside` holds in all of `front` and not at the head of `rest`, then `takeWhile inside` and
`dropWhile inside` cut `front ++ rest` between them. -/
theorem span_append_of_boundary {α : Type} {inside : α → Bool} {front rest : List α}
    (hfront : ∀ x ∈ front, inside x = true) (hrest : ∀ x ∈ rest.head?, inside x = false) :
    (front ++ rest).takeWhile inside = front ∧ (front ++ rest).dropWhile inside = rest := by
  have hstop : rest.takeWhile inside = [] ∧ rest.dropWhile inside = rest := by
    cases rest with
    | nil => exact ⟨rfl, rfl⟩
    | cons x rest => simp [hrest x rfl]
  simp [List.takeWhile_append_of_pos hfront, List.dropWhile_append_of_pos hfront, hstop]

/-! ## Pieces -/

namespace Lexeme

variable {source after rest : List Char} {l : Lexeme} {c : Char}

theorem admits_of_label? (h : label? rest = some (l, after)) : l.kind.Admits l.text := by
  unfold label? at h
  split at h
  · cases h
  · next hnone =>
    cases h
    refine ⟨rest.takeWhile isLetter, rfl, hnone, ?_⟩
    exact List.all_eq_true.1 List.all_takeWhile
  · cases h

theorem admits_of_arrow? (h : arrow? rest = some (l, after)) : l.kind.Admits l.text := by
  unfold arrow? at h
  split at h
  · cases h
    rfl
  · cases h

/-- The text of the lexeme that `next?` finds is one of its kind. -/
theorem admits_of_next? (h : next? source = some (l, after)) : l.kind.Admits l.text := by
  cases source with
  | nil => cases h
  | cons c rest =>
      -- a run holds its first character and then characters of its class only
      have hrun {inside : Char → Bool} (hc : inside c = true) :
          ∀ x ∈ c :: rest.takeWhile inside, inside x = true := by
        intro x hx
        rcases List.mem_cons.1 hx with rfl | hx
        · exact hc
        · exact List.all_eq_true.1 List.all_takeWhile x hx
      simp only [next?, run] at h
      split at h
      next hblank =>
        cases h
        exact ⟨List.cons_ne_nil _ _, hrun hblank⟩
      split at h
      next hnewline =>
        cases h
        simp [LexemeKind.Admits, hnewline]
      split at h
      next hhash =>
        cases h
        refine ⟨_, by rw [hhash], ?_⟩
        intro hmem
        simpa using List.all_eq_true.1 List.all_takeWhile '\n' hmem
      split at h
      · exact admits_of_label? h
      split at h
      · exact admits_of_arrow? h
      split at h
      next hdot =>
        cases h
        simp [LexemeKind.Admits, hdot]
      split at h
      next hname =>
        cases h
        exact ⟨List.cons_ne_nil _ _, hrun hname⟩
      · cases h

theorem run_append_of_boundary {kind : LexemeKind} {inside : Char → Bool} {body : List Char}
    (hbody : ∀ x ∈ body, inside x = true) (hrest : ∀ x ∈ rest.head?, inside x = false) :
    run kind inside c (body ++ rest) = (⟨kind, c :: body⟩, rest) := by
  simp [run, span_append_of_boundary hbody hrest]

theorem next?_blank (hc : isBlank c = true) :
    next? (c :: rest) =
      some (⟨.blank, c :: rest.takeWhile isBlank⟩, rest.dropWhile isBlank) := by
  simp [next?, run, hc]

theorem next?_newline : next? ('\n' :: rest) = some (⟨.newline, ['\n']⟩, rest) := by
  simp [next?, isBlank]

theorem next?_comment {body : List Char} (hbody : '\n' ∉ body)
    (hrest : ∀ x ∈ rest.head?, x = '\n') :
    next? ('#' :: (body ++ rest)) = some (⟨.comment, '#' :: body⟩, rest) := by
  have hinside : ∀ x ∈ body, (x != '\n') = true := by
    intro x hx
    simpa using fun heq : x = '\n' => hbody (heq ▸ hx)
  have hboundary : ∀ x ∈ rest.head?, (x != '\n') = false := by
    intro x hx
    simp [hrest x hx]
  simp [next?, isBlank, run_append_of_boundary hinside hboundary]

/-- A name character begins no blank, line feed, comment, label, arrow or dot. -/
theorem isNameChar_apart (hc : Text.isNameChar c = true) :
    isBlank c = false ∧ c ≠ '\n' ∧ c ≠ '#' ∧ c ≠ ':' ∧ c ≠ '-' ∧ c ≠ '.' := by
  have hother : [' ', '\t', '\x0c', '\r', '\n', '#', ':', '-', '.'].any Text.isNameChar = false := by
    decide
  have hne : c ∉ [' ', '\t', '\x0c', '\r', '\n', '#', ':', '-', '.'] := by
    intro hmem
    exact List.any_eq_false.1 hother c hmem hc
  simpa [isBlank, and_assoc] using hne

theorem label?_append_colon {letters : List Char} (hne : letters ≠ [])
    (hletters : ∀ x ∈ letters, isLetter x = true) :
    label? (letters ++ ':' :: rest) =
      some (⟨.token .label, ':' :: letters ++ [':']⟩, rest) := by
  have hcolon : ∀ x ∈ (':' :: rest).head?, isLetter x = false := by
    simp only [List.head?_cons, Option.mem_some, forall_eq']
    decide
  simp [label?, span_append_of_boundary hletters hcolon]

/-- `next?` finds a token `cs` in front of `rest` as a whole, unless it is a name and `rest` begins
with a name character. -/
theorem next?_token {kind : TokenKind} {cs : List Char}
    (hcs : (LexemeKind.token kind).Admits cs)
    (hrest : kind = .name → ∀ x ∈ rest.head?, Text.isNameChar x = false) :
    next? (cs ++ rest) = some (⟨.token kind, cs⟩, rest) := by
  cases kind with
  | label =>
      rcases hcs with ⟨letters, rfl, hne, hletters⟩
      have hlabel : label? (letters ++ ':' :: rest) = some _ := label?_append_colon hne hletters
      simpa [next?, isBlank] using hlabel
  | arrow =>
      cases hcs
      simp [next?, isBlank, arrow?]
  | dot =>
      cases hcs
      simp [next?, isBlank]
  | name =>
      rcases hcs with ⟨hne, hall⟩
      rcases List.exists_cons_of_ne_nil hne with ⟨c, body, rfl⟩
      have hc : Text.isNameChar c = true := hall c List.mem_cons_self
      have hbody : ∀ x ∈ body, Text.isNameChar x = true :=
        fun x hx => hall x (List.mem_cons_of_mem c hx)
      rcases isNameChar_apart hc with ⟨hblank, hnewline, hhash, hcolon, hdash, hdot⟩
      -- no branch before that of names applies, and the run ends where `rest` begins
      simp [next?, hc, hblank, hnewline, hhash, hcolon, hdash, hdot,
        run_append_of_boundary hbody (hrest rfl)]

/-- `l` as a word, if it is a token. -/
def word? (l : Lexeme) : Option Word :=
  match l.kind with
  | .token kind => some ⟨kind, String.ofList l.text⟩
  | _ => none

end Lexeme

theorem admits_of_mem_lexemes {source : List Char} :
    ∀ p ∈ (lexemes source).1, p.kind.Admits p.text := by
  fun_induction lexemes source with
  | case1 source h => simp
  | case2 source l after h more rest hmore ih =>
      intro p hp
      rcases List.mem_cons.1 hp with rfl | hp
      · exact Lexeme.admits_of_next? h
      · exact ih p (by simpa [hmore] using hp)

theorem tiling_lexemes {source : List Char} (h : (lexemes source).2 = []) :
    Tiling (lexemes source).1 source := by
  refine ⟨admits_of_mem_lexemes, ?_⟩
  simpa [h] using text_lexemes source

/-! ## Words -/

theorem TokenStream.map_word_tokensFrom (place : Text.Position) (pieces : List Lexeme) :
    (tokensFrom place pieces).map Token.word = pieces.filterMap Lexeme.word? := by
  induction pieces generalizing place with
  | nil => rfl
  | cons l rest ih =>
      rcases l with ⟨kind, text⟩
      cases kind with
      | token kind => simp [tokensFrom, Lexeme.word?, Token.word, ih]
      | blank => simpa [tokensFrom, List.filterMap_cons, Lexeme.word?] using ih _
      | newline => simpa [tokensFrom, List.filterMap_cons, Lexeme.word?] using ih _
      | comment => simpa [tokensFrom, List.filterMap_cons, Lexeme.word?] using ih _

/-- `source` is scanned without a stray character, and its tokens have the words `ws`. -/
def HasWords (source : List Char) (ws : List Word) : Prop :=
  ∃ s, TokenStream.scan source = .ok s ∧ s.tokens.map Token.word = ws

theorem hasWords_iff {source : List Char} {ws : List Word} :
    HasWords source ws ↔
      (lexemes source).2 = [] ∧ (lexemes source).1.filterMap Lexeme.word? = ws := by
  rcases hlexemes : lexemes source with ⟨pieces, rest⟩
  cases rest with
  | nil => simp [HasWords, TokenStream.scan, hlexemes, TokenStream.map_word_tokensFrom]
  | cons c rest => simp [HasWords, TokenStream.scan, hlexemes]

/-- The scanner can find `w`: its text is one of its kind. -/
def Word.Spelled (w : Word) : Prop :=
  (LexemeKind.token w.kind).Admits w.text.toList

theorem Word.Spelled.text_ne_nil {w : Word} (hw : w.Spelled) : w.text.toList ≠ [] := by
  rcases w with ⟨kind, text⟩
  intro hnil
  simp only [Word.Spelled] at hw hnil
  rw [hnil] at hw
  cases kind with
  | label =>
      rcases hw with ⟨letters, hcons, _⟩
      cases hcons
  | arrow => cases hw
  | dot => cases hw
  | name => exact hw.1 rfl

theorem Lexeme.spelled_of_word? {l : Lexeme} {w : Word} (hl : l.kind.Admits l.text)
    (h : l.word? = some w) : w.Spelled := by
  rcases l with ⟨kind, text⟩
  cases kind with
  | token kind =>
      cases h
      simpa [Word.Spelled] using hl
  | blank => cases h
  | newline => cases h
  | comment => cases h

namespace HasWords

variable {source after rest body : List Char} {ws : List Word} {l : Lexeme} {c : Char} {w : Word}

theorem spelled (h : HasWords source ws) : ∀ w ∈ ws, w.Spelled := by
  intro w hw
  rw [← (hasWords_iff.1 h).2] at hw
  rcases List.mem_filterMap.1 hw with ⟨l, hl, hword⟩
  exact Lexeme.spelled_of_word? (admits_of_mem_lexemes l hl) hword

/-! ## One thing more in front -/

theorem nil : HasWords [] [] := by
  have hnone : Lexeme.next? [] = none := rfl
  simp [hasWords_iff, lexemes_of_next?_eq_none hnone]

theorem of_next? (hnext : Lexeme.next? source = some (l, after)) (h : HasWords after ws) :
    HasWords source (l.word?.toList ++ ws) := by
  rcases hasWords_iff.1 h with ⟨hrest, hwords⟩
  refine hasWords_iff.2 ?_
  rw [lexemes_of_next?_eq_some hnext]
  refine ⟨hrest, ?_⟩
  cases hword : l.word? with
  | none => simp [hword, hwords]
  | some w => simp [hword, hwords]

/-- `rest` has the same words without the blanks at its front. -/
theorem dropBlanks (h : HasWords rest ws) : HasWords (rest.dropWhile isBlank) ws := by
  cases rest with
  | nil => exact h
  | cons c rest =>
      cases hc : isBlank c with
      | false => simpa [List.dropWhile_cons, hc] using h
      | true =>
          -- the run in front is one piece, and it is no word
          rw [hasWords_iff, lexemes_of_next?_eq_some (Lexeme.next?_blank hc)] at h
          simpa [hasWords_iff, List.dropWhile_cons, hc, List.filterMap_cons, Lexeme.word?] using h

/-- `c :: rest` has the words of `rest` if `c` is a blank. -/
theorem blank (hc : isBlank c = true) (h : HasWords rest ws) : HasWords (c :: rest) ws :=
  of_next? (Lexeme.next?_blank hc) h.dropBlanks

theorem newline (h : HasWords rest ws) : HasWords ('\n' :: rest) ws :=
  of_next? Lexeme.next?_newline h

/-- `'#' :: (body ++ rest)` has the words of `rest` if `body` is the whole line behind the number
sign. -/
theorem comment (hbody : '\n' ∉ body) (hrest : ∀ c ∈ rest.head?, c = '\n')
    (h : HasWords rest ws) : HasWords ('#' :: (body ++ rest)) ws :=
  of_next? (Lexeme.next?_comment hbody hrest) h

theorem word (hw : w.Spelled)
    (hrest : w.kind = .name → ∀ c ∈ rest.head?, Text.isNameChar c = false)
    (h : HasWords rest ws) : HasWords (w.text.toList ++ rest) (w :: ws) := by
  have hpiece := of_next? (Lexeme.next?_token hw hrest) h
  simpa [Lexeme.word?] using hpiece

end HasWords

end Lookahead
