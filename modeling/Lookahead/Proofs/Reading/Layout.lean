import Lookahead.Proofs.Reading.Scanner

/-!
# Layout — words with filler around them

Blanks, line feeds and comments may stand around the words of a text as one likes; only two names
in a row need some filler between them.

- `Filler`: blanks, line feeds, and comments that a line feed closes.
- `LastFiller`: the same at the end of a text, where a comment may be unclosed.
- `Layout`: some words, each with its filler behind it.
- `Layout.hasWords`: the scan finds the words of a layout again.
-/

namespace Lookahead

/-! ## Filler -/

inductive Filler : List Char → Prop
  | nil : Filler []
  | blank {c : Char} {rest : List Char} : isBlank c = true → Filler rest → Filler (c :: rest)
  | newline {rest : List Char} : Filler rest → Filler ('\n' :: rest)
  | comment {body rest : List Char} :
      '\n' ∉ body → Filler rest → Filler ('#' :: (body ++ '\n' :: rest))

/-- Filler up to the end of a text, where a last comment may be without a line feed. -/
inductive LastFiller : List Char → Prop
  | closed {fill : List Char} : Filler fill → LastFiller fill
  | unclosed {fill body : List Char} :
      Filler fill → '\n' ∉ body → LastFiller (fill ++ '#' :: body)

variable {fill rest text source : List Char} {ws more : List Word} {w : Word}

theorem Filler.of_blanks {cs : List Char} (h : ∀ c ∈ cs, isBlank c = true) : Filler cs := by
  induction cs with
  | nil => exact Filler.nil
  | cons c cs ih =>
      rcases List.forall_mem_cons.1 h with ⟨hc, hcs⟩
      exact (ih hcs).blank hc

theorem Filler.append (hfill : Filler fill) (h : Filler rest) : Filler (fill ++ rest) := by
  induction hfill with
  | nil => exact h
  | blank hc _ ih => exact ih.blank hc
  | newline _ ih => exact ih.newline
  | comment hbody _ ih => simpa using ih.comment hbody

theorem LastFiller.of_append (hfill : Filler fill) (h : LastFiller rest) :
    LastFiller (fill ++ rest) := by
  cases h with
  | closed h => exact LastFiller.closed (hfill.append h)
  | unclosed h hbody => simpa using LastFiller.unclosed (hfill.append h) hbody

/-- Filler that begins with a line feed is filler still with a comment in front of it. -/
theorem Filler.behind_comment {body : List Char} (h : Filler ('\n' :: fill)) (hbody : '\n' ∉ body) :
    Filler ('#' :: (body ++ '\n' :: fill)) := by
  cases h with
  | blank hc _ => exact absurd hc (by decide)
  | newline h => exact Filler.comment hbody h

theorem LastFiller.behind_comment {body : List Char} (h : LastFiller fill) (hbody : '\n' ∉ body)
    (hfill : ∀ c ∈ fill.head?, c = '\n') : LastFiller ('#' :: (body ++ fill)) := by
  cases h with
  | closed h =>
      cases fill with
      | nil => simpa using LastFiller.unclosed Filler.nil hbody
      | cons c fill =>
          cases hfill c rfl
          exact LastFiller.closed (h.behind_comment hbody)
  | @unclosed front last h hlast =>
      cases front with
      | nil => exact absurd (hfill '#' rfl) (by decide)
      | cons c front =>
          cases hfill c rfl
          simpa using LastFiller.unclosed (h.behind_comment hbody) hlast

/-- Filler in front adds no words: `fill ++ rest` has the words of `rest`. -/
theorem Filler.hasWords (hfill : Filler fill) (h : HasWords rest ws) :
    HasWords (fill ++ rest) ws := by
  induction hfill with
  | nil => exact h
  | blank hc _ ih => exact ih.blank hc
  | newline _ ih => exact ih.newline
  | comment hbody _ ih =>
      have hclosed := ih.newline.comment hbody (by simp)
      simpa using hclosed

theorem LastFiller.hasWords (hfill : LastFiller fill) : HasWords fill [] := by
  cases hfill with
  | closed hfill => simpa using hfill.hasWords HasWords.nil
  | unclosed hfill hbody =>
      have hcomment := HasWords.nil.comment hbody (by simp)
      exact hfill.hasWords (by simpa using hcomment)

/-- Filler does not begin with a name character. -/
theorem Filler.head?_not_name (hfill : Filler fill) :
    ∀ c ∈ fill.head?, Text.isNameChar c = false := by
  -- filler begins with a blank, a line feed or a number sign
  have hnone : ∀ c, isBlank c = true ∨ c = '\n' ∨ c = '#' → Text.isNameChar c = false := by
    intro c hc
    cases hname : Text.isNameChar c with
    | false => rfl
    | true =>
        rcases Lexeme.isNameChar_apart hname with ⟨hblank, hnewline, hhash, _⟩
        simp [hblank, hnewline, hhash] at hc
  intro c hc
  cases hfill with
  | nil => cases hc
  | blank hblank _ =>
      cases hc
      exact hnone c (Or.inl hblank)
  | newline _ =>
      cases hc
      exact hnone '\n' (Or.inr (Or.inl rfl))
  | comment _ _ =>
      cases hc
      exact hnone '#' (Or.inr (Or.inr rfl))

theorem LastFiller.head?_not_name (hfill : LastFiller fill) :
    ∀ c ∈ fill.head?, Text.isNameChar c = false := by
  cases hfill with
  | closed hfill => exact hfill.head?_not_name
  | @unclosed before body hfill hbody =>
      -- a line feed behind it would close the comment, and change nothing in front
      have hclosed := (Filler.comment hbody Filler.nil).head?_not_name
      cases before with
      | nil => simpa using hclosed
      | cons c before => simpa using hfill.head?_not_name

/-! ## Layouts -/

/-- `Layout ws text`: `text` is the words `ws` in order, each with `fill` behind it, which is
nonempty between two names. -/
inductive Layout : List Word → List Char → Prop
  | nil {fill : List Char} : LastFiller fill → Layout [] fill
  | cons {w : Word} {ws : List Word} {fill text : List Char} :
      Filler fill →
      (w.kind = .name → (∃ next ∈ ws.head?, next.kind = .name) → fill ≠ []) →
      Layout ws text →
      Layout (w :: ws) (w.text.toList ++ (fill ++ text))

/-- Unless `w` and the next word are both names, `w` can stand right in front of a layout. -/
theorem Layout.tight (hw : w.kind ≠ .name ∨ ∀ next ∈ ws.head?, next.kind ≠ .name)
    (h : Layout ws text) : Layout (w :: ws) (w.text.toList ++ text) := by
  refine Layout.cons Filler.nil ?_ h
  rintro hname ⟨next, hnext, hkind⟩
  rcases hw with hw | hw
  · exact absurd hname hw
  · exact absurd hkind (hw next hnext)

/-- `source` is filler and then a `Layout` of `ws`. -/
def LaidOut (ws : List Word) (source : List Char) : Prop :=
  ∃ fill text, Filler fill ∧ Layout ws text ∧ source = fill ++ text

theorem Word.Spelled.head?_not_name (hw : w.Spelled) (hkind : w.kind ≠ .name) :
    ∀ c ∈ (w.text.toList ++ rest).head?, Text.isNameChar c = false := by
  rcases w with ⟨kind, text⟩
  intro c hc
  cases kind with
  | label =>
      rcases hw with ⟨letters, htext, _⟩
      have hcolon : ':' = c := by simpa [htext] using hc
      exact hcolon ▸ by decide
  | arrow =>
      have htext : text.toList = ['-', '>'] := hw
      have hdash : '-' = c := by simpa [htext] using hc
      exact hdash ▸ by decide
  | dot =>
      have htext : text.toList = ['.'] := hw
      have hdot : '.' = c := by simpa [htext] using hc
      exact hdot ▸ by decide
  | name => exact absurd rfl hkind

/-- If the first of `ws` is no name, a layout of `ws` does not begin with a name character. -/
theorem Layout.head?_not_name (h : Layout ws text) (hws : ∀ w ∈ ws, w.Spelled)
    (hfirst : ∀ next ∈ ws.head?, next.kind ≠ .name) :
    ∀ c ∈ text.head?, Text.isNameChar c = false := by
  cases h with
  | nil hfill => exact hfill.head?_not_name
  | @cons w ws fill text hfill hgap _ =>
      exact (hws w List.mem_cons_self).head?_not_name (hfirst w rfl)

/-- The scanner finds the words `ws` in each layout of them. -/
theorem Layout.hasWords (h : Layout ws text) (hws : ∀ w ∈ ws, w.Spelled) : HasWords text ws := by
  induction h with
  | nil hfill => exact hfill.hasWords
  | @cons w ws fill text hfill hgap hrest ih =>
      have hlater : ∀ v ∈ ws, v.Spelled := fun v hv => hws v (List.mem_cons_of_mem w hv)
      refine (hfill.hasWords (ih hlater)).word (hws w List.mem_cons_self) ?_
      intro hname
      -- filler stands behind the name, or a word that is no name
      cases fill with
      | cons c fill => simpa using hfill.head?_not_name
      | nil =>
          refine hrest.head?_not_name hlater ?_
          intro next hnext hkind
          exact hgap hname ⟨next, hnext, hkind⟩ rfl

theorem LaidOut.hasWords (h : LaidOut ws source) (hws : ∀ w ∈ ws, w.Spelled) :
    HasWords source ws := by
  rcases h with ⟨fill, text, hfill, htext, rfl⟩
  exact hfill.hasWords (htext.hasWords hws)

end Lookahead
