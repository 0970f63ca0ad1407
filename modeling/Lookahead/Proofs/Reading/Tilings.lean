import Lookahead.Proofs.Reading.Scanner
import Mathlib.Data.List.Infix
import Mathlib.Order.Bounds.Defs

/-!
# Tilings — all ways in which a text falls into pieces

The scan commits itself to the longest piece at the front and never goes back. Another cut can end a
run of blanks, a name or a comment earlier. Behind a shortened run the same run goes on; behind a
shortened comment other pieces may follow, but they end with the line, where the comment ends too.

- `LexemeKind.EndsAt`: a piece that cannot be longer in front of a text.
- `Lexeme.next?_eq_some_iff`: the piece that the scan finds is the one that is of its kind and
  cannot be longer.
- `lexemes_rest_suffix`: whatever pieces are cut off, the scan leaves no more behind.
- `exists_tiling_iff`: a text falls into pieces exactly if the scan leaves nothing.
-/

namespace Lookahead

/-! ## The longest piece -/

/-- In front of `rest`, a lexeme of this kind cannot be longer. -/
def LexemeKind.EndsAt : LexemeKind → List Char → Prop
  | .blank, rest => ∀ c ∈ rest.head?, isBlank c = false
  | .comment, rest => ∀ c ∈ rest.head?, c = '\n'
  | .token .name, rest => ∀ c ∈ rest.head?, Text.isNameChar c = false
  | _, _ => True

namespace Lexeme

variable {source after rest : List Char} {l : Lexeme}

theorem endsAt_dropWhile {kind : LexemeKind} {inside : Char → Bool}
    (h : ∀ rest : List Char, (∀ c ∈ rest.head?, inside c = false) → kind.EndsAt rest) :
    kind.EndsAt (rest.dropWhile inside) := by
  apply h
  intro c hc
  have hstop := List.head?_dropWhile_not inside rest
  simpa [Option.mem_def.1 hc] using hstop

/-- The lexeme that `next?` finds ends in front of what is `after` it, so it cannot be longer. -/
theorem endsAt_of_next? (h : next? source = some (l, after)) : l.kind.EndsAt after := by
  cases source with
  | nil => cases h
  | cons c rest =>
      simp only [next?, run] at h
      -- the branches of `next?` in order, from blanks down to names
      split at h
      · cases h
        exact endsAt_dropWhile fun _ hrest => hrest
      split at h
      · cases h
        trivial
      split at h
      · cases h
        refine endsAt_dropWhile fun _ hrest x hx => ?_
        simpa using hrest x hx
      split at h
      · unfold label? at h
        split at h
        · cases h
        · cases h
          trivial
        · cases h
      split at h
      · unfold arrow? at h
        split at h
        · cases h
          trivial
        · cases h
      split at h
      · cases h
        trivial
      split at h
      · cases h
        exact endsAt_dropWhile fun _ hrest => hrest
      · cases h

theorem next?_of_endsAt {kind : LexemeKind} {cs : List Char} (hcs : kind.Admits cs)
    (hrest : kind.EndsAt rest) : next? (cs ++ rest) = some (⟨kind, cs⟩, rest) := by
  cases kind with
  | blank =>
      rcases hcs with ⟨hne, hall⟩
      rcases List.exists_cons_of_ne_nil hne with ⟨c, body, rfl⟩
      rcases List.forall_mem_cons.1 hall with ⟨hc, hbody⟩
      have hspan := span_append_of_boundary hbody hrest
      have hrun : next? (c :: (body ++ rest)) = some _ := next?_blank hc
      simpa [hspan] using hrun
  | newline =>
      cases hcs
      exact next?_newline
  | comment =>
      rcases hcs with ⟨body, rfl, hbody⟩
      exact next?_comment hbody hrest
  | token kind =>
      refine next?_token hcs ?_
      rintro rfl
      exact hrest

theorem next?_eq_some_iff :
    next? source = some (l, rest) ↔
      source = l.text ++ rest ∧ l.kind.Admits l.text ∧ l.kind.EndsAt rest := by
  constructor
  · intro h
    exact ⟨(next?_append h).symm, admits_of_next? h, endsAt_of_next? h⟩
  · rintro ⟨rfl, hadmits, hends⟩
    exact next?_of_endsAt hadmits hends

end Lexeme

/-! ## Cuts -/

variable {source rest : List Char} {pieces : List Lexeme} {p : Lexeme}

/-- The only lexeme with a line feed in it is `.newline`. -/
theorem LexemeKind.Admits.newline_not_mem {kind : LexemeKind} {cs : List Char}
    (h : kind.Admits cs) (hkind : kind ≠ .newline) : '\n' ∉ cs := by
  intro hmem
  cases kind with
  | blank => exact absurd (h.2 '\n' hmem) (by decide)
  | newline => exact hkind rfl
  | comment =>
      rcases h with ⟨body, rfl, hbody⟩
      simp [hbody] at hmem
  | token kind =>
      cases kind with
      | label =>
          rcases h with ⟨word, rfl, _, hword⟩
          have hletter : '\n' ∈ word := by simpa using hmem
          exact absurd (hword '\n' hletter) (by decide)
      | arrow =>
          cases h
          simp at hmem
      | dot =>
          cases h
          simp at hmem
      | name => exact absurd (h.2 '\n' hmem) (by decide)

theorem lexemes_rest_of_endsAt {kind : LexemeKind} {cs : List Char} (hcs : kind.Admits cs)
    (hends : kind.EndsAt rest) : (lexemes (cs ++ rest)).2 = (lexemes rest).2 := by
  rw [lexemes_of_next?_eq_some (Lexeme.next?_of_endsAt hcs hends)]

/-- For a kind that is a run of `inside` characters, the scan comes as far behind `cs ++ rest` as
behind `rest`: if `rest` goes on with the run, the scan goes on behind the cut. -/
theorem lexemes_rest_run {kind : LexemeKind} {cs : List Char} (hcs : kind.Admits cs)
    (inside : Char → Bool) (hrun : ∀ cs, kind.Admits cs ↔ cs ≠ [] ∧ ∀ c ∈ cs, inside c = true)
    (hends : ∀ rest : List Char, (∀ c ∈ rest.head?, inside c = false) → kind.EndsAt rest) :
    (lexemes (cs ++ rest)).2 = (lexemes rest).2 := by
  have hstop : kind.EndsAt (rest.dropWhile inside) := Lexeme.endsAt_dropWhile hends
  have hmore : ∀ c ∈ rest.takeWhile inside, inside c = true :=
    List.all_eq_true.1 List.all_takeWhile
  rcases (hrun cs).1 hcs with ⟨hne, hinside⟩
  have hlonger : kind.Admits (cs ++ rest.takeWhile inside) :=
    (hrun _).2 ⟨by simp [hne], List.forall_mem_append.2 ⟨hinside, hmore⟩⟩
  have hwhole := lexemes_rest_of_endsAt hlonger hstop
  rw [List.append_assoc, List.takeWhile_append_dropWhile] at hwhole
  rw [hwhole]
  -- either nothing is cut off, or what is cut off is a run of its own
  cases htail : rest.takeWhile inside with
  | nil =>
      have hsplit := @List.takeWhile_append_dropWhile _ inside rest
      rw [htail, List.nil_append] at hsplit
      rw [hsplit]
  | cons c more =>
      have hlater : kind.Admits (rest.takeWhile inside) :=
        (hrun _).2 ⟨by simp [htail], hmore⟩
      have hsecond := lexemes_rest_of_endsAt hlater hstop
      rw [List.takeWhile_append_dropWhile] at hsecond
      rw [hsecond]

/-- The scan comes as far in `p.text ++ rest` as in `rest`, unless `p` is a comment. -/
theorem lexemes_rest_append (hp : p.kind.Admits p.text) (hkind : p.kind ≠ .comment) :
    (lexemes (p.text ++ rest)).2 = (lexemes rest).2 := by
  rcases p with ⟨kind, text⟩
  cases kind with
  | blank => exact lexemes_rest_run hp isBlank (fun _ => Iff.rfl) fun _ h => h
  | newline => exact lexemes_rest_of_endsAt hp trivial
  | comment => exact absurd rfl hkind
  | token kind =>
      cases kind with
      | name => exact lexemes_rest_run hp Text.isNameChar (fun _ => Iff.rfl) fun _ h => h
      | label => exact lexemes_rest_of_endsAt hp trivial
      | arrow => exact lexemes_rest_of_endsAt hp trivial
      | dot => exact lexemes_rest_of_endsAt hp trivial

/-- `source` from its first line feed on. -/
def fromLineEnd (source : List Char) : List Char :=
  source.dropWhile (· != '\n')

theorem fromLineEnd_append {cs : List Char} (hcs : '\n' ∉ cs) :
    fromLineEnd (cs ++ rest) = fromLineEnd rest := by
  apply List.dropWhile_append_of_pos
  intro c hc
  simpa using fun heq : c = '\n' => hcs (heq ▸ hc)

/-- Behind a comment `p`, the scan comes as far as in `fromLineEnd rest`, wherever the comment was
cut. -/
theorem lexemes_rest_comment (hp : p.kind.Admits p.text) (hkind : p.kind = .comment) :
    (lexemes (p.text ++ rest)).2 = (lexemes (fromLineEnd rest)).2 := by
  rcases p with ⟨kind, text⟩
  cases hkind
  rcases hp with ⟨body, rfl, hbody⟩
  -- the cut comment and the rest of its line are one comment
  have hline : '\n' ∉ body ++ rest.takeWhile (· != '\n') := by
    intro hmem
    rcases List.mem_append.1 hmem with hmem | hmem
    · exact hbody hmem
    · simpa using List.all_eq_true.1 List.all_takeWhile '\n' hmem
  have hends : LexemeKind.comment.EndsAt (fromLineEnd rest) := by
    refine Lexeme.endsAt_dropWhile fun _ h c hc => ?_
    simpa using h c hc
  have hadmits : LexemeKind.comment.Admits ('#' :: (body ++ rest.takeWhile (· != '\n'))) :=
    ⟨_, rfl, hline⟩
  have hnext := Lexeme.next?_of_endsAt hadmits hends
  rw [fromLineEnd, List.cons_append, List.append_assoc, List.takeWhile_append_dropWhile] at hnext
  rw [List.cons_append, lexemes_of_next?_eq_some hnext, fromLineEnd]

/-- If `pieces` are lexemes, the scan of their text and `rest` comes at least as far as they do. The
induction needs the same for `fromLineEnd` of that text, since the scan goes on there behind a
comment that was cut short. -/
theorem lexemes_rest_suffix (h : ∀ p ∈ pieces, p.kind.Admits p.text) :
    (lexemes (pieces.flatMap Lexeme.text ++ rest)).2 <:+ rest ∧
      (lexemes (fromLineEnd (pieces.flatMap Lexeme.text ++ rest))).2 <:+ rest := by
  have hleft (source : List Char) : (lexemes source).2 <:+ source :=
    ⟨_, text_lexemes source⟩
  induction pieces with
  | nil => exact ⟨hleft rest, (hleft (fromLineEnd rest)).trans (List.dropWhile_suffix _)⟩
  | cons p pieces ih =>
      rcases List.forall_mem_cons.1 h with ⟨hp, hpieces⟩
      rcases ih hpieces with ⟨hwhole, hline⟩
      rw [List.flatMap_cons, List.append_assoc]
      constructor
      · by_cases hkind : p.kind = .comment
        · -- the comment may have been cut short, so the scan goes on at the end of its line
          rw [lexemes_rest_comment hp hkind]
          exact hline
        · rw [lexemes_rest_append hp hkind]
          exact hwhole
      · by_cases hkind : p.kind = .newline
        · -- the piece is the end of the first line
          have htext : p.text = ['\n'] := by simpa [hkind, LexemeKind.Admits] using hp
          have hstays : fromLineEnd (p.text ++ (pieces.flatMap Lexeme.text ++ rest)) =
              p.text ++ (pieces.flatMap Lexeme.text ++ rest) := by
            simp [fromLineEnd, htext]
          rw [hstays, lexemes_rest_append hp (by simp [hkind])]
          exact hwhole
        · rw [fromLineEnd_append (hp.newline_not_mem hkind)]
          exact hline

/-- `source` has a `Tiling` exactly if `lexemes source` leaves nothing behind. -/
theorem exists_tiling_iff : (∃ pieces, Tiling pieces source) ↔ (lexemes source).2 = [] := by
  constructor
  · rintro ⟨pieces, hpieces, rfl⟩
    have hsuffix : (lexemes (pieces.flatMap Lexeme.text ++ [])).2 <:+ [] :=
      (lexemes_rest_suffix hpieces).1
    rw [List.append_nil] at hsuffix
    exact List.suffix_nil.1 hsuffix
  · intro h
    exact ⟨(lexemes source).1, tiling_lexemes h⟩

/-- The part of `source` that `lexemes` has cut off. -/
def scanned (source : List Char) : List Char :=
  (lexemes source).1.flatMap Lexeme.text

theorem tiling_scanned (source : List Char) : Tiling (lexemes source).1 (scanned source) :=
  ⟨admits_of_mem_lexemes, rfl⟩

/-- `scanned source` is the longest prefix of `source` that has a `Tiling`. -/
theorem scanned_isGreatest (source : List Char) :
    IsGreatest {n | ∃ pieces front, Tiling pieces front ∧ front <+: source ∧ front.length = n}
      (scanned source).length := by
  constructor
  · exact ⟨(lexemes source).1, scanned source, tiling_scanned source,
      ⟨_, text_lexemes source⟩, rfl⟩
  · rintro n ⟨pieces, front, ⟨hpieces, rfl⟩, ⟨rest, rfl⟩, rfl⟩
    have hsuffix : (lexemes (pieces.flatMap Lexeme.text ++ rest)).2 <:+ rest :=
      (lexemes_rest_suffix hpieces).1
    have hshorter := hsuffix.length_le
    have hlength := congrArg List.length
      (text_lexemes (pieces.flatMap Lexeme.text ++ rest))
    simp only [List.length_append] at hlength
    simp only [scanned]
    omega

end Lookahead
