import Lookahead.Proofs.Reading.Layout
import Lookahead.Proofs.Reading.Tilings

/-!
# Places — where the tokens of a text stand

The places that the scan counts piece by piece are those that counting character by character
gives. Each token stands behind filler, and the filler behind the last one reaches up to the end.

- `Lexeme.placeBehind_eq_after`: both ways of counting agree.
- `Placed`: some tokens in a text, each at the place where it begins.
- `Placed.token`, `pairwise`, `drop`: one token, two tokens, and what is behind some of them.
- `placed_of_scan`: the tokens of the scan are placed in the text.
- `TokenStream.Covers`: the tokens are slices of the text, in order, with filler between them.
- `TokenStream.scan_decides_tiling`: the scan succeeds on the texts that fall into pieces, covers
  them, and stops on any other behind the longest part that does.
-/

namespace Lookahead

open Text

/-! ## Counting -/

theorem Text.Position.after_of_newline_not_mem {cs : List Char} (h : '\n' ∉ cs) (p : Position) :
    p.after cs = ⟨p.offset + cs.length, p.line, p.column + cs.length⟩ := by
  induction cs generalizing p with
  | nil => rfl
  | cons c cs ih =>
      rcases not_or.1 (List.mem_cons.not.1 h) with ⟨hc, hcs⟩
      have hnext : p.next c = ⟨p.offset + 1, p.line, p.column + 1⟩ := by
        simp [Position.next, Ne.symm hc]
      rw [Position.after_cons, hnext, ih hcs, List.length_cons]
      simp only [Position.mk.injEq, true_and]
      omega

theorem Lexeme.placeBehind_eq_after {l : Lexeme} (hl : l.kind.Admits l.text) (place : Position) :
    Lexeme.placeBehind place l = place.after l.text := by
  by_cases hkind : l.kind = .newline
  · have htext : l.text = ['\n'] := by simpa [hkind, LexemeKind.Admits] using hl
    simp [Lexeme.placeBehind, hkind, htext, Position.next]
  · rw [Position.after_of_newline_not_mem (hl.newline_not_mem hkind)]
    simp [Lexeme.placeBehind]

theorem foldl_placeBehind {pieces : List Lexeme} (h : ∀ p ∈ pieces, p.kind.Admits p.text)
    (place : Position) :
    pieces.foldl Lexeme.placeBehind place = place.after (pieces.flatMap Lexeme.text) := by
  induction pieces generalizing place with
  | nil => rfl
  | cons p pieces ih =>
      rcases List.forall_mem_cons.1 h with ⟨hp, hpieces⟩
      rw [List.foldl_cons, Lexeme.placeBehind_eq_after hp, ih hpieces, List.flatMap_cons,
        Position.after_append]

theorem Token.stop_eq_after (t : Token) : t.stop = (t.start.after t.lexeme.toList).offset := by
  rw [Position.offset_after, String.length_toList]
  rfl

/-! ## Tokens in a text -/

/-- `Placed stop place ts source`: read from `place` on, `source` is the tokens `ts` at their
`start`s with filler around them, and it ends at `stop`. -/
inductive Placed (stop : Position) : Position → List Token → List Char → Prop
  | nil {place : Position} {fill : List Char} :
      LastFiller fill → stop = place.after fill → Placed stop place [] fill
  | cons {place : Position} {t : Token} {ts : List Token} {fill rest : List Char} :
      Filler fill →
      t.start = place.after fill →
      t.word.Spelled →
      (t.kind = .name → ∀ c ∈ rest.head?, isNameChar c = false) →
      Placed stop (t.start.after t.lexeme.toList) ts rest →
      Placed stop place (t :: ts) (fill ++ (t.lexeme.toList ++ rest))

namespace Placed

variable {stop place : Position} {ts before after : List Token} {t : Token}
variable {source front fill rest : List Char}

theorem filler (hfill : Filler fill) (h : Placed stop (place.after fill) ts rest) :
    Placed stop place ts (fill ++ rest) := by
  cases h with
  | nil hlast hstop =>
      exact Placed.nil (LastFiller.of_append hfill hlast)
        (hstop.trans (Position.after_append place _ _).symm)
  | cons hmore hstart hspelled hends hrest =>
      rw [← List.append_assoc]
      exact Placed.cons (hfill.append hmore)
        (hstart.trans (Position.after_append place _ _).symm) hspelled hends hrest

/-- If `ts` are placed in `rest`, they are placed in `'#' :: (body ++ rest)` too: a comment is
filler up to the next line feed or the end. -/
theorem comment {body : List Char} (hbody : '\n' ∉ body) (hrest : ∀ c ∈ rest.head?, c = '\n')
    (h : Placed stop (place.after ('#' :: body)) ts rest) :
    Placed stop place ts ('#' :: (body ++ rest)) := by
  cases h with
  | nil hlast hstop =>
      refine Placed.nil (hlast.behind_comment hbody hrest) ?_
      rw [hstop, ← List.cons_append, Position.after_append]
  | @cons _ t _ fill behind hfill hstart hspelled hends hbehind =>
      cases fill with
      | nil =>
          -- no word begins with a line feed
          rcases List.exists_cons_of_ne_nil hspelled.text_ne_nil with ⟨c, cs, hcs⟩
          have hlexeme : t.lexeme.toList = c :: cs := hcs
          have hnewline : '\n' ∉ t.lexeme.toList := hspelled.newline_not_mem (by simp)
          rw [hlexeme] at hrest hnewline
          cases hrest c rfl
          exact absurd List.mem_cons_self hnewline
      | cons c fill =>
          cases hrest c rfl
          have hmore := Placed.cons (hfill.behind_comment hbody)
            (hstart.trans (Position.after_append place ('#' :: body) _).symm) hspelled hends hbehind
          simpa using hmore

/-! ## Facts about a token and what is around it -/

theorem stop_eq (h : Placed stop place ts source) : stop = place.after source := by
  induction h with
  | nil _ hstop => exact hstop
  | cons _ hstart _ _ _ ih => rw [ih, hstart, Position.after_append, Position.after_append]

/-- If `t` is one of the placed tokens, `source` is `front ++ t.lexeme ++ rest`, and `t.start` is
`place.after front`. -/
theorem token (h : Placed stop place ts source) (ht : t ∈ ts) :
    t.word.Spelled ∧ ∃ front rest, source = front ++ (t.lexeme.toList ++ rest) ∧
      t.start = place.after front := by
  induction h with
  | nil _ _ => cases ht
  | @cons place u ts fill rest _ hstart hspelled _ _ ih =>
      rcases List.mem_cons.1 ht with rfl | ht
      · exact ⟨hspelled, fill, rest, rfl, hstart⟩
      · rcases ih ht with ⟨htspelled, front, behind, rfl, hplace⟩
        refine ⟨htspelled, fill ++ (u.lexeme.toList ++ front), behind, by simp, ?_⟩
        rw [hplace, hstart, Position.after_append, Position.after_append]

/-- Of two placed tokens, the first has its `stop` at or before the `start` of the second, and
strictly before it if both are names. -/
theorem pairwise (h : Placed stop place ts source) :
    ts.Pairwise fun t u =>
      t.stop ≤ u.start.offset ∧ (t.kind = .name → u.kind = .name → t.stop < u.start.offset) := by
  induction h with
  | nil _ _ => exact List.Pairwise.nil
  | @cons place t ts fill rest _ _ _ hends hrest ih =>
      refine List.Pairwise.cons (fun u hu => ?_) ih
      rcases hrest.token hu with ⟨huspelled, front, behind, rfl, hstart⟩
      have hoffset : u.start.offset = t.stop + front.length := by
        rw [hstart, Position.offset_after, Token.stop_eq_after]
      refine ⟨by omega, fun ht hu => ?_⟩
      cases front with
      | cons c front =>
          rw [hoffset, List.length_cons]
          omega
      | nil =>
          -- the second name would go on with the first one
          exfalso
          have hname : (LexemeKind.token .name).Admits u.lexeme.toList := by
            simpa [Word.Spelled, Token.word, hu] using huspelled
          rcases List.exists_cons_of_ne_nil hname.1 with ⟨c, cs, hcs⟩
          have hno := hends ht c (by simp [hcs])
          rw [hname.2 c (by simp [hcs])] at hno
          cases hno

/-- If `before ++ after` is placed in `source`, then `after` is placed in some end `rest` of
`source`, which begins at the `stop` of the last of `before`. -/
theorem drop (h : Placed stop place (before ++ after) source) :
    ∃ front rest, source = front ++ rest ∧ Placed stop (place.after front) after rest ∧
      (place.after front).offset = (before.map Token.stop).getLastD place.offset := by
  induction before generalizing place source with
  | nil => exact ⟨[], source, rfl, h, rfl⟩
  | cons t before ih =>
      cases h with
      | @cons _ _ _ fill behind _ hstart _ _ hrest =>
          rcases ih hrest with ⟨front, rest, rfl, hafter, hoffset⟩
          have hplace : place.after (fill ++ (t.lexeme.toList ++ front)) =
              (t.start.after t.lexeme.toList).after front := by
            rw [Position.after_append, Position.after_append, hstart]
          refine ⟨fill ++ (t.lexeme.toList ++ front), rest, by simp, hplace ▸ hafter, ?_⟩
          rw [hplace, hoffset, List.map_cons, List.getLastD_cons, Token.stop_eq_after]

end Placed

/-! ## The scan -/

variable {source : List Char} {s : TokenStream} {stray : StrayChar}

/-- If the scan cuts all of `source` into lexemes, the tokens among them are `Placed` in `source`,
from any `place` on. -/
theorem placed_lexemes (h : (lexemes source).2 = []) (place : Position) :
    Placed ((lexemes source).1.foldl Lexeme.placeBehind place) place
      (TokenStream.tokensFrom place (lexemes source).1) source := by
  fun_induction lexemes source generalizing place with
  | case1 source hnext =>
      cases h
      exact Placed.nil (LastFiller.closed Filler.nil) rfl
  | case2 source l after hnext more rest hmore ih =>
      rcases Lexeme.next?_eq_some_iff.1 hnext with ⟨rfl, hadmits, hends⟩
      have hplace := Lexeme.placeBehind_eq_after hadmits place
      have hlater := ih (by simpa [hmore] using h) (Lexeme.placeBehind place l)
      rw [hmore, hplace] at hlater
      rcases l with ⟨kind, text⟩
      -- filler joins what is in front of the next token, and a token is placed itself
      cases kind with
      | blank =>
          have hall := Placed.filler (Filler.of_blanks hadmits.2) hlater
          simpa [TokenStream.tokensFrom, hplace] using hall
      | newline =>
          cases hadmits
          have hall := Placed.filler Filler.nil.newline hlater
          simpa [TokenStream.tokensFrom, hplace] using hall
      | comment =>
          rcases hadmits with ⟨body, rfl, hbody⟩
          have hall := Placed.comment hbody hends hlater
          simpa [TokenStream.tokensFrom, hplace] using hall
      | token kind =>
          have hspelled : (Token.mk kind (String.ofList text) place).word.Spelled := by
            simpa [Word.Spelled, Token.word] using hadmits
          have hname : kind = .name → ∀ c ∈ after.head?, isNameChar c = false := by
            rintro rfl
            exact hends
          have hall := Placed.cons Filler.nil rfl hspelled hname (by simpa using hlater)
          simpa [TokenStream.tokensFrom, hplace] using hall

theorem placed_of_scan (h : TokenStream.scan source = .ok s) :
    Placed s.stop {} s.tokens source := by
  rcases hlexemes : lexemes source with ⟨pieces, rest⟩
  cases rest with
  | nil =>
      simp only [TokenStream.scan, hlexemes, Except.ok.injEq] at h
      have hplaced := placed_lexemes (congrArg Prod.snd hlexemes) {}
      rw [hlexemes] at hplaced
      exact h ▸ hplaced
  | cons c rest => simp [TokenStream.scan, hlexemes] at h

theorem exists_scan_iff : (∃ s, TokenStream.scan source = .ok s) ↔ (lexemes source).2 = [] := by
  rcases hlexemes : lexemes source with ⟨pieces, rest⟩
  cases rest with
  | nil => simp [TokenStream.scan, hlexemes]
  | cons c rest => simp [TokenStream.scan, hlexemes]

/-- The `stray` of a failed scan is the character right behind `scanned source`, and its `place` is
`Position.after {} (scanned source)`. -/
theorem stray_of_scan (h : TokenStream.scan source = .error stray) :
    ∃ rest, source = scanned source ++ stray.char :: rest ∧
      stray.place = Position.after {} (scanned source) := by
  have hwhole := text_lexemes source
  have hadmits : ∀ p ∈ (lexemes source).1, p.kind.Admits p.text := admits_of_mem_lexemes
  have hcounted := foldl_placeBehind hadmits {}
  rcases hlexemes : lexemes source with ⟨pieces, rest⟩
  cases rest with
  | nil => simp [TokenStream.scan, hlexemes] at h
  | cons c rest =>
      simp only [TokenStream.scan, hlexemes, Except.error.injEq] at h
      rw [hlexemes] at hwhole hcounted
      subst h
      exact ⟨rest, by simp [scanned, hlexemes, hwhole], by simp [scanned, hlexemes, hcounted]⟩

/-- The tokens of `s` are slices of `source` in order, with filler in front of each and behind the
last, and two names are never adjacent. `s.stop` is the end of `source`. -/
structure TokenStream.Covers (s : TokenStream) (source : List Char) : Prop where
  spelled : ∀ t ∈ s.tokens, t.word.Spelled
  slice : ∀ t ∈ s.tokens, source.extract t.start.offset t.stop = t.lexeme.toList
  inside : ∀ t ∈ s.tokens, t.start.offset < t.stop ∧ t.stop ≤ source.length
  ordered : s.tokens.Pairwise fun t u => t.stop ≤ u.start.offset
  apart : s.tokens.Pairwise fun t u => t.kind = .name → u.kind = .name → t.stop < u.start.offset
  gaps : ∀ before t after, s.tokens = before ++ t :: after →
    Filler (source.extract ((before.map Token.stop).getLastD 0) t.start.offset)
  lastGap : LastFiller (source.extract ((s.tokens.map Token.stop).getLastD 0) source.length)
  stop : s.stop.offset = source.length

theorem covers_of_scan (h : TokenStream.scan source = .ok s) : s.Covers source := by
  have hplaced := placed_of_scan h
  have hstop : s.stop.offset = source.length := by
    rw [hplaced.stop_eq, Position.offset_after]
    exact Nat.zero_add _
  refine ⟨fun t ht => (hplaced.token ht).1, ?_, ?_, hplaced.pairwise.imp And.left,
    hplaced.pairwise.imp And.right, ?_, ?_, hstop⟩
  · intro t ht
    rcases hplaced.token ht with ⟨_, front, rest, rfl, hstart⟩
    have hoffset : t.start.offset = front.length := by simp [hstart, Position.offset_after]
    simp [Token.stop, hoffset, ← String.length_toList]
  · intro t ht
    rcases hplaced.token ht with ⟨hspelled, front, rest, rfl, hstart⟩
    have hoffset : t.start.offset = front.length := by simp [hstart, Position.offset_after]
    have hpos : 0 < t.lexeme.toList.length := List.length_pos_iff.2 hspelled.text_ne_nil
    simp only [List.length_append, Token.stop, hoffset, ← String.length_toList]
    omega
  · -- the filler in front of `t` begins where the tokens `before` end
    intro before t after hsplit
    rw [hsplit] at hplaced
    rcases hplaced.drop with ⟨front, rest, rfl, hrest, hoffset⟩
    cases hrest with
    | cons hfill hstart _ _ _ =>
        have hfront : front.length = (before.map Token.stop).getLastD 0 := by
          simpa [Position.offset_after] using hoffset
        rw [← hfront, hstart]
        simpa [Position.offset_after] using hfill
  · -- behind all tokens there is only the last filler
    rw [← List.append_nil s.tokens] at hplaced
    rcases hplaced.drop with ⟨front, rest, rfl, hrest, hoffset⟩
    cases hrest with
    | nil hlast _ =>
        have hfront : front.length = (s.tokens.map Token.stop).getLastD 0 := by
          simpa [Position.offset_after] using hoffset
        rw [← hfront]
        simpa using hlast

/-- `scan source` gives some `s` exactly if `source` has a `Tiling`, and then `s.Covers source`. If it
fails, the offset of `stray.place` is the greatest length of a prefix `front` of `source` that has a
`Tiling`, and `stray.char` stands there. -/
theorem TokenStream.scan_decides_tiling (source : List Char) :
    ((∃ s, scan source = .ok s) ↔ ∃ pieces, Tiling pieces source) ∧
      (∀ s, scan source = .ok s → s.Covers source) ∧
      ∀ stray, scan source = .error stray →
        source[stray.place.offset]? = some stray.char ∧
          IsGreatest {n | ∃ pieces front, Tiling pieces front ∧ front <+: source ∧
            front.length = n} stray.place.offset := by
  refine ⟨exists_scan_iff.trans exists_tiling_iff.symm, fun s => covers_of_scan, ?_⟩
  intro stray hscan
  rcases stray_of_scan hscan with ⟨rest, hsource, hplace⟩
  have hoffset : stray.place.offset = (scanned source).length := by
    simp [hplace, Position.offset_after]
  -- the scan stops behind `scanned source`, the longest prefix with a tiling
  rw [hoffset]
  constructor
  · have hhead := congrArg (fun cs : List Char => cs[(scanned source).length]?) hsource
    simpa using hhead
  · exact scanned_isGreatest source

/-- The comment `#?` hides the stray character in it. In `->>`, the second `>` begins no piece. -/
theorem scan_decides_tiling_arrows :
    (∃ s, TokenStream.scan "ab -> c. #?".toList = .ok s ∧ s.Covers "ab -> c. #?".toList) ∧
      ∃ stray, TokenStream.scan "ab -> c. #?\n->>".toList = .error stray ∧
        "ab -> c. #?\n->>".toList[stray.place.offset]? = some stray.char ∧
        IsGreatest {n | ∃ pieces front, Tiling pieces front ∧
          front <+: "ab -> c. #?\n->>".toList ∧ front.length = n} stray.place.offset := by
  have hcovered : TokenStream.scan "ab -> c. #?".toList =
      .ok ⟨[⟨.name, "ab", ⟨0, 1, 1⟩⟩, ⟨.arrow, "->", ⟨3, 1, 4⟩⟩, ⟨.name, "c", ⟨6, 1, 7⟩⟩,
        ⟨.dot, ".", ⟨7, 1, 8⟩⟩], ⟨11, 1, 12⟩⟩ := by
    decide +kernel
  have hstray : TokenStream.scan "ab -> c. #?\n->>".toList = .error ⟨'>', ⟨14, 2, 3⟩⟩ := by
    decide +kernel
  constructor
  · exact ⟨_, hcovered, (TokenStream.scan_decides_tiling _).2.1 _ hcovered⟩
  · exact ⟨_, hstray, (TokenStream.scan_decides_tiling _).2.2 _ hstray⟩

end Lookahead
