import Lookahead.Proofs.Reading.Failure
import Lookahead.Proofs.Reading.Places
import Mathlib.Data.List.DropRight

/-!
# Carets — lines, columns and what is shown of them

A place is reached by counting, and its line is found again by a search from its offset. Both speak
of the same line of the text.

- `Text.Position.after_line`, `after_column`: counting, said of the text in front of a place.
- `Text.LineAround`: a text cut around an offset at the two ends of the line.
- `Text.Position.Agrees`: a place, the line around it and the caret under it belong together.
- `Description.places_agree`: so it is for every token, for the end of the text and for every
  failure.
-/

namespace Lookahead

open Text

/-! ## Counting -/

namespace Text

variable {source before behind cs : List Char} {offset : Nat} {p : Position}

theorem Position.after_line (p : Position) (cs : List Char) :
    (p.after cs).line = p.line + cs.count '\n' := by
  induction cs generalizing p with
  | nil => rfl
  | cons c cs ih =>
      rw [Position.after_cons, ih]
      by_cases hc : c = '\n'
      · simp [Position.next, hc]
        omega
      · simp [Position.next, hc]

/-- The column of `Position.after {} cs` is one more than the length of what stands in `cs` behind
its last line feed. -/
theorem Position.after_column (cs : List Char) :
    (Position.after {} cs).column = 1 + (cs.rtakeWhile staysOnLine).length := by
  induction cs using List.reverseRecOn with
  | nil => rfl
  | append_singleton cs c ih =>
      rw [Position.after_append, Position.after_cons, Position.after_nil, List.rtakeWhile_concat]
      by_cases hc : c = '\n'
      · simp [Position.next, staysOnLine, hc]
      · simp [Position.next, staysOnLine, hc, ih]
        omega

/-! ## The line around an offset -/

theorem staysOnLine_eq_false_iff {c : Char} : staysOnLine c = false ↔ c = '\n' := by
  simp [staysOnLine]

/-- `source` cut at `offset` and at both ends of the line around it: the lines `earlier`, the line
`begun` up to `offset` and `ahead` of it, and the rest `later` from the next line feed on. -/
structure LineAround (source : List Char) (offset : Nat) where
  earlier : List Char
  begun : List Char
  ahead : List Char
  later : List Char
  source_eq : source = earlier ++ begun ++ (ahead ++ later)
  offset_eq : offset = (earlier ++ begun).length
  begun_stays : ∀ c ∈ begun, staysOnLine c = true
  ahead_stays : ∀ c ∈ ahead, staysOnLine c = true
  begins : ∀ c ∈ earlier.getLast?, staysOnLine c = false
  ends : ∀ c ∈ later.head?, staysOnLine c = false

/-- The `LineAround` of each `offset` within `source`. -/
def lineAround (h : offset ≤ source.length) : LineAround source offset where
  earlier := (source.take offset).rdropWhile staysOnLine
  begun := (source.take offset).rtakeWhile staysOnLine
  ahead := (source.drop offset).takeWhile staysOnLine
  later := (source.drop offset).dropWhile staysOnLine
  source_eq := by
    rw [List.rdropWhile_append_rtakeWhile, List.takeWhile_append_dropWhile,
      List.take_append_drop]
  offset_eq := by
    rw [List.rdropWhile_append_rtakeWhile, List.length_take, Nat.min_eq_left h]
  begun_stays := fun c hc => List.mem_rtakeWhile_imp hc
  ahead_stays := List.all_eq_true.1 List.all_takeWhile
  begins := by
    intro c hc
    rcases List.getLast?_eq_some_iff.1 hc with ⟨front, hfront⟩
    have hne : (source.take offset).rdropWhile staysOnLine ≠ [] := by simp [hfront]
    have hlast := List.rdropWhile_last_not staysOnLine (source.take offset) hne
    simpa [hfront] using hlast
  ends := by
    intro c hc
    have hstop := List.head?_dropWhile_not staysOnLine (source.drop offset)
    simpa [Option.mem_def.1 hc] using hstop

namespace LineAround

theorem take_eq (l : LineAround source offset) : source.take offset = l.earlier ++ l.begun :=
  calc
    source.take offset
        = (l.earlier ++ l.begun ++ (l.ahead ++ l.later)).take (l.earlier ++ l.begun).length :=
          congrArg₂ (fun cs n => List.take n cs) l.source_eq l.offset_eq
    _ = l.earlier ++ l.begun := List.take_left

theorem drop_eq (l : LineAround source offset) : source.drop offset = l.ahead ++ l.later :=
  calc
    source.drop offset
        = (l.earlier ++ l.begun ++ (l.ahead ++ l.later)).drop (l.earlier ++ l.begun).length :=
          congrArg₂ (fun cs n => List.drop n cs) l.source_eq l.offset_eq
    _ = l.ahead ++ l.later := List.drop_left

theorem rtakeWhile_eq (l : LineAround source offset) :
    (source.take offset).rtakeWhile staysOnLine = l.begun := by
  have hstays : ∀ c ∈ l.begun.reverse, staysOnLine c = true := by
    simpa using l.begun_stays
  have hbegins : ∀ c ∈ l.earlier.reverse.head?, staysOnLine c = false := by
    simpa using l.begins
  have hspan := (span_append_of_boundary hstays hbegins).1
  rw [l.take_eq, List.rtakeWhile, List.reverse_append, hspan, List.reverse_reverse]

theorem lineBounds_eq (l : LineAround source offset) :
    lineBounds source offset =
      (l.earlier.length, l.earlier.length + (l.begun ++ l.ahead).length) := by
  have hbegun : ((source.take offset).reverse.takeWhile staysOnLine).length = l.begun.length := by
    have hsame := congrArg List.length l.rtakeWhile_eq
    simpa [List.rtakeWhile] using hsame
  have hahead := (span_append_of_boundary l.ahead_stays l.ends).1
  simp only [lineBounds, hbegun, l.drop_eq, hahead]
  simp only [l.take_eq, List.length_append, Prod.mk.injEq]
  omega

/-- The line `l.begun ++ l.ahead` holds no line feed. -/
theorem newline_not_mem (l : LineAround source offset) : '\n' ∉ l.begun ++ l.ahead := by
  intro hmem
  rcases List.mem_append.1 hmem with hmem | hmem
  · exact absurd (l.begun_stays '\n' hmem) (by decide)
  · exact absurd (l.ahead_stays '\n' hmem) (by decide)

theorem joined (l : LineAround source offset) :
    source = l.earlier ++ (l.begun ++ l.ahead ++ l.later) := by
  simpa using l.source_eq

/-- The line `l.begun ++ l.ahead` is what `source.extract` gives for its two ends. -/
theorem extract_eq (l : LineAround source offset) :
    source.extract l.earlier.length (l.earlier.length + (l.begun ++ l.ahead).length) =
      l.begun ++ l.ahead :=
  calc
    source.extract l.earlier.length (l.earlier.length + (l.begun ++ l.ahead).length)
        = (l.earlier ++ (l.begun ++ l.ahead ++ l.later)).extract l.earlier.length
            (l.earlier.length + (l.begun ++ l.ahead).length) :=
          congrArg (fun cs : List Char => cs.extract _ _) l.joined
    _ = l.begun ++ l.ahead := by
          rw [List.extract_eq_take_drop, List.drop_left, Nat.add_sub_cancel_left, List.take_left]

theorem count_take (l : LineAround source offset) :
    (source.take offset).count '\n' = l.earlier.count '\n' := by
  have hnone : l.begun.count '\n' = 0 :=
    List.count_eq_zero.2 fun hmem => l.newline_not_mem (List.mem_append_left l.ahead hmem)
  rw [l.take_eq, List.count_append, hnone, Nat.add_zero]

end LineAround

/-! ## Lines by number -/

theorem length_splitOn (cs : List Char) : (cs.splitOn '\n').length = 1 + cs.count '\n' := by
  induction cs with
  | nil => rfl
  | cons c cs ih =>
      have hsplit : ((c :: cs).splitOn '\n').length =
          if c = '\n' then 1 + (cs.splitOn '\n').length else (cs.splitOn '\n').length := by
        by_cases hc : c = '\n'
        · simp [List.splitOn, List.splitOnP_cons_eq_if_modifyHead, hc, Nat.add_comm]
        · simp [List.splitOn, List.splitOnP_cons_eq_if_modifyHead, hc]
      rw [hsplit, ih]
      by_cases hc : c = '\n'
      · simp [hc]
        omega
      · simp [hc]

/-- If line feeds or the ends of the text stand around `line`, then `splitOn` has it as the piece
with the number `earlier.count '\n'`. -/
theorem splitOn_getElem? {earlier line later : List Char} (hline : '\n' ∉ line)
    (hbegins : ∀ c ∈ earlier.getLast?, c = '\n') (hends : ∀ c ∈ later.head?, c = '\n') :
    ((earlier ++ (line ++ later)).splitOn '\n')[earlier.count '\n']? = some line := by
  -- the line itself ends at the next line feed
  have hfirst : ∃ more, (line ++ later).splitOn '\n' = line :: more := by
    cases later with
    | nil => exact ⟨[], by simpa using List.splitOn_eq_singleton hline⟩
    | cons c later =>
        cases hends c rfl
        exact ⟨_, List.splitOn_append_cons_self_of_not_mem hline later⟩
  rcases hfirst with ⟨more, hfirst⟩
  rcases List.eq_nil_or_concat' earlier with rfl | ⟨front, c, rfl⟩
  · simp [hfirst]
  · -- the lines in front of it are as many as their line feeds
    cases hbegins c (by simp)
    have hpieces : (front ++ '\n' :: (line ++ later)).splitOn '\n' =
        front.splitOn '\n' ++ (line ++ later).splitOn '\n' :=
      List.splitOnP_append_cons front (line ++ later) (beq_self_eq_true '\n')
    have hcount : (front ++ ['\n']).count '\n' = (front.splitOn '\n').length := by
      rw [length_splitOn, List.count_append, List.count_singleton_self, Nat.add_comm]
    rw [hcount, List.append_assoc, List.singleton_append, hpieces, hfirst]
    simp

theorem LineAround.splitOn_getElem? (l : LineAround source offset) :
    (source.splitOn '\n')[l.earlier.count '\n']? = some (l.begun ++ l.ahead) := by
  have hbegins : ∀ c ∈ l.earlier.getLast?, c = '\n' :=
    fun c hc => staysOnLine_eq_false_iff.1 (l.begins c hc)
  have hends : ∀ c ∈ l.later.head?, c = '\n' :=
    fun c hc => staysOnLine_eq_false_iff.1 (l.ends c hc)
  calc
    (source.splitOn '\n')[l.earlier.count '\n']?
        = ((l.earlier ++ (l.begun ++ l.ahead ++ l.later)).splitOn '\n')[l.earlier.count '\n']? :=
          congrArg (fun cs : List Char => (cs.splitOn '\n')[_]?) l.joined
    _ = some (l.begun ++ l.ahead) := Text.splitOn_getElem? l.newline_not_mem hbegins hends

/-! ## Places and their lines -/

/-- `first` and `stop` bound the line around `offset`: the widest part around it without a line
feed. -/
structure BoundsLine (source : List Char) (offset first stop : Nat) : Prop where
  first_le : first ≤ offset
  le_stop : offset ≤ stop
  stop_le : stop ≤ source.length
  unbroken : '\n' ∉ source.extract first stop
  widest : ∀ first' stop', first' ≤ offset → offset ≤ stop' → stop' ≤ source.length →
    '\n' ∉ source.extract first' stop' → first ≤ first' ∧ stop' ≤ stop

theorem mem_extract {c : Char} {first n stop : Nat} (hfirst : first ≤ n) (hstop : n < stop)
    (hc : source[n]? = some c) : c ∈ source.extract first stop := by
  have hat : (source.extract first stop)[n - first]? = some c := by
    rw [List.extract_eq_take_drop, List.getElem?_take_of_lt (by omega), List.getElem?_drop,
      Nat.add_sub_cancel' hfirst, hc]
  exact List.mem_of_getElem? hat

theorem LineAround.boundsLine (l : LineAround source offset) :
    BoundsLine source offset l.earlier.length
      (l.earlier.length + (l.begun ++ l.ahead).length) := by
  have hunbroken := l.extract_eq ▸ l.newline_not_mem
  rcases l with ⟨earlier, begun, ahead, later, rfl, rfl, _, _, hbegins, hends⟩
  simp only [List.length_append] at hunbroken ⊢
  refine ⟨by omega, by omega, by simp, hunbroken, ?_⟩
  intro first' stop' hfirst hstop hle hnone
  constructor
  · -- otherwise the line feed in front of the line is inside
    by_contra hlt
    rcases List.eq_nil_or_concat' earlier with rfl | ⟨front, c, rfl⟩
    · simp at hlt
    · have hc : c = '\n' := staysOnLine_eq_false_iff.1 (hbegins c (by simp))
      refine hnone (mem_extract (n := front.length) ?_ ?_ ?_)
      · simp at hlt
        omega
      · simp at hstop
        omega
      · simp [hc]
  · -- otherwise the line feed behind the line is inside
    by_contra hlt
    cases later with
    | nil =>
        simp at hle
        omega
    | cons c later =>
        have hc : c = '\n' := staysOnLine_eq_false_iff.1 (hends c rfl)
        refine hnone (mem_extract (n := (earlier ++ begun ++ ahead).length) ?_ ?_ ?_)
        · simp
          omega
        · simp
          omega
        · simp [hc, ← List.append_assoc]

/-- `p.line` and `p.column` are those of `p.offset` in `source`, `lineBounds` finds the line around
it, and `excerpt` shows the line with the number `p.line` and a caret under `p.column`. -/
structure Position.Agrees (source : List Char) (p : Position) : Prop where
  line : p.line = 1 + (source.take p.offset).count '\n'
  column : p.column = 1 + ((source.take p.offset).rtakeWhile (· != '\n')).length
  bounds : BoundsLine source p.offset (lineBounds source p.offset).1 (lineBounds source p.offset).2
  shown : ∃ text, (source.splitOn '\n')[p.line - 1]? = some text ∧
    excerpt source p.offset =
      String.ofList (text ++ '\n' :: List.replicate (p.column - 1) ' ' ++ ['^'])

/-- `Position.after {} before` agrees with any text that begins with `before`: its `line` is the one
that `lineBounds` finds by searching. -/
theorem Position.agrees_after (before behind : List Char) :
    (Position.after {} before).Agrees (before ++ behind) := by
  have hoffset : (Position.after {} before).offset = before.length := by
    simp [Position.offset_after]
  have hinside : before.length ≤ (before ++ behind).length := by simp
  -- what was counted, and what the cut at the offset gives
  have l := lineAround hinside
  have htake : (before ++ behind).take before.length = before := List.take_left
  have hcount := l.count_take
  have hbegun := l.rtakeWhile_eq
  rw [htake] at hcount hbegun
  have hline : (Position.after {} before).line = 1 + before.count '\n' :=
    Position.after_line {} before
  have hcolumn := Position.after_column before
  constructor
  · rw [hoffset, htake, hline]
  · rw [hoffset, htake, hcolumn]
    rfl
  · rw [hoffset, l.lineBounds_eq]
    exact l.boundsLine
  · refine ⟨l.begun ++ l.ahead, ?_, ?_⟩
    · rw [hline, Nat.add_sub_cancel_left, hcount]
      exact l.splitOn_getElem?
    · have hwidth : before.length - l.earlier.length = l.begun.length := by
        have hlength := l.offset_eq
        rw [List.length_append] at hlength
        omega
      have hshown := l.extract_eq
      rw [List.extract_eq_take_drop, Nat.add_sub_cancel_left] at hshown
      simp only [excerpt, hoffset, l.lineBounds_eq, hcolumn, hbegun, hwidth, hshown,
        Nat.add_sub_cancel_left]

end Text

/-! ## Tokens and failures -/

variable {source : List Char} {s : TokenStream} {stray : StrayChar}

theorem agrees_of_token {t : Token} (h : TokenStream.scan source = .ok s) (ht : t ∈ s.tokens) :
    t.start.Agrees source := by
  rcases (placed_of_scan h).token ht with ⟨_, before, behind, rfl, hstart⟩
  exact hstart ▸ Position.agrees_after before _

theorem agrees_of_stop (h : TokenStream.scan source = .ok s) : s.stop.Agrees source := by
  have hwhole := Position.agrees_after source []
  rw [List.append_nil] at hwhole
  exact (placed_of_scan h).stop_eq ▸ hwhole

theorem agrees_of_stray (h : TokenStream.scan source = .error stray) :
    stray.place.Agrees source := by
  rcases stray_of_scan h with ⟨behind, hsource, hplace⟩
  have hcut := Position.agrees_after (scanned source) (stray.char :: behind)
  rw [← hsource] at hcut
  exact hplace ▸ hcut

theorem ReadError.PointsInto.agrees {e : ReadError} (h : e.PointsInto source) :
    e.place.Agrees source := by
  cases e with
  | strayChar stray => exact agrees_of_stray h
  | mismatch expected found place =>
      rcases h with ⟨s, rest, hscan, hrest, rfl, rfl⟩
      cases rest with
      | nil => exact agrees_of_stop hscan
      | cons t rest => exact agrees_of_token hscan (hrest.subset List.mem_cons_self)
  | leftover found =>
      rcases h with ⟨s, hscan, hfound⟩
      exact agrees_of_token hscan hfound

/-- Every token of a scan, its `stop`, its `stray` and the `place` of every failure to read `Agrees`
with `source`. The `message` of a failure shows the line and the column of its `place`, and below
them the line of `source` with that number and a caret under that column. -/
theorem Description.places_agree (source : List Char) :
    (∀ s, TokenStream.scan source = .ok s →
        ∀ p ∈ s.tokens.map Token.start ++ [s.stop], p.Agrees source) ∧
      (∀ stray, TokenStream.scan source = .error stray → stray.place.Agrees source) ∧
      ∀ e, Description.read source = .error e →
        e.place.Agrees source ∧
          ∃ text, (source.splitOn '\n')[e.place.line - 1]? = some text ∧
            e.message source =
              (match e with
                | .strayChar stray =>
                    "Unexpected char " ++ quoted (String.singleton stray.char) ++ " at " ++
                      toString e.place.line ++ ":" ++ toString e.place.column
                | .mismatch expected found _ =>
                    "Expected " ++ expected.text ++ ", got " ++ ReadError.describe found ++
                      " at " ++ toString e.place.line ++ ":" ++ toString e.place.column
                | .leftover found =>
                    "There was some leftover input at " ++ toString e.place.line ++ ":" ++
                      toString e.place.column ++ ": " ++ ReadError.describe (some found)) ++
              "\n" ++
              String.ofList (text ++ '\n' :: List.replicate (e.place.column - 1) ' ' ++ ['^']) := by
  refine ⟨?_, fun stray => agrees_of_stray, ?_⟩
  · intro s hscan p hp
    rcases List.mem_append.1 hp with hp | hp
    · rcases List.mem_map.1 hp with ⟨t, ht, rfl⟩
      exact agrees_of_token hscan ht
    · exact List.mem_singleton.1 hp ▸ agrees_of_stop hscan
  · intro e hread
    have hplace := (pointsInto_of_read hread).agrees
    rcases hplace.shown with ⟨text, htext, hexcerpt⟩
    refine ⟨hplace, text, htext, ?_⟩
    -- the excerpt is that of `shown`, and what stands in front of it is that of the failure
    rw [← hexcerpt]
    cases e with
    | strayChar stray => exact ReadError.message_strayChar source stray
    | mismatch expected found place => exact ReadError.message_mismatch source expected found place
    | leftover found => exact ReadError.message_leftover source found

/-- The whole `message` of a failure at a token and of one at a stray character. -/
theorem places_agree_arrow :
    (∃ s, TokenStream.scan ":Start: S\n  ->".toList = .ok s ∧
        ∀ p ∈ s.tokens.map Token.start ++ [s.stop], p.Agrees ":Start: S\n  ->".toList) ∧
      (∃ stray, TokenStream.scan "S\n ?".toList = .error stray ∧
        stray.place.Agrees "S\n ?".toList) ∧
      (∃ e, Description.read ":Start: S\n  ->".toList = .error e ∧
        e.place.Agrees ":Start: S\n  ->".toList ∧
        e.message ":Start: S\n  ->".toList =
          "Expected ':Terminals:', got '->' at 2:3\n  ->\n  ^") ∧
      ∃ e, Description.read "S\n ?".toList = .error e ∧ e.place.Agrees "S\n ?".toList ∧
        e.message "S\n ?".toList = "Unexpected char '?' at 2:2\n ?\n ^" := by
  have hscan : TokenStream.scan ":Start: S\n  ->".toList =
      .ok ⟨[⟨.label, ":Start:", ⟨0, 1, 1⟩⟩, ⟨.name, "S", ⟨8, 1, 9⟩⟩, ⟨.arrow, "->", ⟨12, 2, 3⟩⟩],
        ⟨14, 2, 5⟩⟩ := by
    decide +kernel
  have hstray : TokenStream.scan "S\n ?".toList = .error ⟨'?', ⟨3, 2, 2⟩⟩ := by
    decide +kernel
  have hread : Description.read ":Start: S\n  ->".toList =
      .error (.mismatch (.label .terminals) (some ⟨.arrow, "->", ⟨12, 2, 3⟩⟩) ⟨12, 2, 3⟩) := by
    decide +kernel
  have hrefused : Description.read "S\n ?".toList = .error (.strayChar ⟨'?', ⟨3, 2, 2⟩⟩) := by
    rw [Description.read, hstray]
  refine ⟨⟨_, hscan, ?_⟩, ⟨_, hstray, ?_⟩, ⟨_, hread, ?_⟩, ⟨_, hrefused, ?_⟩⟩
  · exact (Description.places_agree _).1 _ hscan
  · exact (Description.places_agree _).2.1 _ hstray
  · rcases (Description.places_agree _).2.2 _ hread with ⟨hplace, text, htext, hmessage⟩
    have hline : (":Start: S\n  ->".toList.splitOn '\n')[1]? = some "  ->".toList := by
      decide +kernel
    cases hline.symm.trans htext
    exact ⟨hplace, hmessage.trans (by decide +kernel)⟩
  · rcases (Description.places_agree _).2.2 _ hrefused with ⟨hplace, text, htext, hmessage⟩
    have hline : ("S\n ?".toList.splitOn '\n')[1]? = some " ?".toList := by
      decide +kernel
    cases hline.symm.trans htext
    exact ⟨hplace, hmessage.trans (by decide +kernel)⟩

end Lookahead
