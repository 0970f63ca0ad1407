import Lookahead.Proofs.Grammar.FollowExact

/-!
# WordExact — FIRST and FOLLOW sets of reduced grammars

On a reduced grammar every form can be completed to a word, and every form derived from a
non-terminal occurs inside one derived from the start symbol. The sets then speak of words alone.

- `Grammar.Reduced.exists_word`: a form of declared symbols derives a word.
- `Grammar.Reduced.exists_root`: a form derived from a non-terminal, inside one from the start
  symbol.
- `Grammar.Reduced.complete`: the symbols on both sides of a part become words.
- `Grammar.Reduced.exists_word_cons`, `exists_words_around`, `exists_word_before`: what stands in
  front, side by side or last in a form does so in a completed one.
- `Grammar.WordExact`: what the sets say of words.
-/

namespace Lookahead
namespace Grammar

variable {g : Grammar} {first follow : SetMap} {u v w before after : List SymbolId}
variable {x t : SymbolId}

theorem IsWord.append (hu : g.IsWord u) (hv : g.IsWord v) : g.IsWord (u ++ v) := by
  intro x hx
  rcases List.mem_append.1 hx with hx | hx
  · exact hu x hx
  · exact hv x hx

theorem IsWord.cons (ht : t ∈ g.terminals) (hw : g.IsWord w) : g.IsWord (t :: w) := by
  intro x hx
  rcases List.mem_cons.1 hx with rfl | hx
  · exact ht
  · exact hw x hx

/-! ## Completion -/

namespace Reduced

theorem exists_word (hr : g.Reduced) (hu : ∀ x ∈ u, g.Declares x) :
    ∃ w, g.IsWord w ∧ g.Derives u w := by
  -- symbol by symbol, since the parts of a form derive side by side
  induction u with
  | nil => exact ⟨[], by simp [IsWord], Relation.ReflTransGen.refl⟩
  | cons x u ih =>
      rcases ih fun y hy => hu y (List.mem_cons_of_mem x hy) with ⟨w, hw, hrest⟩
      have hhead : g.Productive x := by
        rcases hu x List.mem_cons_self with hterminal | hnonTerminal
        · exact ⟨[x], IsWord.cons hterminal (by simp [IsWord]), Relation.ReflTransGen.refl⟩
        · exact (hr x hnonTerminal).2
      rcases hhead with ⟨w', hw', hx⟩
      exact ⟨w' ++ w, hw'.append hw, hx.append hrest⟩

theorem exists_root (hr : g.Reduced) {root : SymbolId} (hroot : root ∈ g.nonTerminals)
    (h : g.Derives [root] u) : ∃ before after, g.Derives [g.start] (before ++ u ++ after) := by
  rcases (hr root hroot).1 with ⟨before, after, hreach⟩
  have hinner : g.Derives (before ++ root :: after) (before ++ u ++ after) := by
    simpa using h.within before after
  exact ⟨before, after, hreach.trans hinner⟩

/-- In a form `before ++ u ++ after` derived from the start symbol, `before` derives a word `v` and
`after` a word `w`, and `v ++ u ++ w` is derived as well. -/
theorem complete (hr : g.Reduced) (hg : g.WellFormed)
    (h : g.Derives [g.start] (before ++ u ++ after)) :
    ∃ v w, g.IsWord v ∧ g.IsWord w ∧ g.Derives [g.start] (v ++ u ++ w) ∧
      g.Derives before v ∧ g.Derives after w := by
  have hform := hg.declares_of_root hg.start h
  have hleft : ∀ x ∈ before, g.Declares x := fun x hx => hform x (by simp [hx])
  have hright : ∀ x ∈ after, g.Declares x := fun x hx => hform x (by simp [hx])
  rcases hr.exists_word hleft with ⟨v, hv, hbefore⟩
  rcases hr.exists_word hright with ⟨w, hw, hafter⟩
  have hsides : g.Derives (before ++ u ++ after) (v ++ u ++ w) :=
    (hbefore.append_right u).append hafter
  exact ⟨v, w, hv, hw, h.trans hsides, hbefore, hafter⟩

/-- If `[x]` derives `t :: u` for a terminal `t`, it derives a word `t :: w`. -/
theorem exists_word_cons (hr : g.Reduced) (hg : g.WellFormed) (hx : x ∈ g.nonTerminals)
    (ht : t ∈ g.terminals) (h : g.Derives [x] (t :: u)) :
    ∃ w, g.IsWord (t :: w) ∧ g.Derives [x] (t :: w) := by
  have hform := hg.declares_of_root hx h
  have hdeclares : ∀ y ∈ u, g.Declares y := fun y hy => hform y (List.mem_cons_of_mem t hy)
  rcases hr.exists_word hdeclares with ⟨w, hw, hrest⟩
  exact ⟨w, hw.cons ht, h.trans (hrest.append_left [t])⟩

/-- If `x` and `t` are neighbours in a form derived from some `root`, then they are neighbours
between two words `u` and `v` in a form derived from the start symbol. -/
theorem exists_words_around (hr : g.Reduced) (hg : g.WellFormed) {root : SymbolId}
    (hroot : root ∈ g.nonTerminals) (h : g.Derives [root] (before ++ x :: t :: after)) :
    ∃ u v, g.IsWord u ∧ g.IsWord v ∧ g.Derives [g.start] (u ++ x :: t :: v) := by
  rcases hr.exists_root hroot h with ⟨left, right, hstart⟩
  have hstart' : g.Derives [g.start] ((left ++ before) ++ [x, t] ++ (after ++ right)) := by
    simpa using hstart
  rcases hr.complete hg hstart' with ⟨u, v, hu, hv, hword, _⟩
  exact ⟨u, v, hu, hv, by simpa using hword⟩

/-- If `before ++ [x]` is derived from the start symbol, then so is `u ++ [x]` for some word `u`. -/
theorem exists_word_before (hr : g.Reduced) (hg : g.WellFormed)
    (h : g.Derives [g.start] (before ++ [x])) :
    ∃ u, g.IsWord u ∧ g.Derives [g.start] (u ++ [x]) := by
  have h' : g.Derives [g.start] (before ++ [x] ++ []) := by simpa using h
  rcases hr.complete hg h' with ⟨u, v, hu, _, hword, _, hafter⟩
  -- nothing stands behind the symbol, so nothing comes behind it
  have hnil : v = [] := hg.eq_of_derives (by simp [IsWord]) hafter
  subst hnil
  exact ⟨u, hu, by simpa using hword⟩

end Reduced

/-! ## Sets and words -/

structure WordExact (g : Grammar) (first follow : SetMap) : Prop where
  first_symbol_iff : ∀ x ∈ g.nonTerminals, ∀ t ∈ g.terminals,
    first.Holds x (.symbol t) ↔ ∃ w, g.IsWord (t :: w) ∧ g.Derives [x] (t :: w)
  first_empty_iff : ∀ x ∈ g.nonTerminals, first.Holds x .empty ↔ g.Derives [x] []
  follow_symbol_iff : ∀ x ∈ g.nonTerminals, ∀ t ∈ g.terminals,
    follow.Holds x (.symbol t) ↔
      ∃ u v, g.IsWord u ∧ g.IsWord v ∧ g.Derives [g.start] (u ++ x :: t :: v)
  follow_end_iff : ∀ x ∈ g.nonTerminals,
    follow.Holds x .endOfInput ↔ ∃ u, g.IsWord u ∧ g.Derives [g.start] (u ++ [x])

theorem Reduced.wordExact (hr : g.Reduced) (hg : g.WellFormed) (hfirst : g.FirstExact first)
    (hfollow : g.FollowExact follow) : g.WordExact first follow where
  first_symbol_iff := by
    intro x hx t ht
    rw [hfirst.symbol_iff x hx t ht]
    constructor
    · rintro ⟨rest, hrest⟩
      exact hr.exists_word_cons hg hx ht hrest
    · rintro ⟨w, _, hw⟩
      exact ⟨w, hw⟩
  first_empty_iff := hfirst.empty_iff
  follow_symbol_iff := by
    intro x hx t ht
    rw [hfollow.symbol_iff x hx t ht]
    constructor
    · rintro ⟨root, hroot, before, after, hform⟩
      exact hr.exists_words_around hg hroot hform
    · rintro ⟨u, v, _, _, hform⟩
      exact ⟨g.start, hg.start, u, v, hform⟩
  follow_end_iff := by
    intro x hx
    rw [hfollow.end_iff x hx]
    constructor
    · rintro ⟨before, hform⟩
      exact hr.exists_word_before hg hform
    · rintro ⟨u, _, hform⟩
      exact ⟨u, hform⟩

end Grammar
end Lookahead
