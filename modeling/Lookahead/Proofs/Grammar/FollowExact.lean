import Lookahead.Proofs.Grammar.FirstExact
import Lookahead.Proofs.Grammar.FollowOutcome

/-!
# FollowExact — FOLLOW sets and derivations

On a well-formed grammar a FOLLOW set holds what stands behind a non-terminal in the forms derived
from any declared non-terminal, reachable from the start symbol or not. The end of input stands
behind the last symbol of a form derived from the start symbol.

- `Grammar.CanFollow`: some such form has the entry behind the symbol.
- `Grammar.WellFormed.canFollow_closed`: the places add nothing to this relation, so the sets hold
  nothing else.
- `Grammar.Supports`: a relation has, for each non-terminal of a form, all that stands behind it
  there. Derivation keeps this, so the sets hold all of it.
- `Grammar.FollowExact`: the two together, for all non-terminals.
-/

namespace Lookahead
namespace Grammar

variable {g : Grammar} {R : SymbolId → Entry → Prop} {first follow : SetMap}
variable {u v : List SymbolId} {later later' : Entry → Prop} {x y : SymbolId} {e : Entry}

/-! ## What stands behind a symbol -/

def CanFollow (g : Grammar) (x : SymbolId) : Entry → Prop
  | .symbol t => t ∈ g.terminals ∧
      ∃ root ∈ g.nonTerminals, ∃ before after, g.Derives [root] (before ++ x :: t :: after)
  | .empty => False
  | .endOfInput => ∃ before, g.Derives [g.start] (before ++ [x])

/-- If `y` is last in a form derived from `x`, then what can follow `x` can follow `y`. -/
theorem CanFollow.of_last {before : List SymbolId} (h : g.Derives [x] (before ++ [y]))
    (he : g.CanFollow x e) : g.CanFollow y e := by
  cases e with
  | symbol t =>
      rcases he with ⟨ht, root, hroot, left, right, hform⟩
      have hinner : g.Derives (left ++ x :: t :: right) (left ++ before ++ y :: t :: right) := by
        simpa using h.within left (t :: right)
      exact ⟨ht, root, hroot, left ++ before, right, hform.trans hinner⟩
  | empty => exact he
  | endOfInput =>
      rcases he with ⟨left, hform⟩
      have hinner : g.Derives (left ++ [x]) (left ++ before ++ [y]) := by
        simpa using h.within left []
      exact ⟨left ++ before, hform.trans hinner⟩

/-- A place `(x, rest)` of `r` comes from `r.body = before ++ x :: after` with
`rest = after.map .symbol`. -/
theorem WellFormed.exists_split (hg : g.WellFormed) {r : Rule} (hr : r ∈ g.rules)
    {rest : List Entry} (hplace : (x, rest) ∈ g.rulePlaces r) :
    ∃ before after, r.body = before ++ x :: after ∧ rest = after.map .symbol := by
  rcases mem_places.1 (mem_rulePlaces.1 hplace).2 with ⟨_, before, hbefore⟩
  rcases hg.alternates r hr with hempty | ⟨_, hbody⟩
  · have hmem : Entry.symbol x ∈ [Entry.empty] := by
      rw [← hempty, hbefore]
      simp
    simp at hmem
  · rw [hbody] at hbefore
    rcases List.map_eq_append_iff.1 hbefore with ⟨left, right, hsplit, _, hright⟩
    rcases List.map_eq_cons_iff.1 hright with ⟨x', after, hcons, hx', hafter⟩
    have hx : x' = x := by simpa using hx'
    exact ⟨left, after, by rw [hsplit, hcons, hx], hafter.symm⟩

theorem WellFormed.canFollow_closed (hg : g.WellFormed) (hfirst : g.LeastFirst first) :
    g.FollowClosed first g.CanFollow where
  start := ⟨[], Relation.ReflTransGen.refl⟩
  place := by
    intro r hr x rest hplace e he
    rcases hg.exists_split hr hplace with ⟨before, after, hbody, rfl⟩
    have hrule : g.Derives [r.head] (before ++ x :: after) := hbody ▸ Derives.of_rule hr
    have hafter : ∀ e, Begins first.Holds (after.map .symbol) e → g.CanBegin after e := by
      intro e hbegins
      exact canBegin_of_begins (hbegins.mono fun id e => (hfirst.holds_iff hg).1)
    rcases he with ⟨hbegins, hne⟩ | ⟨hvanish, hhead⟩
    · -- the rest begins with a terminal, which stands behind the symbol then
      have hcan := hafter e hbegins
      cases e with
      | symbol t =>
          rcases hcan with ⟨ht, rest, hrest⟩
          have hform : g.Derives (before ++ x :: after) (before ++ x :: t :: rest) := by
            simpa using hrest.within (before ++ [x]) []
          exact ⟨ht, r.head, hg.heads r hr, before, rest, hrule.trans hform⟩
      | empty => exact absurd rfl hne
      | endOfInput => exact False.elim hcan
    · -- the rest vanishes, so the symbol is the last of a form derived from the head
      have hgone : g.Derives after [] := hafter _ hvanish
      have hlast : g.Derives (before ++ x :: after) (before ++ [x]) := by
        simpa using hgone.within (before ++ [x]) []
      exact hhead.of_last (hrule.trans hlast)

/-! ## Support along derivations -/

/-- `R` has what each place of the form adds, where `later` is what comes behind the whole form. -/
def Supports (g : Grammar) (first : SetMap) (R : SymbolId → Entry → Prop)
    (later : Entry → Prop) : List SymbolId → Prop
  | [] => True
  | x :: rest =>
      (x ∈ g.nonTerminals → ∀ e, PlaceAdds first later (rest.map .symbol) e → R x e) ∧
        g.Supports first R later rest

theorem placeAdds_append {rest rest' : List Entry} :
    PlaceAdds first later (rest ++ rest') e ↔
      PlaceAdds first (PlaceAdds first later rest') rest e := by
  simp only [PlaceAdds, begins_append]
  constructor
  · rintro (⟨⟨hrest, _⟩ | ⟨hvanish, hrest'⟩, hne⟩ | ⟨⟨_, hne⟩ | ⟨hvanish, hrest'⟩, he⟩)
    · exact Or.inl ⟨hrest, hne⟩
    · exact Or.inr ⟨hvanish, Or.inl ⟨hrest', hne⟩⟩
    · exact absurd rfl hne
    · exact Or.inr ⟨hvanish, Or.inr ⟨hrest', he⟩⟩
  · rintro (⟨hrest, hne⟩ | ⟨hvanish, ⟨hrest', hne⟩ | ⟨hrest', he⟩⟩)
    · exact Or.inl ⟨Or.inl ⟨hrest, hne⟩, hne⟩
    · exact Or.inl ⟨Or.inr ⟨hvanish, hrest'⟩, hne⟩
    · exact Or.inr ⟨Or.inr ⟨hvanish, hrest'⟩, he⟩

theorem Supports.mono (h : g.Supports first R later u) (hlater : ∀ e, later' e → later e) :
    g.Supports first R later' u := by
  induction u with
  | nil => trivial
  | cons x u ih =>
      refine ⟨fun hx e he => h.1 hx e (he.mono (hlater e)), ih h.2⟩

theorem supports_append :
    g.Supports first R later (u ++ v) ↔
      g.Supports first R (PlaceAdds first later (v.map .symbol)) u ∧
        g.Supports first R later v := by
  induction u with
  | nil => simp [Supports]
  | cons x u ih => simp [Supports, placeAdds_append, ih, and_assoc]

/-- If `r.body = before ++ x :: after` for a non-terminal `x`, then `(x, after)` is a place of
`r`. -/
theorem WellFormed.place_of_split (hg : g.WellFormed) {r : Rule} (hr : r ∈ g.rules)
    {before after : List SymbolId} (hsplit : r.body = before ++ x :: after)
    (hx : x ∈ g.nonTerminals) : (x, after.map .symbol) ∈ g.rulePlaces r := by
  have halternate : r.alternate = r.body.map .symbol := by
    rcases hg.alternates r hr with hempty | ⟨_, hbody⟩
    · simp [Rule.body, hempty] at hsplit
    · exact hbody
  have hepsilon : r.isEpsilon = false := by
    simp [Rule.isEpsilon, halternate, hsplit, List.map_eq_cons_iff, List.append_eq_cons_iff]
  have hplace : (x, after.map .symbol) ∈ g.places r.alternate :=
    mem_places.2 ⟨hx, before.map .symbol, by simp [halternate, hsplit]⟩
  exact mem_rulePlaces.2 ⟨hepsilon, hplace⟩

/-- A `FollowClosed` relation `R` supports each body, with `R r.head` as what comes behind it. -/
theorem FollowClosed.supports_body (hg : g.WellFormed) (hR : g.FollowClosed first R) {r : Rule}
    (hr : r ∈ g.rules) : g.Supports first R (R r.head) r.body := by
  -- by induction on a suffix of the body, since a place is known by what follows it
  have hsuffix : ∀ before rest, r.body = before ++ rest → g.Supports first R (R r.head) rest := by
    intro before rest
    induction rest generalizing before with
    | nil =>
        intro _
        trivial
    | cons x rest ih =>
        intro hsplit
        refine ⟨?_, ih (before ++ [x]) (by simpa using hsplit)⟩
        intro hx e he
        exact hR.place r hr x _ (hg.place_of_split hr hsplit hx) e he
  exact hsuffix [] r.body rfl

theorem FollowClosed.supports_step (hg : g.WellFormed) (hfirst : g.LeastFirst first)
    (hR : g.FollowClosed first R) (h : g.Step u v) (hu : g.Supports first R later u) :
    g.Supports first R later v := by
  cases h with
  | @rule r hr before after =>
      rcases supports_append.1 hu with ⟨hbefore, hhead, hafter⟩
      have hhead' : ∀ e, PlaceAdds first later (after.map .symbol) e → R r.head e :=
        hhead (hg.heads r hr)
      have hbody : g.Supports first R (PlaceAdds first later (after.map .symbol)) r.body :=
        (hR.supports_body hg hr).mono hhead'
      -- behind `before` stands a form that begins with less than the one it comes from
      have hmore : ∀ e, PlaceAdds first later ((r.body ++ after).map .symbol) e →
          PlaceAdds first later ((r.head :: after).map .symbol) e := by
        have hbegins : ∀ e, Begins first.Holds ((r.body ++ after).map .symbol) e →
            Begins first.Holds ((r.head :: after).map .symbol) e := by
          intro e he
          have hstep : g.Step (r.head :: after) (r.body ++ after) := .rule hr [] after
          exact hfirst.closed.begins_of_step hg hstep he
        rintro e (⟨he, hne⟩ | ⟨hvanish, he⟩)
        · exact Or.inl ⟨hbegins e he, hne⟩
        · exact Or.inr ⟨hbegins _ hvanish, he⟩
      rw [List.append_assoc]
      exact supports_append.2 ⟨hbefore.mono hmore, supports_append.2 ⟨hbody, hafter⟩⟩

theorem FollowClosed.supports_derives (hg : g.WellFormed) (hfirst : g.LeastFirst first)
    (hR : g.FollowClosed first R) (h : g.Derives u v) (hu : g.Supports first R later u) :
    g.Supports first R later v := by
  induction h with
  | refl => exact hu
  | tail _ hstep ih => exact hR.supports_step hg hfirst hstep ih

/-- If `[root]` derives `before ++ x :: after`, then a `FollowClosed` relation has for `x` what
`after` adds, with `later` behind it. -/
theorem FollowClosed.holds_of_derives (hg : g.WellFormed) (hfirst : g.LeastFirst first)
    (hR : g.FollowClosed first R) {root : SymbolId} (hroot : ∀ e, later e → R root e)
    {before after : List SymbolId} (h : g.Derives [root] (before ++ x :: after))
    (hx : x ∈ g.nonTerminals) (he : PlaceAdds first later (after.map .symbol) e) : R x e := by
  have hstart : g.Supports first R later [root] := by
    refine ⟨fun _ e he => ?_, trivial⟩
    rcases he with ⟨hbegins, hne⟩ | ⟨_, he⟩
    · exact absurd (begins_nil.1 hbegins) hne
    · exact hroot e he
  have hform := hR.supports_derives hg hfirst h hstart
  exact (supports_append.1 hform).2.1 hx e he

/-! ## Exact sets -/

theorem LeastFollow.holds_iff (hg : g.WellFormed) (hfirst : g.LeastFirst first)
    (hfollow : g.LeastFollow first follow) (hx : x ∈ g.nonTerminals) :
    follow.Holds x e ↔ g.CanFollow x e := by
  constructor
  -- the sets are below every closed relation, and this is one
  · exact hfollow.least _ (hg.canFollow_closed hfirst) x e
  · intro he
    cases e with
    | symbol t =>
        rcases he with ⟨ht, root, _, before, after, hform⟩
        have hbegins : Begins first.Holds ((t :: after).map .symbol) (.symbol t) :=
          .here (hfirst.holds_terminal hg ht) (by simp)
        -- nothing has to be known of what comes behind the whole form
        have hroot : ∀ e, False → follow.Holds root e := fun e he => he.elim
        exact hfollow.closed.holds_of_derives hg hfirst hroot hform hx
          (Or.inl ⟨hbegins, by simp⟩)
    | empty => exact False.elim he
    | endOfInput =>
        rcases he with ⟨before, hform⟩
        -- behind the form stands the end of input, which the start symbol has from the outset
        have hroot : ∀ e, e = .endOfInput → follow.Holds g.start e := by
          rintro e rfl
          exact hfollow.closed.start
        exact hfollow.closed.holds_of_derives hg hfirst hroot hform hx
          (Or.inr ⟨.vanish, rfl⟩)

/-- `follow` has a set for each non-terminal `x` and for nothing else: the terminals behind `x` in
forms derived from any declared `root`, and `.endOfInput` if `x` can be last in a form derived from
the start symbol. -/
structure FollowExact (g : Grammar) (follow : SetMap) : Prop where
  domain : ∀ x, x ∈ follow.domain ↔ x ∈ g.nonTerminals
  symbol_iff : ∀ x ∈ g.nonTerminals, ∀ t ∈ g.terminals,
    follow.Holds x (.symbol t) ↔
      ∃ root ∈ g.nonTerminals, ∃ before after, g.Derives [root] (before ++ x :: t :: after)
  end_iff : ∀ x ∈ g.nonTerminals,
    follow.Holds x .endOfInput ↔ ∃ before, g.Derives [g.start] (before ++ [x])
  entries : ∀ x e, follow.Holds x e →
    e = .endOfInput ∨ ∃ t ∈ g.terminals, t ∉ g.nonTerminals ∧ e = .symbol t

theorem WellFormed.exists_leastFollow (hg : g.WellFormed) (hfirst : g.LeastFirst first) :
    ∃ follow passes, g.follow first = .ok (follow, passes) ∧ g.LeastFollow first follow := by
  have halternates : ∀ r ∈ g.rules, ∀ e ∈ r.alternate,
      e = .empty ∨ ∃ id ∈ first.domain, e = .symbol id := by
    intro r hr e he
    simpa only [hfirst.domain] using hg.mem_alternate hr he
  rcases follow_total hg.start hg.heads halternates with ⟨follow, passes, hfollow⟩
  exact ⟨follow, passes, hfollow, follow_least hfollow⟩

theorem LeastFollow.exact (hg : g.WellFormed) (hfirst : g.LeastFirst first)
    (hfollow : g.LeastFollow first follow) : g.FollowExact follow where
  domain := hfollow.domain
  symbol_iff := by
    intro x hx t ht
    rw [hfollow.holds_iff hg hfirst hx]
    exact ⟨fun he => he.2, fun hform => ⟨ht, hform⟩⟩
  end_iff := fun _ hx => hfollow.holds_iff hg hfirst hx
  entries := by
    intro x e he
    have hx : x ∈ g.nonTerminals := (hfollow.domain x).1 he.mem_domain
    have hcan := (hfollow.holds_iff hg hfirst hx).1 he
    cases e with
    | symbol t => exact Or.inr ⟨t, hcan.1, hg.disjoint t hcan.1, rfl⟩
    | empty => exact False.elim hcan
    | endOfInput => exact Or.inl rfl

end Grammar
end Lookahead
