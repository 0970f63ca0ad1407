import Lookahead.Proofs.Grammar.FirstOutcome

/-!
# FirstExact — FIRST sets and derivations

On a well-formed grammar a FIRST set holds what the forms derived from a symbol begin with.

- `Grammar.CanBegin`: some form derived from a given one begins with the terminal; with the empty
  derivation, the empty form is derived.
- `Grammar.WellFormed.canBegin_closed`: the rules add nothing to this relation, so the sets hold
  nothing else.
- `Grammar.FirstClosed.begins_of_derives`: a form begins with all that the forms derived from it
  begin with, so the sets hold all of it.
- `Grammar.FirstExact`: the two together, for all symbols.
-/

namespace Lookahead
namespace Grammar

variable {g : Grammar} {R : SymbolId → Entry → Prop} {first : SetMap} {u v : List SymbolId}
variable {e : Entry}

/-! ## What derived forms begin with -/

def CanBegin (g : Grammar) (u : List SymbolId) : Entry → Prop
  | .symbol t => t ∈ g.terminals ∧ ∃ rest, g.Derives u (t :: rest)
  | .empty => g.Derives u []
  | .endOfInput => False

theorem CanBegin.of_derives (h : g.Derives u v) (he : g.CanBegin v e) : g.CanBegin u e := by
  cases e with
  | symbol t =>
      rcases he with ⟨ht, rest, hrest⟩
      exact ⟨ht, rest, h.trans hrest⟩
  | empty => exact h.trans he
  | endOfInput => exact he

theorem CanBegin.append_right (w : List SymbolId) (hne : e ≠ .empty) (he : g.CanBegin u e) :
    g.CanBegin (u ++ w) e := by
  cases e with
  | symbol t =>
      rcases he with ⟨ht, rest, hrest⟩
      exact ⟨ht, rest ++ w, hrest.append_right w⟩
  | empty => exact absurd rfl hne
  | endOfInput => exact he

theorem canBegin_of_begins (h : Begins (fun id e => g.CanBegin [id] e) (u.map .symbol) e) :
    g.CanBegin u e := by
  induction u with
  | nil =>
      rw [List.map_nil, begins_nil] at h
      subst h
      exact Relation.ReflTransGen.refl
  | cons id u ih =>
      rcases begins_symbol.1 h with ⟨hid, hne⟩ | ⟨hvanish, hrest⟩
      · exact hid.append_right u hne
      · -- the first symbol derives nothing, so the form derives its rest
        have hskip : g.Derives (id :: u) u := Derives.append_right u hvanish
        exact (ih hrest).of_derives hskip

/-! ## Both directions -/

/-- `Begins` cannot tell `r.alternate` from `r.body`: an empty rule has `[.empty]` for the one and
`[]` for the other. -/
theorem WellFormed.begins_alternate (hg : g.WellFormed) {r : Rule} (hr : r ∈ g.rules) :
    Begins R r.alternate e ↔ Begins R (r.body.map .symbol) e := by
  rcases hg.alternates r hr with hempty | ⟨_, hbody⟩
  · simp [Rule.body, hempty]
  · rw [← hbody]

theorem WellFormed.canBegin_closed (hg : g.WellFormed) :
    g.FirstClosed fun id e => g.CanBegin [id] e where
  terminal := fun t ht _ => ⟨ht, [], Relation.ReflTransGen.refl⟩
  rule := by
    intro r hr _ e he
    have hbody : g.CanBegin r.body e := canBegin_of_begins ((hg.begins_alternate hr).1 he)
    exact hbody.of_derives (Derives.of_rule hr)

theorem FirstClosed.begins_of_body (hg : g.WellFormed) (hR : g.FirstClosed R) {r : Rule}
    (hr : r ∈ g.rules) (he : Begins R (r.body.map .symbol) e) : R r.head e :=
  hR.rule r hr (Or.inr (hg.heads r hr)) e ((hg.begins_alternate hr).2 he)

theorem FirstClosed.begins_of_step (hg : g.WellFormed) (hR : g.FirstClosed R) (h : g.Step u v)
    (he : Begins R (v.map .symbol) e) : Begins R (u.map .symbol) e := by
  cases h with
  | @rule r hr before after =>
      have hreplace : ∀ e, Begins R (r.body.map .symbol) e → Begins R [.symbol r.head] e :=
        fun e he => begins_singleton.2 (hR.begins_of_body hg hr he)
      simp only [List.map_append] at he
      simpa using begins_replace hreplace he

theorem FirstClosed.begins_of_derives (hg : g.WellFormed) (hR : g.FirstClosed R)
    (h : g.Derives u v) (he : Begins R (v.map .symbol) e) : Begins R (u.map .symbol) e := by
  induction h with
  | refl => exact he
  | tail _ hstep ih => exact ih (hR.begins_of_step hg hstep he)

theorem LeastFirst.holds_terminal (hg : g.WellFormed) (hm : g.LeastFirst first) {t : SymbolId}
    (ht : t ∈ g.terminals) : first.Holds t (.symbol t) :=
  hm.closed.terminal t ht (hg.disjoint t ht)

theorem LeastFirst.holds_iff (hg : g.WellFormed) (hm : g.LeastFirst first) {id : SymbolId} :
    first.Holds id e ↔ g.CanBegin [id] e := by
  constructor
  -- the sets are below every closed relation, and this is one
  · exact hm.least _ hg.canBegin_closed id e
  · intro he
    -- what a derived form begins with goes back along the derivation
    have hback : ∀ v, g.Derives [id] v → Begins first.Holds (v.map .symbol) e →
        first.Holds id e := by
      intro v hv hbegins
      exact begins_singleton.1 (hm.closed.begins_of_derives hg hv hbegins)
    cases e with
    | symbol t =>
        rcases he with ⟨ht, rest, hrest⟩
        exact hback _ hrest (.here (hm.holds_terminal hg ht) (by simp))
    | empty => exact hback _ he .vanish
    | endOfInput => exact False.elim he

/-! ## Exact sets -/

theorem WellFormed.canBegin_terminal (hg : g.WellFormed) {t : SymbolId} (ht : t ∈ g.terminals) :
    g.CanBegin [t] e ↔ e = .symbol t := by
  -- a word derives nothing but itself
  have hword : g.IsWord [t] := by
    intro x hx
    rw [List.mem_singleton.1 hx]
    exact ht
  constructor
  · intro he
    cases e with
    | symbol t' =>
        rcases he with ⟨_, rest, hrest⟩
        have heq : t' :: rest = [t] := hg.eq_of_derives hword hrest
        simp only [List.cons.injEq] at heq
        rw [heq.1]
    | empty =>
        have heq : [] = [t] := hg.eq_of_derives hword he
        simp at heq
    | endOfInput => exact False.elim he
  · rintro rfl
    exact ⟨ht, [], Relation.ReflTransGen.refl⟩

theorem LeastFirst.get?_terminal (hg : g.WellFormed) (hm : g.LeastFirst first) {t : SymbolId}
    (ht : t ∈ g.terminals) : first.get? t = some [.symbol t] := by
  rcases SetMap.exists_row_iff.2 ((hm.domain t).2 (Or.inl ht)) with ⟨row, hrow⟩
  -- rows have no repeats, so equal entries make equal rows
  have hmem : ∀ e, e ∈ row ↔ e ∈ [Entry.symbol t] := by
    intro e
    rw [← SetMap.holds_iff_of_get? hrow, hm.holds_iff hg, hg.canBegin_terminal ht,
      List.mem_singleton]
  have hperm : row.Perm [.symbol t] :=
    (List.perm_ext_iff_of_nodup (hm.within.of_get? hrow).1 (List.nodup_singleton _)).2 hmem
  rw [hrow, List.perm_singleton.1 hperm]

/-- `first` has a set for each declared symbol and for nothing else. That of a terminal `t` is
`[.symbol t]`, and that of a non-terminal `x` says what the forms derived from `[x]` begin with and
whether `[x]` derives `[]`. -/
structure FirstExact (g : Grammar) (first : SetMap) : Prop where
  domain : ∀ x, x ∈ first.domain ↔ x ∈ g.terminals ∨ x ∈ g.nonTerminals
  terminal : ∀ t ∈ g.terminals, first.get? t = some [.symbol t]
  symbol_iff : ∀ x ∈ g.nonTerminals, ∀ t ∈ g.terminals,
    first.Holds x (.symbol t) ↔ ∃ rest, g.Derives [x] (t :: rest)
  empty_iff : ∀ x ∈ g.nonTerminals, first.Holds x .empty ↔ g.Derives [x] []
  entries : ∀ x e, first.Holds x e →
    e = .empty ∨ ∃ t ∈ g.terminals, t ∉ g.nonTerminals ∧ e = .symbol t

theorem WellFormed.exists_leastFirst (hg : g.WellFormed) :
    ∃ first passes, g.first = .ok (first, passes) ∧ g.LeastFirst first := by
  have hheads : ∀ r ∈ g.rules, g.Declares r.head := fun r hr => Or.inr (hg.heads r hr)
  rcases first_total hheads (fun r hr x hx => hg.mem_alternate hr hx) with ⟨first, passes, hfirst⟩
  exact ⟨first, passes, hfirst, first_least hfirst⟩

theorem LeastFirst.exact (hg : g.WellFormed) (hm : g.LeastFirst first) : g.FirstExact first where
  domain := hm.domain
  terminal := fun _ ht => hm.get?_terminal hg ht
  symbol_iff := by
    intro x _ t ht
    rw [hm.holds_iff hg]
    exact ⟨fun he => he.2, fun hrest => ⟨ht, hrest⟩⟩
  empty_iff := fun _ _ => hm.holds_iff hg
  entries := by
    intro x e he
    cases e with
    | symbol t =>
        have ht : t ∈ g.terminals := ((hm.holds_iff hg).1 he).1
        exact Or.inr ⟨t, ht, hg.disjoint t ht, rfl⟩
    | empty => exact Or.inl rfl
    | endOfInput => exact False.elim ((hm.holds_iff hg).1 he)

end Grammar
end Lookahead
