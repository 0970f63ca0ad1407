import Lookahead.Derivation

/-!
# WellFormed — grammars whose rules speak of declared symbols

- `Grammar.Declares`: an id of a terminal or of a non-terminal.
- `Grammar.WellFormed`: the two classes share no id, non-terminals are the heads of rules,
  alternates are empty or hold declared symbols, and the start symbol has a rule.
- `Grammar.WellFormed.eq_of_derives`: words derive nothing but themselves.
- `Grammar.WellFormed.declares_of_derives`: derivation leads from declared symbols to such symbols.
-/

namespace Lookahead
namespace Grammar

variable {g : Grammar} {u v : List SymbolId}

def Declares (g : Grammar) (id : SymbolId) : Prop :=
  id ∈ g.terminals ∨ id ∈ g.nonTerminals

structure WellFormed (g : Grammar) : Prop where
  disjoint : ∀ t ∈ g.terminals, t ∉ g.nonTerminals
  heads : ∀ r ∈ g.rules, r.head ∈ g.nonTerminals
  alternates : ∀ r ∈ g.rules,
    r.alternate = [.empty] ∨ (r.body ≠ [] ∧ r.alternate = r.body.map .symbol)
  bodies : ∀ r ∈ g.rules, ∀ id ∈ r.body, g.Declares id
  start : g.start ∈ g.nonTerminals
  startRule : ∃ r ∈ g.rules, r.head = g.start

/-- If `u` derives `v`, then `before ++ u ++ after` derives `before ++ v ++ after`. -/
theorem Derives.within (before after : List SymbolId) (h : g.Derives u v) :
    g.Derives (before ++ u ++ after) (before ++ v ++ after) :=
  (h.append_left before).append_right after

namespace WellFormed

theorem mem_alternate (hg : g.WellFormed) {r : Rule} (hr : r ∈ g.rules) {x : Entry}
    (hx : x ∈ r.alternate) : x = .empty ∨ ∃ id, g.Declares id ∧ x = .symbol id := by
  rcases hg.alternates r hr with hempty | ⟨_, hbody⟩
  · rw [hempty] at hx
    exact Or.inl (List.mem_singleton.1 hx)
  · rw [hbody] at hx
    rcases List.mem_map.1 hx with ⟨id, hid, rfl⟩
    exact Or.inr ⟨id, hg.bodies r hr id hid, rfl⟩

/-- There is no `Step` from a word. -/
theorem not_step (hg : g.WellFormed) (hu : g.IsWord u) : ¬g.Step u v := by
  intro h
  cases h with
  | @rule r hr before after =>
      -- the head of the rule would be a terminal
      have hterminal : r.head ∈ g.terminals := hu r.head (by simp)
      exact hg.disjoint r.head hterminal (hg.heads r hr)

theorem eq_of_derives (hg : g.WellFormed) (hu : g.IsWord u) (h : g.Derives u v) : v = u := by
  induction h with
  | refl => rfl
  | tail _ hstep ih =>
      subst ih
      exact absurd hstep (hg.not_step hu)

theorem declares_of_step (hg : g.WellFormed) (hu : ∀ id ∈ u, g.Declares id) (h : g.Step u v) :
    ∀ id ∈ v, g.Declares id := by
  cases h with
  | @rule r hr before after =>
      intro id hid
      -- it stands beside the replaced head, or in the body that replaces it
      rcases List.mem_append.1 hid with hid | hid
      · rcases List.mem_append.1 hid with hid | hid
        · exact hu id (by simp [hid])
        · exact hg.bodies r hr id hid
      · exact hu id (by simp [hid])

theorem declares_of_derives (hg : g.WellFormed) (hu : ∀ id ∈ u, g.Declares id)
    (h : g.Derives u v) : ∀ id ∈ v, g.Declares id := by
  induction h with
  | refl => exact hu
  | tail _ hstep ih => exact hg.declares_of_step ih hstep

theorem declares_of_root (hg : g.WellFormed) {root : SymbolId} (hroot : root ∈ g.nonTerminals)
    (h : g.Derives [root] u) : ∀ id ∈ u, g.Declares id := by
  refine hg.declares_of_derives (fun id hid => ?_) h
  rw [List.mem_singleton.1 hid]
  exact Or.inr hroot

end WellFormed
end Grammar
end Lookahead
