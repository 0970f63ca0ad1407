import Lookahead.First
import Lookahead.Proofs.Grammar.WellFormed
import Lookahead.Proofs.SetMap.FirstOf
import Lookahead.Proofs.SetMap.Saturation

/-!
# LeastFirst — FIRST sets as a least fixed point

Whatever lists of symbols and rules a grammar has, its FIRST sets are the least that the rules add
nothing to.

- `Grammar.FirstClosed`: a relation between symbols and entries that the rules add nothing to.
- `Grammar.FirstInvariant`: what every step keeps, against one such relation.
- `Grammar.first_cases`: the passes end with a map that is closed and keeps the invariant, or with a
  lookup that fails.
- `Grammar.first_least`: the sets are closed, and below every closed relation.
-/

namespace Lookahead
namespace Grammar

variable {g : Grammar} {R : SymbolId → Entry → Prop} {m m' : SetMap} {r : Rule}

/-! ## Closed relations -/

structure FirstClosed (g : Grammar) (R : SymbolId → Entry → Prop) : Prop where
  terminal : ∀ t ∈ g.terminals, t ∉ g.nonTerminals → R t (.symbol t)
  rule : ∀ r ∈ g.rules, g.Declares r.head → ∀ e, Begins R r.alternate e → R r.head e

theorem FirstClosed.top (g : Grammar) : g.FirstClosed fun _ _ => True :=
  ⟨fun _ _ _ => trivial, fun _ _ _ _ _ => trivial⟩

/-- What a row of `g.first` can hold: `.empty` and the terminals. -/
def firstEntries (g : Grammar) : List Entry :=
  .empty :: g.terminals.map .symbol

theorem mem_domain_initialFirst {id : SymbolId} :
    id ∈ g.initialFirst.domain ↔ g.Declares id := by
  by_cases hid : id ∈ g.nonTerminals
  · simp [initialFirst, SetMap.domain, Declares, hid]
  · simp [initialFirst, SetMap.domain, Declares, hid]

structure FirstInvariant (g : Grammar) (R : SymbolId → Entry → Prop) (m : SetMap) : Prop where
  grown : g.initialFirst.Grows m
  within : m.Within g.firstEntries
  sound : ∀ id e, m.Holds id e → R id e

namespace FirstInvariant

theorem mem_domain (h : g.FirstInvariant R m) {id : SymbolId} :
    id ∈ m.domain ↔ g.Declares id := by
  rw [h.grown.domain_eq]
  exact mem_domain_initialFirst

theorem size_le (h : g.FirstInvariant R m) : m.size ≤ g.firstCapacity := by
  have hrows : m.rows.length ≤ g.nonTerminals.length + g.terminals.length := by
    have hfilter := List.length_filter_le (· ∉ g.nonTerminals) g.terminals
    rw [h.grown.length_rows]
    simp only [initialFirst, List.length_append, List.length_map]
    omega
  calc
    m.size ≤ m.rows.length * g.firstEntries.length := h.within.size_le
    _ ≤ (g.nonTerminals.length + g.terminals.length) * g.firstEntries.length :=
        Nat.mul_le_mul_right _ hrows
    _ = g.firstCapacity := by simp [firstCapacity, firstEntries]

end FirstInvariant

theorem holds_initialFirst {id : SymbolId} {e : Entry} :
    g.initialFirst.Holds id e ↔
      id ∈ g.terminals ∧ id ∉ g.nonTerminals ∧ e = .symbol id := by
  have hdomain : id ∈ (SetMap.mk (g.nonTerminals.map fun id => (id, []))).domain ↔
      id ∈ g.nonTerminals := by
    simp [SetMap.domain]
  simp only [initialFirst, SetMap.holds_append, SetMap.holds_graph, hdomain]
  by_cases hid : id ∈ g.nonTerminals
  · simp [hid]
  · simp [hid]

theorem within_initialFirst (g : Grammar) : g.initialFirst.Within g.firstEntries := by
  intro row hrow
  rcases List.mem_append.1 hrow with hrow | hrow
  · rcases List.mem_map.1 hrow with ⟨id, _, rfl⟩
    exact ⟨List.nodup_nil, List.nil_subset _⟩
  · rcases List.mem_map.1 hrow with ⟨t, ht, rfl⟩
    have hterminal : t ∈ g.terminals := (List.mem_filter.1 ht).1
    exact ⟨List.nodup_singleton _, by simp [firstEntries, hterminal]⟩

theorem FirstClosed.initial (hR : g.FirstClosed R) : g.FirstInvariant R g.initialFirst where
  grown := SetMap.Grows.refl _
  within := g.within_initialFirst
  sound := by
    intro id e h
    rcases holds_initialFirst.1 h with ⟨hid, hnot, rfl⟩
    exact hR.terminal id hid hnot

/-! ## Steps and passes -/

/-- `extendFirst m r` succeeds exactly if `r.alternate` can be scanned with the entries `new` and
`r.head` has a row, and then `new` is added to that row. -/
theorem extendFirst_eq_ok_iff :
    extendFirst m r = .ok m' ↔
      ∃ new, m.firstOf r.alternate = .ok new ∧ r.head ∈ m.domain ∧
        m' = m.extend r.head new := by
  simp only [extendFirst, bind_eq_ok_iff, SetMap.extend?_eq_ok_iff]

theorem extendFirst_grows (m : SetMap) (r : Rule) (m' : SetMap) (h : extendFirst m r = .ok m') :
    m.Grows m' := by
  rcases extendFirst_eq_ok_iff.1 h with ⟨new, _, _, rfl⟩
  exact m.grows_extend r.head new

theorem FirstInvariant.step (hR : g.FirstClosed R) (hr : r ∈ g.rules)
    (hm : g.FirstInvariant R m) (h : extendFirst m r = .ok m') : g.FirstInvariant R m' := by
  rcases extendFirst_eq_ok_iff.1 h with ⟨new, hnew, hhead, rfl⟩
  refine ⟨hm.grown.trans (m.grows_extend r.head new), hm.within.extend ?_, ?_⟩
  -- a scan finds the empty derivation and entries of rows, nothing else
  · intro e he
    rcases ((SetMap.mem_firstOf hnew).1 he).eq_empty_or_exists with rfl | ⟨id, hid⟩
    · exact List.mem_cons_self
    · exact hm.within.mem_of_holds hid
  -- an entry is old, or found by the scan of the alternate and then allowed by the closed relation
  · intro id e he
    rcases SetMap.holds_extend.1 he with he | ⟨rfl, _, he⟩
    · exact hm.sound id e he
    · have hbegins : Begins R r.alternate e := ((SetMap.mem_firstOf hnew).1 he).mono hm.sound
      exact hR.rule r hr (hm.mem_domain.1 hhead) e hbegins

theorem FirstInvariant.pass (hR : g.FirstClosed R) (hm : g.FirstInvariant R m)
    (h : g.firstPass m = .ok m') : g.FirstInvariant R m' ∧ m.Grows m' := by
  refine ⟨?_, SetMap.foldlM_grows extendFirst_grows h⟩
  exact foldlM_preserves (fun _ _ _ hr hn hstep => hn.step hR hr hstep) hm h

/-- If `g.firstPass` leaves `m` as it is, then `m.Holds` is closed. -/
theorem FirstInvariant.closed (hm : g.FirstInvariant R m) (h : g.firstPass m = .ok m) :
    g.FirstClosed m.Holds where
  terminal := by
    intro t ht hnot
    exact hm.grown.holds (holds_initialFirst.2 ⟨ht, hnot, rfl⟩)
  rule := by
    intro r hr _ e he
    have hstep := SetMap.foldlM_fixed extendFirst_grows h r hr
    rcases extendFirst_eq_ok_iff.1 hstep with ⟨new, hnew, hhead, heq⟩
    rw [heq]
    exact SetMap.holds_extend.2 (Or.inr ⟨rfl, hhead, (SetMap.mem_firstOf hnew).2 he⟩)

/-! ## The sets -/

theorem first_cases (hR : g.FirstClosed R) :
    (∃ m passes, g.first = .ok (m, passes) ∧ g.FirstInvariant R m ∧ g.firstPass m = .ok m) ∨
      ∃ m fault, g.first = .error fault ∧ g.FirstInvariant R m ∧
        g.firstPass m = .error fault :=
  SetMap.saturate_cases (fun _ _ hm h => hm.pass hR h) (fun _ hm => hm.size_le) hR.initial

theorem first_invariant {passes : Nat} (h : g.first = .ok (m, passes)) (hR : g.FirstClosed R) :
    g.FirstInvariant R m ∧ g.firstPass m = .ok m := by
  rcases first_cases hR with ⟨m', passes', hok, hm', hpass⟩ | ⟨_, _, herr, _⟩
  · rw [h] at hok
    cases hok
    exact ⟨hm', hpass⟩
  · rw [h] at herr
    cases herr

/-- `m` has a row for each declared id, and `m.Holds` is the least `FirstClosed` relation. -/
structure LeastFirst (g : Grammar) (m : SetMap) : Prop where
  domain : ∀ id, id ∈ m.domain ↔ g.Declares id
  within : m.Within g.firstEntries
  closed : g.FirstClosed m.Holds
  least : ∀ R, g.FirstClosed R → ∀ id e, m.Holds id e → R id e

theorem first_least {passes : Nat} (h : g.first = .ok (m, passes)) : g.LeastFirst m := by
  -- the largest closed relation gives what does not depend on the choice of one
  have htop := first_invariant h (FirstClosed.top g)
  refine ⟨fun id => htop.1.mem_domain, htop.1.within, htop.1.closed htop.2, ?_⟩
  intro R hR
  exact (first_invariant h hR).1.sound

end Grammar
end Lookahead
