import Lookahead.Proofs.Grammar.LeastFirst
import Mathlib.Order.Bounds.Defs

/-!
# FirstOutcome — FIRST sets of grammars that nobody has validated

A grammar may list a symbol in both classes, have terminals as heads, and hold any ids and markers
in its alternates. Which elements of an alternate are looked up depends on the symbols that vanish,
and those become known in the course of the passes. Whether a lookup fails in the end is told by the
least sets alone.

- `Grammar.InFirst`: the least sets that the rules add nothing to, whether or not they are computed.
- `Grammar.inFirst_isLeast`: they are such sets, and all such sets contain them.
- `Grammar.FirstDefined`: heads are symbols of the grammar, and so is all that a scan comes to by
  the least sets.
- `Grammar.exists_first_iff`: the FIRST sets can be computed exactly in that case.
- `Grammar.first_outcome`: the passes end, and what they end with.
-/

namespace Lookahead
namespace Grammar

variable {g : Grammar} {R : SymbolId → Entry → Prop} {m : SetMap} {r : Rule} {id : SymbolId}
variable {e : Entry}

/-! ## The least sets -/

/-- `R id e` for every closed `R`: the least relation that the rules add nothing to. -/
def InFirst (g : Grammar) (id : SymbolId) (e : Entry) : Prop :=
  ∀ R, g.FirstClosed R → R id e

theorem inFirst_closed (g : Grammar) : g.FirstClosed g.InFirst where
  terminal := fun t ht hnot _ hR => hR.terminal t ht hnot
  rule := by
    intro r hr hhead e he R hR
    have hbegins : Begins R r.alternate e := he.mono fun _ _ h => h R hR
    exact hR.rule r hr hhead e hbegins

/-- `InFirst` holds only of ids that `g` declares. -/
theorem InFirst.declares (h : g.InFirst id e) : g.Declares id :=
  h (fun id _ => g.Declares id) ⟨fun _ ht _ => Or.inl ht, fun _ _ hhead _ _ => hhead⟩

theorem inFirst_isLeast (g : Grammar) :
    IsLeast {R | g.FirstClosed R ∧ ∀ id e, R id e → g.Declares id} g.InFirst := by
  refine ⟨⟨g.inFirst_closed, fun _ _ h => h.declares⟩, ?_⟩
  rintro R ⟨hR, _⟩ id e h
  exact h R hR

theorem LeastFirst.holds_iff_inFirst (hm : g.LeastFirst m) : m.Holds id e ↔ g.InFirst id e := by
  constructor
  · intro h R hR
    exact hm.least R hR id e h
  · intro h
    exact h m.Holds hm.closed

/-! ## Lookups -/

/-- No lookup fails by the sets `InFirst`: the heads are declared, and of an alternate
`before ++ x :: rest` that can vanish as far as `x`, the element `x` is a declared symbol or the
marker. -/
structure FirstDefined (g : Grammar) : Prop where
  heads : ∀ r ∈ g.rules, g.Declares r.head
  alternates : ∀ r ∈ g.rules, Scannable g.Declares g.InFirst r.alternate

namespace FirstDefined

/-- If `m` is below `InFirst`, then `extendFirst m r` succeeds and the result is below `InFirst`
again, since a scan by `m` goes no further than one by `InFirst`. -/
theorem extendFirst_total (hg : g.FirstDefined) (hr : r ∈ g.rules)
    (hm : g.FirstInvariant g.InFirst m) :
    ∃ m', extendFirst m r = .ok m' ∧ g.FirstInvariant g.InFirst m' := by
  have hdomain : (· ∈ m.domain) = g.Declares := funext fun id => propext hm.mem_domain
  have hscannable : Scannable (· ∈ m.domain) m.Holds r.alternate := by
    rw [hdomain]
    exact (hg.alternates r hr).anti fun id => hm.sound id .empty
  rcases SetMap.exists_firstOf_iff.2 hscannable with ⟨new, hnew⟩
  have hok : extendFirst m r = .ok (m.extend r.head new) :=
    extendFirst_eq_ok_iff.2 ⟨new, hnew, hm.mem_domain.2 (hg.heads r hr), rfl⟩
  exact ⟨_, hok, hm.step g.inFirst_closed hr hok⟩

theorem exists_first (hg : g.FirstDefined) : ∃ first passes, g.first = .ok (first, passes) := by
  rcases first_cases g.inFirst_closed with ⟨m, passes, hok, _⟩ | ⟨m, fault, _, hm, hfault⟩
  · exact ⟨m, passes, hok⟩
  · rcases foldlM_total (fun _ _ hr hn => hg.extendFirst_total hr hn) hm with ⟨m', hok, _⟩
    -- so the pass that is said to fail does not
    have hpass : g.firstPass m = .ok m' := hok
    rw [hfault] at hpass
    cases hpass

end FirstDefined

/-- If `g.first` succeeds, then `FirstDefined` holds, since the last pass applies every rule to the
least sets. -/
theorem firstDefined_of_first {passes : Nat} (h : g.first = .ok (m, passes)) :
    g.FirstDefined := by
  have hleast : g.LeastFirst m := first_least h
  have hpass : g.firstPass m = .ok m := (first_invariant h (FirstClosed.top g)).2
  -- the last pass changes nothing, so it applies each rule to `m` itself
  have hstep : ∀ r ∈ g.rules, ∃ new, m.firstOf r.alternate = .ok new ∧ r.head ∈ m.domain := by
    intro r hr
    have hfixed := SetMap.foldlM_fixed extendFirst_grows hpass r hr
    rcases extendFirst_eq_ok_iff.1 hfixed with ⟨new, hnew, hhead, _⟩
    exact ⟨new, hnew, hhead⟩
  have hdomain : (· ∈ m.domain) = g.Declares := funext fun id => propext (hleast.domain id)
  refine ⟨?_, ?_⟩
  · intro r hr
    rcases hstep r hr with ⟨_, _, hhead⟩
    exact (hleast.domain r.head).1 hhead
  · intro r hr
    rcases hstep r hr with ⟨new, hnew, _⟩
    have hscannable := SetMap.exists_firstOf_iff.1 ⟨new, hnew⟩
    rw [hdomain] at hscannable
    exact hscannable.anti fun id => hleast.holds_iff_inFirst.2

theorem exists_first_iff :
    (∃ first passes, g.first = .ok (first, passes)) ↔ g.FirstDefined :=
  ⟨fun ⟨_, _, h⟩ => firstDefined_of_first h, FirstDefined.exists_first⟩

/-- `g.first` succeeds if all heads are declared and each element of an alternate is `.empty` or a
declared symbol. -/
theorem first_total (hheads : ∀ r ∈ g.rules, g.Declares r.head)
    (halternates : ∀ r ∈ g.rules, ∀ x ∈ r.alternate, x = .empty ∨ ∃ id, g.Declares id ∧
      x = .symbol id) :
    ∃ first passes, g.first = .ok (first, passes) :=
  exists_first_iff.2 ⟨hheads, fun r hr => scannable_of_forall_mem (halternates r hr)⟩

/-! ## The outcome -/

/-- For any `g`, `InFirst` is the least closed relation on declared ids and the passes of `g.first`
come to an end. The end is a map exactly if `FirstDefined`, and that map holds exactly `InFirst`. -/
theorem first_outcome (g : Grammar) :
    IsLeast {R | g.FirstClosed R ∧ ∀ id e, R id e → g.Declares id} g.InFirst ∧
      SetMap.Ends g.firstPass g.initialFirst g.first ∧
      ((∃ first passes, g.first = .ok (first, passes)) ↔ g.FirstDefined) ∧
      ∀ first passes, g.first = .ok (first, passes) →
        (∀ id, id ∈ first.domain ↔ g.Declares id) ∧ ∀ id e, first.Holds id e ↔ g.InFirst id e := by
  have hends : SetMap.Ends g.firstPass g.initialFirst g.first :=
    SetMap.saturate_ends (fun _ _ hm h => hm.pass (FirstClosed.top g) h) (fun _ hm => hm.size_le)
      (FirstClosed.top g).initial
  refine ⟨g.inFirst_isLeast, hends, exists_first_iff, ?_⟩
  intro first passes h
  have hleast : g.LeastFirst first := first_least h
  exact ⟨hleast.domain, fun _ _ => hleast.holds_iff_inFirst⟩

/-- A grammar out of the ordinary: one symbol has both classes, one head is a terminal, and an
undeclared id stands behind a symbol that does not vanish. -/
def unruly : Grammar where
  symbols := ⟨[], List.nodup_nil, declarable_nil⟩
  terminals := [0, 2]
  nonTerminals := [1, 2]
  rules := [⟨1, [.symbol 2, .symbol 7], 0⟩, ⟨0, [.empty], 1⟩]
  start := 1

theorem first_unruly :
    unruly.first = .ok (⟨[(1, []), (2, []), (0, [.empty, .symbol 0])]⟩, 2) := by
  have hgrows : unruly.firstPass unruly.initialFirst =
      .ok ⟨[(1, []), (2, []), (0, [.empty, .symbol 0])]⟩ := rfl
  have hrests : unruly.firstPass ⟨[(1, []), (2, []), (0, [.empty, .symbol 0])]⟩ =
      .ok ⟨[(1, []), (2, []), (0, [.empty, .symbol 0])]⟩ := rfl
  rw [first, SetMap.saturate_of_pass hgrows, if_pos (by decide), SetMap.saturate_of_pass hrests,
    if_neg (by decide)]
  rfl

theorem outcome_unruly :
    unruly.FirstDefined ∧ ∀ id e,
      SetMap.Holds ⟨[(1, []), (2, []), (0, [.empty, .symbol 0])]⟩ id e ↔ unruly.InFirst id e :=
  ⟨(first_outcome unruly).2.2.1.1 ⟨_, _, first_unruly⟩,
    ((first_outcome unruly).2.2.2 _ _ first_unruly).2⟩

/-- The id 7 is looked up in the second pass, once the symbol 2 in front of it can vanish. -/
example (t : SymbolTable) :
    let g : Grammar := ⟨t, [0], [1, 2], [⟨1, [.symbol 2, .symbol 7], 0⟩, ⟨2, [.empty], 1⟩], 1⟩
    g.firstPass g.initialFirst >>= g.firstPass = .error (.noFirst (.symbol 7)) :=
  rfl

end Grammar
end Lookahead
