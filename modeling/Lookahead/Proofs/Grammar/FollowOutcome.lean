import Lookahead.Proofs.Grammar.LeastFollow
import Mathlib.Order.Bounds.Defs

/-!
# FollowOutcome — FOLLOW sets of any grammar by any FIRST sets

Neither the grammar need be validated nor need the given sets be its FIRST sets. What a place asks
for does not change in the course of the passes: the sets that are scanned are given, and the rows
that are filled are there from the beginning.

- `Grammar.Stands`: a non-terminal in the alternate of a rule, with what follows it there.
- `Grammar.FollowDefined`: the start symbol has a row, what follows each place can be scanned, and
  the head has a row where nothing has to follow.
- `Grammar.exists_follow_iff`: the FOLLOW sets can be computed exactly in that case.
- `Grammar.FollowConditions`: what FOLLOW sets have to contain, said by scans.
- `Grammar.follow_outcome`: the passes end, and what they end with.
-/

namespace Lookahead
namespace Grammar

variable {g : Grammar} {first : SetMap} {R : SymbolId → Entry → Prop} {m : SetMap} {r : Rule}
variable {head id : SymbolId} {rest : List Entry}

/-! ## Places -/

/-- The non-terminal `id` stands in the alternate of `r` with `rest` behind it. The alternate
`[.empty]` has no such place. -/
def Stands (g : Grammar) (r : Rule) (id : SymbolId) (rest : List Entry) : Prop :=
  r.alternate ≠ [.empty] ∧ id ∈ g.nonTerminals ∧
    ∃ before, r.alternate = before ++ .symbol id :: rest

theorem mem_rulePlaces_iff_stands : (id, rest) ∈ g.rulePlaces r ↔ g.Stands r id rest := by
  have hepsilon : r.isEpsilon = false ↔ r.alternate ≠ [.empty] := by
    simp [Rule.isEpsilon]
  rw [mem_rulePlaces, mem_places, hepsilon]
  exact Iff.rfl

/-! ## Lookups -/

theorem exists_followOf_iff :
    (∃ new, followOf first head rest m = .ok new) ↔
      ∃ next, first.firstOf rest = .ok next ∧ (.empty ∈ next → head ∈ m.domain) := by
  cases hnext : first.firstOf rest with
  | error fault => simp [followOf, hnext, bind, Except.bind]
  | ok next =>
      by_cases hempty : .empty ∈ next
      · -- the row of the head is read
        have hrow : (∃ row, m.row head = .ok row) ↔ head ∈ m.domain := by
          rw [← SetMap.exists_row_iff]
          cases hget : m.get? head with
          | none => simp [SetMap.row, hget]
          | some row => simp [SetMap.row, hget]
        cases hhead : m.row head with
        | error fault =>
            have hmissing : head ∉ m.domain := by simp [← hrow, hhead]
            simp [followOf, hnext, hempty, hhead, hmissing, bind, Except.bind]
        | ok row =>
            have hthere : head ∈ m.domain := hrow.1 ⟨row, hhead⟩
            simp [followOf, hnext, hempty, hhead, hthere, bind, Except.bind, pure, Except.pure]
      · simp [followOf, hnext, hempty, bind, Except.bind, pure, Except.pure]

structure FollowDefined (g : Grammar) (first : SetMap) : Prop where
  start : g.start ∈ g.nonTerminals
  places : ∀ r ∈ g.rules, ∀ id rest, g.Stands r id rest →
    ∃ next, first.firstOf rest = .ok next ∧ (.empty ∈ next → r.head ∈ g.nonTerminals)

namespace FollowDefined

/-- If all non-terminals have a row in `m`, then `extendFollow first m r` succeeds and they have one
in the result. -/
theorem extendFollow_total (hg : g.FollowDefined first) (hr : r ∈ g.rules)
    (hm : ∀ id ∈ g.nonTerminals, id ∈ m.domain) :
    ∃ m', g.extendFollow first m r = .ok m' ∧ ∀ id ∈ g.nonTerminals, id ∈ m'.domain := by
  rw [extendFollow_eq_foldlM]
  refine foldlM_total (fun n place hplace hn => ?_) hm
  rcases place with ⟨id, rest⟩
  have hstands : g.Stands r id rest := mem_rulePlaces_iff_stands.1 hplace
  rcases hg.places r hr id rest hstands with ⟨next, hnext, hhead⟩
  rcases exists_followOf_iff.2 ⟨next, hnext, fun hempty => hn r.head (hhead hempty)⟩ with
    ⟨new, hnew⟩
  refine ⟨n.extend id new, extendPlace_eq_ok_iff.2 ⟨new, hnew, hn id hstands.2.1, rfl⟩, ?_⟩
  simpa only [SetMap.domain_extend] using hn

theorem exists_follow (hg : g.FollowDefined first) :
    ∃ follow passes, g.follow first = .ok (follow, passes) := by
  rcases follow_cases (FollowClosed.top g first) hg.start with ⟨m, passes, hok, _⟩ |
    ⟨m, fault, _, hm, hfault⟩
  · exact ⟨m, passes, hok⟩
  · have hrows : ∀ id ∈ g.nonTerminals, id ∈ m.domain := fun id hid => hm.mem_domain.2 hid
    rcases foldlM_total (fun _ _ hr hn => hg.extendFollow_total hr hn) hrows with ⟨m', hok, _⟩
    -- so the pass that is said to fail does not
    have hpass : g.followPass first m = .ok m' := hok
    rw [hfault] at hpass
    cases hpass

end FollowDefined

/-- If `g.follow first` succeeds, then `FollowDefined` holds, since the last pass comes to every
place. -/
theorem followDefined_of_follow {passes : Nat} (h : g.follow first = .ok (m, passes)) :
    g.FollowDefined first := by
  rcases follow_invariant h (FollowClosed.top g first) with ⟨hm, hpass⟩
  refine ⟨hm.mem_domain.1 hm.start.mem_domain, ?_⟩
  intro r hr id rest hstands
  have hrule : g.extendFollow first m r = .ok m := SetMap.foldlM_fixed extendFollow_grows hpass r hr
  rw [extendFollow_eq_foldlM] at hrule
  have hstep : extendPlace first r.head m (id, rest) = .ok m :=
    SetMap.foldlM_fixed (extendPlace_grows r.head) hrule (id, rest)
      (mem_rulePlaces_iff_stands.2 hstands)
  rcases extendPlace_eq_ok_iff.1 hstep with ⟨new, hnew, _, _⟩
  rcases exists_followOf_iff.1 ⟨new, hnew⟩ with ⟨next, hnext, hhead⟩
  exact ⟨next, hnext, fun hempty => hm.mem_domain.1 (hhead hempty)⟩

theorem exists_follow_iff :
    (∃ follow passes, g.follow first = .ok (follow, passes)) ↔ g.FollowDefined first :=
  ⟨fun ⟨_, _, h⟩ => followDefined_of_follow h, FollowDefined.exists_follow⟩

/-- `g.follow first` succeeds if the start symbol and all heads are non-terminals and each element
of an alternate is `.empty` or a symbol with a set in `first`. -/
theorem follow_total (hstart : g.start ∈ g.nonTerminals)
    (hheads : ∀ r ∈ g.rules, r.head ∈ g.nonTerminals)
    (halternates : ∀ r ∈ g.rules, ∀ x ∈ r.alternate, x = .empty ∨ ∃ id ∈ first.domain,
      x = .symbol id) :
    ∃ follow passes, g.follow first = .ok (follow, passes) := by
  refine exists_follow_iff.2 ⟨hstart, ?_⟩
  rintro r hr id rest ⟨_, _, before, hbefore⟩
  have hscan : ∃ next, first.firstOf rest = .ok next := by
    refine SetMap.firstOf_total fun x hx => halternates r hr x ?_
    simp [hbefore, hx]
  rcases hscan with ⟨next, hnext⟩
  exact ⟨next, hnext, fun _ => hheads r hr⟩

/-! ## Conditions -/

/-- `R` has `.endOfInput` for the start symbol, and for each place `(id, rest)` of a rule `r` what
`first.firstOf rest` gives and, if `.empty` is in it, what `R` has for `r.head`. -/
structure FollowConditions (g : Grammar) (first : SetMap) (R : SymbolId → Entry → Prop) :
    Prop where
  start : R g.start .endOfInput
  next : ∀ r ∈ g.rules, ∀ id rest, g.Stands r id rest → ∀ next, first.firstOf rest = .ok next →
    ∀ e ∈ next, e ≠ .empty → R id e
  inherited : ∀ r ∈ g.rules, ∀ id rest, g.Stands r id rest → ∀ next,
    first.firstOf rest = .ok next → .empty ∈ next → ∀ e, R r.head e → R id e

theorem FollowDefined.followClosed_iff (hg : g.FollowDefined first) :
    g.FollowClosed first R ↔ g.FollowConditions first R := by
  constructor
  · intro h
    refine ⟨h.start, ?_, ?_⟩
    · intro r hr id rest hstands next hnext e he hne
      have hbegins : Begins first.Holds rest e := (SetMap.mem_firstOf hnext).1 he
      exact h.place r hr id rest (mem_rulePlaces_iff_stands.2 hstands) e (Or.inl ⟨hbegins, hne⟩)
    · intro r hr id rest hstands next hnext hempty e he
      have hvanish : Begins first.Holds rest .empty := (SetMap.mem_firstOf hnext).1 hempty
      exact h.place r hr id rest (mem_rulePlaces_iff_stands.2 hstands) e (Or.inr ⟨hvanish, he⟩)
  · intro h
    refine ⟨h.start, ?_⟩
    intro r hr id rest hplace e he
    have hstands : g.Stands r id rest := mem_rulePlaces_iff_stands.1 hplace
    -- the rest can be scanned, so the entries that it begins with are those of the scan
    rcases hg.places r hr id rest hstands with ⟨next, hnext, _⟩
    rcases he with ⟨hbegins, hne⟩ | ⟨hvanish, hhead⟩
    · exact h.next r hr id rest hstands next hnext e ((SetMap.mem_firstOf hnext).2 hbegins) hne
    · exact h.inherited r hr id rest hstands next hnext ((SetMap.mem_firstOf hnext).2 hvanish) e
        hhead

/-- No row of a least `m` has `.empty`, since `PlaceAdds` leaves it out of what a scan gives. -/
theorem LeastFollow.not_holds_empty (hm : g.LeastFollow first m) (id : SymbolId) :
    ¬m.Holds id .empty := by
  have hclosed : g.FollowClosed first fun _ e => e ≠ .empty := by
    refine ⟨by simp, ?_⟩
    rintro r _ id rest _ e (⟨_, hne⟩ | ⟨_, hne⟩)
    · exact hne
    · exact hne
  intro h
  exact hm.least _ hclosed id .empty h rfl

theorem LeastFollow.isLeast (hm : g.LeastFollow first m) (hg : g.FollowDefined first) :
    IsLeast {R | g.FollowConditions first R ∧ ∀ id e, R id e → id ∈ g.nonTerminals} m.Holds := by
  refine ⟨⟨hg.followClosed_iff.1 hm.closed, fun id _ h => (hm.domain id).1 h.mem_domain⟩, ?_⟩
  rintro R ⟨hR, _⟩ id e h
  exact hm.least R (hg.followClosed_iff.2 hR) id e h

/-! ## The outcome -/

/-- Either the start symbol has no row and `g.follow first` fails before any pass, or the passes
come to an end. -/
theorem follow_ends (g : Grammar) (first : SetMap) :
    (∃ fault, g.initialFollow = .error fault ∧ g.follow first = .error fault) ∨
      ∃ start, g.initialFollow = .ok start ∧
        SetMap.Ends (g.followPass first) start (g.follow first) := by
  cases hinitial : g.initialFollow with
  | error fault => exact Or.inl ⟨fault, rfl, by simp [follow, hinitial, bind, Except.bind]⟩
  | ok start =>
      have hclosed := FollowClosed.top g first
      have hfollow : g.follow first =
          SetMap.saturate (g.followPass first) (g.followCapacity first) start := by
        simp [follow, hinitial, bind, Except.bind]
      refine Or.inr ⟨start, rfl, ?_⟩
      rw [hfollow]
      exact SetMap.saturate_ends (fun _ _ hm h => hm.pass hclosed h) (fun _ hm => hm.size_le)
        (hclosed.initial hinitial)

/-- For any `g` and `first`, the passes of `g.follow first` come to an end. The end is a map exactly
if `FollowDefined`, and that map has a row for each non-terminal, is the least with
`FollowConditions`, and never has `.empty`. -/
theorem follow_outcome (g : Grammar) (first : SetMap) :
    ((∃ fault, g.initialFollow = .error fault ∧ g.follow first = .error fault) ∨
      ∃ start, g.initialFollow = .ok start ∧
        SetMap.Ends (g.followPass first) start (g.follow first)) ∧
      ((∃ follow passes, g.follow first = .ok (follow, passes)) ↔ g.FollowDefined first) ∧
      ∀ follow passes, g.follow first = .ok (follow, passes) →
        (∀ id, id ∈ follow.domain ↔ id ∈ g.nonTerminals) ∧
          IsLeast {R | g.FollowConditions first R ∧ ∀ id e, R id e → id ∈ g.nonTerminals}
            follow.Holds ∧
          ∀ id, ¬follow.Holds id .empty := by
  refine ⟨g.follow_ends first, exists_follow_iff, ?_⟩
  intro follow passes h
  have hleast : g.LeastFollow first follow := follow_least h
  exact ⟨hleast.domain, hleast.isLeast (followDefined_of_follow h), hleast.not_holds_empty⟩

/-- A grammar whose head has no row, and with `.endOfInput` in an alternate, where no scan comes to
it. -/
def foreign : Grammar where
  symbols := ⟨[], List.nodup_nil, declarable_nil⟩
  terminals := [0]
  nonTerminals := [1, 2]
  rules := [⟨1, [.symbol 2, .symbol 1], 0⟩, ⟨7, [.symbol 1, .symbol 0, .endOfInput], 1⟩,
    ⟨2, [.symbol 1, .empty], 2⟩]
  start := 2

/-- A map of sets that no grammar has for its FIRST sets. -/
def givenSets : SetMap :=
  ⟨[(0, [.symbol 0, .endOfInput]), (1, [.empty, .symbol 9])]⟩

theorem follow_foreign :
    foreign.follow givenSets =
      .ok (⟨[(1, [.symbol 9, .symbol 0, .endOfInput]), (2, [.symbol 0, .symbol 9, .endOfInput])]⟩,
        3) := by
  have hstart : foreign.initialFollow = .ok ⟨[(1, []), (2, [.endOfInput])]⟩ := rfl
  have hfirst : foreign.followPass givenSets ⟨[(1, []), (2, [.endOfInput])]⟩ =
      .ok ⟨[(1, [.symbol 9, .symbol 0, .endOfInput]), (2, [.symbol 9, .endOfInput])]⟩ := rfl
  have hsecond : foreign.followPass givenSets
      ⟨[(1, [.symbol 9, .symbol 0, .endOfInput]), (2, [.symbol 9, .endOfInput])]⟩ =
      .ok ⟨[(1, [.symbol 9, .symbol 0, .endOfInput]),
        (2, [.symbol 0, .symbol 9, .endOfInput])]⟩ := rfl
  have hrests : foreign.followPass givenSets
      ⟨[(1, [.symbol 9, .symbol 0, .endOfInput]), (2, [.symbol 0, .symbol 9, .endOfInput])]⟩ =
      .ok ⟨[(1, [.symbol 9, .symbol 0, .endOfInput]),
        (2, [.symbol 0, .symbol 9, .endOfInput])]⟩ := rfl
  rw [follow, hstart]
  change SetMap.saturate _ _ _ = _
  rw [SetMap.saturate_of_pass hfirst, if_pos (by decide), SetMap.saturate_of_pass hsecond,
    if_pos (by decide), SetMap.saturate_of_pass hrests, if_neg (by decide)]
  rfl

theorem outcome_foreign :
    foreign.FollowDefined givenSets ∧
      IsLeast {R | foreign.FollowConditions givenSets R ∧
          ∀ id e, R id e → id ∈ foreign.nonTerminals}
        (SetMap.Holds ⟨[(1, [.symbol 9, .symbol 0, .endOfInput]),
          (2, [.symbol 0, .symbol 9, .endOfInput])]⟩) :=
  ⟨(follow_outcome foreign givenSets).2.1.1 ⟨_, _, follow_foreign⟩,
    ((follow_outcome foreign givenSets).2.2 _ _ follow_foreign).2.1⟩

end Grammar
end Lookahead
