import Lookahead.Follow
import Lookahead.Proofs.SetMap.FirstOf
import Lookahead.Proofs.SetMap.Saturation

/-!
# LeastFollow — FOLLOW sets as a least fixed point

By given FIRST sets, whatever they are, the FOLLOW sets of a grammar are the least that the places
of its non-terminals add nothing to.

- `Grammar.places`, `Grammar.rulePlaces`: the non-terminals of an alternate, each with what follows
  it there.
- `Grammar.FollowClosed`: a relation between symbols and entries that the places add nothing to.
- `Grammar.follow_cases`: the passes end with a map that is closed and keeps the invariant, or with
  a lookup that fails.
- `Grammar.follow_least`: the sets are closed, and below every closed relation.
-/

namespace Lookahead
namespace Grammar

variable {g : Grammar} {first : SetMap} {R : SymbolId → Entry → Prop} {m m' : SetMap}

/-! ## Places -/

def places (g : Grammar) : List Entry → List (SymbolId × List Entry)
  | [] => []
  | .symbol id :: rest =>
      if id ∈ g.nonTerminals then (id, rest) :: g.places rest else g.places rest
  | _ :: rest => g.places rest

/-- A split of `x :: list` at `y` is at `x` itself or within `list`. -/
theorem exists_before_cons {α : Type} {x y : α} {list rest : List α} :
    (∃ before, x :: list = before ++ y :: rest) ↔
      (x = y ∧ list = rest) ∨ ∃ before, list = before ++ y :: rest := by
  constructor
  · rintro ⟨before, hbefore⟩
    cases before with
    | nil =>
        simp only [List.nil_append, List.cons.injEq] at hbefore
        exact Or.inl hbefore
    | cons z before =>
        simp only [List.cons_append, List.cons.injEq] at hbefore
        exact Or.inr ⟨before, hbefore.2⟩
  · rintro (⟨rfl, rfl⟩ | ⟨before, rfl⟩)
    · exact ⟨[], rfl⟩
    · exact ⟨x :: before, rfl⟩

theorem mem_places {alternate rest : List Entry} {id : SymbolId} :
    (id, rest) ∈ g.places alternate ↔
      id ∈ g.nonTerminals ∧ ∃ before, alternate = before ++ .symbol id :: rest := by
  induction alternate with
  | nil => simp [places]
  | cons x alternate ih =>
      cases x with
      | empty => simp [places, exists_before_cons, ih]
      | endOfInput => simp [places, exists_before_cons, ih]
      | symbol id' =>
          -- a front symbol is a place of its own only if it is a non-terminal
          by_cases hid' : id' ∈ g.nonTerminals
          · simp only [places, hid', if_true, List.mem_cons, ih, exists_before_cons,
              Prod.mk.injEq, Entry.symbol.injEq]
            constructor
            · rintro (⟨rfl, rfl⟩ | ⟨hid, hbefore⟩)
              · exact ⟨hid', Or.inl ⟨rfl, rfl⟩⟩
              · exact ⟨hid, Or.inr hbefore⟩
            · rintro ⟨hid, ⟨rfl, rfl⟩ | hbefore⟩
              · exact Or.inl ⟨rfl, rfl⟩
              · exact Or.inr ⟨hid, hbefore⟩
          · simp only [places, hid', if_false, ih, exists_before_cons, Entry.symbol.injEq]
            constructor
            · rintro ⟨hid, hbefore⟩
              exact ⟨hid, Or.inr hbefore⟩
            · rintro ⟨hid, ⟨rfl, _⟩ | hbefore⟩
              · exact absurd hid hid'
              · exact ⟨hid, hbefore⟩

/-- The places of `r` as pairs of a non-terminal and the `rest` behind it; none if `r.isEpsilon`,
whatever its alternate holds. -/
def rulePlaces (g : Grammar) (r : Rule) : List (SymbolId × List Entry) :=
  if r.isEpsilon then [] else g.places r.alternate

theorem mem_rulePlaces {r : Rule} {place : SymbolId × List Entry} :
    place ∈ g.rulePlaces r ↔ r.isEpsilon = false ∧ place ∈ g.places r.alternate := by
  unfold rulePlaces
  split
  · next h => simp [h]
  · next h => simp [h]

/-- `follow` with what the place `(id, rest)` of a rule for `head` adds to the row of `id`. -/
def extendPlace (first : SetMap) (head : SymbolId) (follow : SetMap)
    (place : SymbolId × List Entry) : Except Fault SetMap := do
  let new ← followOf first head place.2 follow
  follow.extend? place.1 new

theorem extendFollowBy_eq_foldlM {head : SymbolId} {alternate : List Entry} :
    g.extendFollowBy first head alternate m =
      (g.places alternate).foldlM (extendPlace first head) m := by
  induction alternate generalizing m with
  | nil => rfl
  | cons x rest ih =>
      cases x with
      | empty => simpa [extendFollowBy, places] using ih
      | endOfInput => simpa [extendFollowBy, places] using ih
      | symbol id =>
          by_cases hid : id ∈ g.nonTerminals
          · simp [extendFollowBy, places, hid, extendPlace, ih]
          · simpa [extendFollowBy, places, hid] using ih

/-! ## Closed relations -/

/-- What can stand behind a place: what the `rest` that follows it can begin with, and if the `rest`
can vanish, what comes `later`. -/
def PlaceAdds (first : SetMap) (later : Entry → Prop) (rest : List Entry) (e : Entry) : Prop :=
  (Begins first.Holds rest e ∧ e ≠ .empty) ∨ (Begins first.Holds rest .empty ∧ later e)

theorem PlaceAdds.mono {later later' : Entry → Prop} {rest : List Entry} {e : Entry}
    (h : PlaceAdds first later rest e) (hlater : later e → later' e) :
    PlaceAdds first later' rest e := by
  rcases h with hbegins | ⟨hvanish, he⟩
  · exact Or.inl hbegins
  · exact Or.inr ⟨hvanish, hlater he⟩

structure FollowClosed (g : Grammar) (first : SetMap) (R : SymbolId → Entry → Prop) : Prop where
  start : R g.start .endOfInput
  place : ∀ r ∈ g.rules, ∀ id rest, (id, rest) ∈ g.rulePlaces r →
    ∀ e, PlaceAdds first (R r.head) rest e → R id e

theorem FollowClosed.top (g : Grammar) (first : SetMap) : g.FollowClosed first fun _ _ => True :=
  ⟨trivial, fun _ _ _ _ _ _ _ => trivial⟩

/-- What a row of `g.follow first` can hold: `.endOfInput` and the entries of `first`. -/
def followEntries (first : SetMap) : List Entry :=
  .endOfInput :: first.rows.flatMap Prod.snd

theorem mem_followEntries {id : SymbolId} {e : Entry} (h : first.Holds id e) :
    e ∈ followEntries first := by
  rcases h with ⟨row, hrow, he⟩
  rcases List.lookup_eq_some_iff.1 hrow with ⟨before, after, hrows, _⟩
  refine List.mem_cons_of_mem _ (List.mem_flatMap.2 ⟨(id, row), ?_, he⟩)
  simp [hrows]

/-- The map with an empty row for each non-terminal. -/
def blankFollow (g : Grammar) : SetMap :=
  ⟨g.nonTerminals.map fun id => (id, [])⟩

structure FollowInvariant (g : Grammar) (first : SetMap) (R : SymbolId → Entry → Prop)
    (m : SetMap) : Prop where
  grown : g.blankFollow.Grows m
  start : m.Holds g.start .endOfInput
  within : m.Within (followEntries first)
  sound : ∀ id e, m.Holds id e → R id e

namespace FollowInvariant

theorem mem_domain (h : g.FollowInvariant first R m) {id : SymbolId} :
    id ∈ m.domain ↔ id ∈ g.nonTerminals := by
  rw [h.grown.domain_eq]
  simp [blankFollow, SetMap.domain]

theorem size_le (h : g.FollowInvariant first R m) : m.size ≤ g.followCapacity first := by
  have hrows : m.rows.length = g.nonTerminals.length := by
    rw [h.grown.length_rows]
    simp [blankFollow]
  have hentries : (followEntries first).length = first.size + 1 := by
    simp [followEntries, SetMap.size]
  calc
    m.size ≤ m.rows.length * (followEntries first).length := h.within.size_le
    _ = g.followCapacity first := by rw [hrows, hentries, followCapacity]

end FollowInvariant

theorem FollowClosed.initial (hR : g.FollowClosed first R) (h : g.initialFollow = .ok m) :
    g.FollowInvariant first R m := by
  rcases SetMap.extend?_eq_ok_iff.1 h with ⟨hstart, rfl⟩
  -- all that the initial map holds is the end of input behind the start symbol
  have hblank : ∀ id e, ¬g.blankFollow.Holds id e := by
    intro id e he
    exact List.not_mem_nil (SetMap.holds_graph.1 he).2
  refine ⟨SetMap.grows_extend _ _ _, ?_, SetMap.Within.extend ?_ ?_, ?_⟩
  · exact SetMap.holds_extend.2 (Or.inr ⟨rfl, hstart, List.mem_singleton_self _⟩)
  · intro row hrow
    rcases List.mem_map.1 hrow with ⟨id, _, rfl⟩
    exact ⟨List.nodup_nil, List.nil_subset _⟩
  · simp [followEntries]
  · intro id e he
    rcases SetMap.holds_extend.1 he with he | ⟨rfl, _, he⟩
    · exact absurd he (hblank id e)
    · rw [List.mem_singleton.1 he]
      exact hR.start

/-! ## Steps and passes -/

theorem mem_followOf {head : SymbolId} {rest : List Entry} {new : EntrySet}
    (h : followOf first head rest m = .ok new) {e : Entry} :
    e ∈ new ↔ PlaceAdds first (m.Holds head) rest e := by
  rcases bind_eq_ok_iff.1 h with ⟨next, hnext, hnew⟩
  have hbegins : ∀ x, x ∈ next ↔ Begins first.Holds rest x := fun x => SetMap.mem_firstOf hnext
  -- the row of the head is read only if the rest can vanish
  by_cases hempty : .empty ∈ next
  · rw [if_pos hempty] at hnew
    rcases bind_eq_ok_iff.1 hnew with ⟨inherited, hinherited, hunion⟩
    have hrow : m.get? head = some inherited := by
      cases hget : m.get? head with
      | none => simp [SetMap.row, hget] at hinherited
      | some row =>
          have hrow : row = inherited := by simpa [SetMap.row, hget] using hinherited
          rw [hrow]
    cases hunion
    simp [PlaceAdds, ← hbegins, hempty, SetMap.holds_iff_of_get? hrow]
  · rw [if_neg hempty] at hnew
    cases hnew
    have hne : e ∈ new → e ≠ .empty := by
      rintro he rfl
      exact hempty he
    simpa [PlaceAdds, ← hbegins, hempty] using hne

theorem extendPlace_eq_ok_iff {head id : SymbolId} {rest : List Entry} :
    extendPlace first head m (id, rest) = .ok m' ↔
      ∃ new, followOf first head rest m = .ok new ∧ id ∈ m.domain ∧ m' = m.extend id new := by
  simp only [extendPlace, bind_eq_ok_iff, SetMap.extend?_eq_ok_iff]

theorem extendPlace_grows (head : SymbolId) (m : SetMap) (place : SymbolId × List Entry)
    (m' : SetMap) (h : extendPlace first head m place = .ok m') : m.Grows m' := by
  rcases extendPlace_eq_ok_iff.1 h with ⟨new, _, _, rfl⟩
  exact m.grows_extend place.1 new

theorem extendFollow_eq_foldlM {r : Rule} :
    g.extendFollow first m r = (g.rulePlaces r).foldlM (extendPlace first r.head) m := by
  unfold extendFollow rulePlaces
  split
  · rfl
  · exact extendFollowBy_eq_foldlM

theorem extendFollow_grows (m : SetMap) (r : Rule) (m' : SetMap)
    (h : g.extendFollow first m r = .ok m') : m.Grows m' := by
  rw [extendFollow_eq_foldlM] at h
  exact SetMap.foldlM_grows (extendPlace_grows r.head) h

namespace FollowInvariant

theorem step (hR : g.FollowClosed first R) {r : Rule} (hr : r ∈ g.rules)
    {place : SymbolId × List Entry} (hplace : place ∈ g.rulePlaces r)
    (hm : g.FollowInvariant first R m) (h : extendPlace first r.head m place = .ok m') :
    g.FollowInvariant first R m' := by
  rcases place with ⟨id, rest⟩
  rcases extendPlace_eq_ok_iff.1 h with ⟨new, hnew, _, rfl⟩
  have hgrows : m.Grows (m.extend id new) := m.grows_extend id new
  refine ⟨hm.grown.trans hgrows, hgrows.holds hm.start, hm.within.extend ?_, ?_⟩
  -- what a place adds comes from a FIRST set or from the row of the head
  · intro e he
    rcases (mem_followOf hnew).1 he with ⟨hbegins, hne⟩ | ⟨_, hhead⟩
    · rcases hbegins.eq_empty_or_exists with hempty | ⟨id, hid⟩
      · exact absurd hempty hne
      · exact mem_followEntries hid
    · exact hm.within.mem_of_holds hhead
  · intro x e he
    rcases SetMap.holds_extend.1 he with he | ⟨rfl, _, he⟩
    · exact hm.sound x e he
    · have hadds : PlaceAdds first (R r.head) rest e :=
        ((mem_followOf hnew).1 he).mono (hm.sound r.head e)
      exact hR.place r hr x rest hplace e hadds

theorem rule (hR : g.FollowClosed first R) {r : Rule} (hr : r ∈ g.rules)
    (hm : g.FollowInvariant first R m) (h : g.extendFollow first m r = .ok m') :
    g.FollowInvariant first R m' := by
  rw [extendFollow_eq_foldlM] at h
  exact foldlM_preserves (fun _ _ _ hplace hn hnext => hn.step hR hr hplace hnext) hm h

theorem pass (hR : g.FollowClosed first R) (hm : g.FollowInvariant first R m)
    (h : g.followPass first m = .ok m') : g.FollowInvariant first R m' ∧ m.Grows m' := by
  refine ⟨?_, SetMap.foldlM_grows extendFollow_grows h⟩
  exact foldlM_preserves (fun _ _ _ hr hn hnext => hn.rule hR hr hnext) hm h

/-- If `g.followPass first` leaves `m` as it is, then `m.Holds` is closed. -/
theorem closed (hm : g.FollowInvariant first R m) (h : g.followPass first m = .ok m) :
    g.FollowClosed first m.Holds where
  start := hm.start
  place := by
    intro r hr id rest hplace e he
    -- a pass that changes nothing consists of rules that change nothing, and these of such places
    have hrule : g.extendFollow first m r = .ok m :=
      SetMap.foldlM_fixed extendFollow_grows h r hr
    rw [extendFollow_eq_foldlM] at hrule
    have hstep : extendPlace first r.head m (id, rest) = .ok m :=
      SetMap.foldlM_fixed (extendPlace_grows r.head) hrule (id, rest) hplace
    rcases extendPlace_eq_ok_iff.1 hstep with ⟨new, hnew, hid, heq⟩
    rw [heq]
    exact SetMap.holds_extend.2 (Or.inr ⟨rfl, hid, (mem_followOf hnew).2 he⟩)

end FollowInvariant

/-! ## The sets -/

theorem follow_cases (hR : g.FollowClosed first R) (hstart : g.start ∈ g.nonTerminals) :
    (∃ m passes, g.follow first = .ok (m, passes) ∧ g.FollowInvariant first R m ∧
        g.followPass first m = .ok m) ∨
      ∃ m fault, g.follow first = .error fault ∧ g.FollowInvariant first R m ∧
        g.followPass first m = .error fault := by
  have hdomain : g.start ∈ g.blankFollow.domain := by
    simpa [blankFollow, SetMap.domain] using hstart
  have hinitial : g.initialFollow = .ok (g.blankFollow.extend g.start [.endOfInput]) :=
    SetMap.extend?_eq_ok_iff.2 ⟨hdomain, rfl⟩
  have hfollow : g.follow first = SetMap.saturate (g.followPass first) (g.followCapacity first)
      (g.blankFollow.extend g.start [.endOfInput]) := by
    simp [follow, hinitial, bind, Except.bind]
  rw [hfollow]
  exact SetMap.saturate_cases (fun _ _ hm h => hm.pass hR h) (fun _ hm => hm.size_le)
    (hR.initial hinitial)

theorem follow_invariant {passes : Nat} (h : g.follow first = .ok (m, passes))
    (hR : g.FollowClosed first R) :
    g.FollowInvariant first R m ∧ g.followPass first m = .ok m := by
  rcases bind_eq_ok_iff.1 h with ⟨initial, hinitial, _⟩
  have hstart : g.start ∈ g.nonTerminals := by
    simpa [SetMap.domain] using (SetMap.extend?_eq_ok_iff.1 hinitial).1
  rcases follow_cases hR hstart with ⟨m', passes', hok, hm', hpass⟩ | ⟨_, _, herr, _⟩
  · rw [h] at hok
    cases hok
    exact ⟨hm', hpass⟩
  · rw [h] at herr
    cases herr

/-- The rows of `g.follow first` have no repeats and only `followEntries first`. -/
theorem follow_within {passes : Nat} (h : g.follow first = .ok (m, passes)) :
    m.Within (followEntries first) :=
  (follow_invariant h (FollowClosed.top g first)).1.within

/-- `m` has a row for each non-terminal, and `m.Holds` is the least `FollowClosed` relation. -/
structure LeastFollow (g : Grammar) (first m : SetMap) : Prop where
  domain : ∀ id, id ∈ m.domain ↔ id ∈ g.nonTerminals
  closed : g.FollowClosed first m.Holds
  least : ∀ R, g.FollowClosed first R → ∀ id e, m.Holds id e → R id e

theorem follow_least {passes : Nat} (h : g.follow first = .ok (m, passes)) :
    g.LeastFollow first m := by
  have htop := follow_invariant h (FollowClosed.top g first)
  refine ⟨fun id => htop.1.mem_domain, htop.1.closed htop.2, ?_⟩
  intro R hR
  exact (follow_invariant h hR).1.sound

end Grammar
end Lookahead
