import Lookahead.Proofs.Grammar.LeastFirst
import Lookahead.Proofs.Grammar.LeastFollow
import Lookahead.Proofs.SetMap.Rounds

/-!
# Passes — how soon the sets are complete

A pass works in place: a rule sees what the rules before it have just added. So the passes are never
behind the rounds, in which all rules see the same sets. Whether a round adds the empty derivation
depends on the empty derivation alone, and whether it adds another entry, on that entry besides.
This bounds the rounds by the number of non-terminals, whatever the rules are and however many
terminals there are.

- `Grammar.firstRounds`, `Grammar.followRounds`: the sets by rounds.
- `Grammar.firstRounds_rests`, `Grammar.followRounds_rests`: when nothing is added any more.
- `Grammar.first_passes_le`, `Grammar.follow_passes_le`: the bounds on the passes.
-/

namespace Lookahead
namespace Grammar

variable {g : Grammar} {first m m' : SetMap} {e : Entry} {k n : Nat}

/-! ## FIRST -/

/-- What the rules add to `id` by `R`: what their alternates begin with. -/
def AddsFirst (g : Grammar) (R : SymbolId → Entry → Prop) (id : SymbolId) (e : Entry) : Prop :=
  ∃ r ∈ g.rules, r.head = id ∧ Begins R r.alternate e

def firstRounds (g : Grammar) : Nat → SymbolId → Entry → Prop :=
  Rounds g.initialFirst.Holds g.AddsFirst

theorem firstRounds_rests_empty (hheads : ∀ r ∈ g.rules, r.head ∈ g.nonTerminals)
    (hn : g.nonTerminals.length ≤ n) : Rests g.initialFirst.Holds g.AddsFirst n .empty := by
  have hids : ∀ R id, g.AddsFirst R id .empty → id ∈ g.nonTerminals := by
    rintro R id ⟨r, hr, rfl, _⟩
    exact hheads r hr
  refine rests_of_length_le (j := 0) hids ?_ (by omega)
  -- a sequence vanishes by the symbols that vanish, so no new ones make no new ones
  rintro k _ hk id ⟨r, hr, rfl, hvanish⟩
  have hback : ∀ id, g.firstRounds (k + 1) id .empty → g.firstRounds k id .empty :=
    fun id => (rounds_succ_iff hk).1
  exact Or.inr ⟨r, hr, rfl, hvanish.mono_at hback hback⟩

/-- `2 * N` rounds are enough for `N` non-terminals: after `N` rounds `.empty` rests, and after `N`
more any other `e`. -/
theorem firstRounds_rests (hheads : ∀ r ∈ g.rules, r.head ∈ g.nonTerminals)
    (hn : 2 * g.nonTerminals.length ≤ n) : Rests g.initialFirst.Holds g.AddsFirst n e := by
  have hids : ∀ R id, g.AddsFirst R id e → id ∈ g.nonTerminals := by
    rintro R id ⟨r, hr, rfl, _⟩
    exact hheads r hr
  refine rests_of_length_le (j := g.nonTerminals.length) hids ?_ (by omega)
  rintro k hk he id ⟨r, hr, rfl, hbegins⟩
  have hempty := firstRounds_rests_empty hheads hk
  exact Or.inr ⟨r, hr, rfl,
    hbegins.mono_at (fun id => (rounds_succ_iff he).1) fun id => (rounds_succ_iff hempty).1⟩

theorem firstClosed_rounds (hheads : ∀ r ∈ g.rules, r.head ∈ g.nonTerminals)
    (hn : 2 * g.nonTerminals.length ≤ n) : g.FirstClosed (g.firstRounds n) where
  terminal := by
    intro t ht hnot
    have hinitial : g.firstRounds 0 t (.symbol t) := holds_initialFirst.2 ⟨ht, hnot, rfl⟩
    exact rounds_mono (Nat.zero_le n) hinitial
  rule := fun r hr _ e he => firstRounds_rests hheads hn r.head ⟨r, hr, rfl, he⟩

/-- If `m` has what `k` rounds give, then `g.firstPass m` has what `k + 1` rounds give. -/
theorem firstRounds_of_pass (hm : ∀ id e, g.firstRounds k id e → m.Holds id e)
    (h : g.firstPass m = .ok m') : ∀ id e, g.firstRounds (k + 1) id e → m'.Holds id e := by
  rintro id e (hid | ⟨r, hr, rfl, hbegins⟩)
  · exact (SetMap.foldlM_grows extendFirst_grows h).holds (hm id e hid)
  · rcases SetMap.foldlM_between extendFirst_grows h r hr with ⟨n, n', hn, hstep, hn'⟩
    rcases extendFirst_eq_ok_iff.1 hstep with ⟨new, hnew, hhead, rfl⟩
    -- the rule is applied to a map that holds the round already
    have hmore : Begins n.Holds r.alternate e := hbegins.mono fun id e he => hn.holds (hm id e he)
    exact hn'.holds (SetMap.holds_extend.2 (Or.inr ⟨rfl, hhead, (SetMap.mem_firstOf hnew).2 hmore⟩))

theorem nodup_domain_initialFirst (hterminals : g.terminals.Nodup)
    (hnonTerminals : g.nonTerminals.Nodup) : g.initialFirst.domain.Nodup := by
  have hdomain : g.initialFirst.domain =
      g.nonTerminals ++ g.terminals.filter (· ∉ g.nonTerminals) := by
    simp [initialFirst, SetMap.domain, Function.comp_def]
  rw [hdomain, List.nodup_append]
  refine ⟨hnonTerminals, hterminals.filter _, ?_⟩
  rintro id hid t ht rfl
  simp [hid] at ht

theorem first_passes_le {passes : Nat} (hheads : ∀ r ∈ g.rules, r.head ∈ g.nonTerminals)
    (hterminals : g.terminals.Nodup) (hnonTerminals : g.nonTerminals.Nodup)
    (h : g.first = .ok (m, passes)) : passes ≤ 2 * g.nonTerminals.length + 1 := by
  let last := 2 * g.nonTerminals.length
  have hclosed : g.FirstClosed (g.firstRounds last) := firstClosed_rounds hheads (Nat.le_refl last)
  have hkeys : ∀ m, g.FirstInvariant (g.firstRounds last) m → m.domain.Nodup := by
    intro m hm
    rw [hm.grown.domain_eq]
    exact nodup_domain_initialFirst hterminals hnonTerminals
  have hlast : ∀ m, g.FirstInvariant (g.firstRounds last) m →
      ∀ id e, m.Holds id e → g.firstRounds last id e := fun _ hm => hm.sound
  have hfirst : ∀ id e, g.firstRounds 0 id e → g.initialFirst.Holds id e := fun _ _ he => he
  exact SetMap.saturate_passes_le_last (fun _ _ hm hgrown => hm.pass hclosed hgrown)
    (fun _ _ _ hm hgrown => firstRounds_of_pass hm hgrown) hkeys (fun _ hm => hm.within) hlast
    hclosed.initial hfirst h

/-! ## FOLLOW -/

def AddsFollow (g : Grammar) (first : SetMap) (R : SymbolId → Entry → Prop) (id : SymbolId)
    (e : Entry) : Prop :=
  ∃ r ∈ g.rules, ∃ rest, (id, rest) ∈ g.rulePlaces r ∧ PlaceAdds first (R r.head) rest e

/-- The rounds of FOLLOW. Round `0` is `.endOfInput` for the start symbol. -/
def followRounds (g : Grammar) (first : SetMap) : Nat → SymbolId → Entry → Prop :=
  Rounds (fun id e => id = g.start ∧ e = .endOfInput) (g.AddsFollow first)

/-- `N` rounds are enough for `N` non-terminals: `first` is given, so no entry depends on
another. -/
theorem followRounds_rests (hn : g.nonTerminals.length ≤ n) :
    Rests (fun id e => id = g.start ∧ e = .endOfInput) (g.AddsFollow first) n e := by
  have hids : ∀ R id, g.AddsFollow first R id e → id ∈ g.nonTerminals := by
    rintro R id ⟨r, _, rest, hplace, _⟩
    exact (mem_places.1 (mem_rulePlaces.1 hplace).2).1
  refine rests_of_length_le (j := 0) hids ?_ (by omega)
  rintro k _ hk id ⟨r, hr, rest, hplace, hadds⟩
  exact Or.inr ⟨r, hr, rest, hplace, hadds.mono (rounds_succ_iff hk).1⟩

theorem followClosed_rounds (hn : g.nonTerminals.length ≤ n) :
    g.FollowClosed first (g.followRounds first n) where
  start := by
    have hinitial : g.followRounds first 0 g.start .endOfInput := ⟨rfl, rfl⟩
    exact rounds_mono (Nat.zero_le n) hinitial
  place := fun r hr id rest hplace e he => followRounds_rests hn id ⟨r, hr, rest, hplace, he⟩

theorem followRounds_of_pass (hm : ∀ id e, g.followRounds first k id e → m.Holds id e)
    (h : g.followPass first m = .ok m') :
    ∀ id e, g.followRounds first (k + 1) id e → m'.Holds id e := by
  rintro id e (hid | ⟨r, hr, rest, hplace, hadds⟩)
  · exact (SetMap.foldlM_grows extendFollow_grows h).holds (hm id e hid)
  · rcases SetMap.foldlM_between extendFollow_grows h r hr with ⟨n, n', hn, hrule, hn'⟩
    rw [extendFollow_eq_foldlM] at hrule
    -- a rule is a chain of its own, in which the place has its turn
    rcases SetMap.foldlM_between (extendPlace_grows r.head) hrule (id, rest) hplace with
      ⟨p, p', hp, hstep, hp'⟩
    rcases extendPlace_eq_ok_iff.1 hstep with ⟨new, hnew, hid, rfl⟩
    have hmore : PlaceAdds first (p.Holds r.head) rest e :=
      hadds.mono fun he => hp.holds (hn.holds (hm r.head e he))
    have hheld : (p.extend id new).Holds id e :=
      SetMap.holds_extend.2 (Or.inr ⟨rfl, hid, (mem_followOf hnew).2 hmore⟩)
    exact hn'.holds (hp'.holds hheld)

theorem follow_passes_le {passes : Nat} (hnonTerminals : g.nonTerminals.Nodup)
    (h : g.follow first = .ok (m, passes)) : passes ≤ g.nonTerminals.length + 1 := by
  -- the rounds at rest are a closed relation, which bounds every map on the way
  let last := g.nonTerminals.length
  have hclosed : g.FollowClosed first (g.followRounds first last) :=
    followClosed_rounds (Nat.le_refl last)
  have hkeys : ∀ m, g.FollowInvariant first (g.followRounds first last) m → m.domain.Nodup := by
    intro m hm
    rw [hm.grown.domain_eq]
    simpa [blankFollow, SetMap.domain, Function.comp_def] using hnonTerminals
  rcases bind_eq_ok_iff.1 h with ⟨initial, hinitial, hsaturate⟩
  have hstart := hclosed.initial hinitial
  have hfirst : ∀ id e, g.followRounds first 0 id e → initial.Holds id e := by
    rintro id e ⟨rfl, rfl⟩
    exact hstart.start
  have hlast : ∀ m, g.FollowInvariant first (g.followRounds first last) m →
      ∀ id e, m.Holds id e → g.followRounds first last id e := fun _ hm => hm.sound
  exact SetMap.saturate_passes_le_last (fun _ _ hm hgrown => hm.pass hclosed hgrown)
    (fun _ _ _ hm hgrown => followRounds_of_pass hm hgrown) hkeys (fun _ hm => hm.within) hlast
    hstart hfirst hsaturate

end Grammar
end Lookahead
