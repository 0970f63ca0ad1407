import Lookahead.Proofs.SetMap.Saturation
import Mathlib.Data.Finset.Card
import Mathlib.Data.Finset.Dedup
import Mathlib.Order.Monotone.Basic

/-!
# Rounds — relations that grow by what they hold

In a round, everything is added at once that the relation of the round before gives rise to. How
often that can happen to one entry does not depend on how many entries there are.

- `Rounds base adds k`: the relation behind `k` rounds.
- `Rests`: nothing of an entry is added any more.
- `rests_of_length_le`: an entry that is added to some symbols only, and rests for good once it
  rests, comes to rest within as many rounds as there are such symbols.
- `SetMap.saturate_passes_le_last`: passes that are never behind the rounds are bounded by them.
-/

namespace Lookahead

/-! ## Rounds -/

section Rounds

variable (base : SymbolId → Entry → Prop)
variable (adds : (SymbolId → Entry → Prop) → SymbolId → Entry → Prop)

/-- Round `0` is `base`; each further round has what the last one has and what `adds` gives for
it. -/
def Rounds : Nat → SymbolId → Entry → Prop
  | 0 => base
  | k + 1 => fun id e => Rounds k id e ∨ adds (Rounds k) id e

/-- The next round adds nothing for the entry `e`. -/
def Rests (k : Nat) (e : Entry) : Prop :=
  ∀ id, adds (Rounds base adds k) id e → Rounds base adds k id e

end Rounds

variable {base : SymbolId → Entry → Prop}
variable {adds : (SymbolId → Entry → Prop) → SymbolId → Entry → Prop}
variable {ids : List SymbolId} {id : SymbolId} {e : Entry} {j k n : Nat}

theorem rounds_succ_iff (h : Rests base adds k e) :
    Rounds base adds (k + 1) id e ↔ Rounds base adds k id e := by
  constructor
  · rintro (hid | hid)
    · exact hid
    · exact h id hid
  · exact Or.inl

theorem rounds_mono (hjk : j ≤ k) (h : Rounds base adds j id e) : Rounds base adds k id e := by
  induction hjk with
  | refl => exact h
  | step _ ih => exact Or.inl ih

/-! ## Counting symbols -/

open Classical in
/-- The `ids` that have `e` in round `k`. -/
noncomputable def holders (base : SymbolId → Entry → Prop)
    (adds : (SymbolId → Entry → Prop) → SymbolId → Entry → Prop) (ids : List SymbolId) (e : Entry)
    (k : Nat) : Finset SymbolId :=
  ids.toFinset.filter fun id => Rounds base adds k id e

theorem mem_holders : id ∈ holders base adds ids e k ↔ id ∈ ids ∧ Rounds base adds k id e := by
  simp [holders]

theorem holders_subset_succ : holders base adds ids e k ⊆ holders base adds ids e (k + 1) := by
  intro id hid
  rcases mem_holders.1 hid with ⟨hlisted, hround⟩
  exact mem_holders.2 ⟨hlisted, Or.inl hround⟩

theorem card_holders_le : (holders base adds ids e k).card ≤ ids.length := by
  have hsubset : holders base adds ids e k ⊆ ids.toFinset := fun id hid =>
    List.mem_toFinset.2 (mem_holders.1 hid).1
  exact (Finset.card_le_card hsubset).trans ids.toFinset_card_le

/-- `e` rests in round `k` exactly if as many `ids` hold it as in the next round, provided that
`adds` only concerns `ids`. -/
theorem rests_iff_card (hids : ∀ R id, adds R id e → id ∈ ids) :
    Rests base adds k e ↔
      (holders base adds ids e k).card = (holders base adds ids e (k + 1)).card := by
  constructor
  · intro h
    congr 1
    ext id
    rw [mem_holders, mem_holders, rounds_succ_iff h]
  · intro hcard id hid
    have heq : holders base adds ids e k = holders base adds ids e (k + 1) :=
      Finset.eq_of_subset_of_card_le holders_subset_succ hcard.ge
    have hmem : id ∈ holders base adds ids e (k + 1) := mem_holders.2 ⟨hids _ id hid, Or.inr hid⟩
    rw [← heq] at hmem
    exact (mem_holders.1 hmem).2

theorem rests_of_length_le (hids : ∀ R id, adds R id e → id ∈ ids)
    (hstays : ∀ k, j ≤ k → Rests base adds k e → Rests base adds (k + 1) e)
    (hn : j + ids.length ≤ n) : Rests base adds n e := by
  let count (i : Nat) : Nat := (holders base adds ids e (j + i)).card
  have hmono : Monotone count :=
    monotone_nat_of_le_succ fun i => Finset.card_le_card holders_subset_succ
  have hbound : ∀ i, count i ≤ ids.length := fun i => card_holders_le
  -- the number of symbols cannot grow again once it has not grown in a round
  have hstable : ∀ i, count i = count (i + 1) → count (i + 1) = count (i + 2) := by
    intro i hi
    exact (rests_iff_card hids).1 (hstays (j + i) (by omega) ((rests_iff_card hids).2 hi))
  have hsame : ∀ i, ids.length ≤ i → count i = count ids.length := fun i hi =>
    Nat.stabilises_of_monotone hmono hbound hstable hi
  refine (rests_iff_card hids).2 ?_
  have hlast := (hsame (n - j) (by omega)).trans (hsame (n - j + 1) (by omega)).symm
  have hn' : j + (n - j) = n := by omega
  simpa only [count, ← Nat.add_assoc, hn'] using hlast

/-! ## Passes -/

namespace SetMap

variable {pass : SetMap → Except Fault SetMap} {capacity last passes : Nat} {m final : SetMap}
variable {Inv : SetMap → Prop} {rounds : Nat → SymbolId → Entry → Prop} {entries : List Entry}

/-- If each pass adds at least what a round adds and no map exceeds the round `last`, then
`saturate` takes at most `last + 1` passes: only one that adds nothing comes behind `last`. -/
theorem saturate_passes_le_last
    (hpass : ∀ m grown, Inv m → pass m = .ok grown → Inv grown ∧ m.Grows grown)
    (hround : ∀ k m grown, (∀ id e, rounds k id e → m.Holds id e) → pass m = .ok grown →
      ∀ id e, rounds (k + 1) id e → grown.Holds id e)
    (hkeys : ∀ m, Inv m → m.domain.Nodup) (hwithin : ∀ m, Inv m → m.Within entries)
    (hlast : ∀ m, Inv m → ∀ id e, m.Holds id e → rounds last id e)
    (hm : Inv m) (hfirst : ∀ id e, rounds 0 id e → m.Holds id e)
    (h : saturate pass capacity m = .ok (final, passes)) : passes ≤ last + 1 := by
  -- a map of stage `k` has all that `k` rounds give
  let Stage (k : Nat) (m : SetMap) : Prop := Inv m ∧ ∀ id e, rounds k id e → m.Holds id e
  have hnext : ∀ k m grown, Stage k m → pass m = .ok grown → Stage (k + 1) grown :=
    fun k m grown hm hgrown => ⟨(hpass m grown hm.1 hgrown).1, hround k m grown hm.2 hgrown⟩
  -- a map that has the round `last` has no room left to grow
  have hstop : ∀ m grown, Stage last m → pass m = .ok grown → grown.size ≤ m.size := by
    rintro m grown ⟨hm, hrounds⟩ hgrown
    rcases hpass m grown hm hgrown with ⟨hinv, hgrows⟩
    have hholds : ∀ id e, grown.Holds id e → m.Holds id e := fun id e he =>
      hrounds id e (hlast grown hinv id e he)
    exact (hgrows.size_eq_of_holds (hkeys m hm) (hwithin grown hinv) hholds).le
  have hbound := saturate_passes_le hnext hstop (Nat.zero_le last) ⟨hm, hfirst⟩ h
  omega

end SetMap

end Lookahead
