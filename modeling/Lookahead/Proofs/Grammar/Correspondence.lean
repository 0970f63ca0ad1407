import Lookahead.Proofs.Grammar.LeastFirst
import Lookahead.Proofs.Grammar.LeastFollow

/-!
# Correspondence — sets do not depend on numbers or on the order of rules

One grammar is simulated by another if its symbols have counterparts there, and each of its rules
has a counterpart between these. Nothing is said of the order of the rules, or of how often one of
them occurs.

- `Entry.Alike`: entries that are the same up to a relation between symbols.
- `Carries`: what one relation between symbols and entries has of symbols, the other has of their
  counterparts.
- `Begins.transfer`: what a sequence can begin with, up to such a relation.
- `Grammar.SimulatedBy`: each rule has a counterpart.
- `Grammar.SimulatedBy.carries_first`, `Grammar.SimulatedBy.carries_follow`: the least sets of one
  grammar are carried over to those of the other.
-/

namespace Lookahead

variable {S : SymbolId → SymbolId → Prop} {R R' : SymbolId → Entry → Prop} {x y : SymbolId}
variable {e e' : Entry} {seq seq' : List Entry}

/-! ## Entries and sequences -/

inductive Entry.Alike (S : SymbolId → SymbolId → Prop) : Entry → Entry → Prop
  | symbol {x y : SymbolId} : S x y → Alike S (.symbol x) (.symbol y)
  | empty : Alike S .empty .empty
  | endOfInput : Alike S .endOfInput .endOfInput

theorem Entry.Alike.empty_iff (h : Entry.Alike S e e') : e = .empty ↔ e' = .empty := by
  cases h with
  | symbol => simp
  | empty => simp
  | endOfInput => simp

/-- If `S` relates `x` to `y` and `e` to `e'`, then `R x e` gives `R' y e'`. -/
def Carries (S : SymbolId → SymbolId → Prop) (R R' : SymbolId → Entry → Prop) : Prop :=
  ∀ ⦃x y e e'⦄, S x y → Entry.Alike S e e' → R x e → R' y e'

theorem Begins.transfer (hR : Carries S R R')
    (hseq : List.Forall₂ (Entry.Alike S) seq seq') (he : Entry.Alike S e e')
    (h : Begins R seq e) : Begins R' seq' e' := by
  induction h generalizing seq' with
  | vanish =>
      cases hseq
      cases he
      exact .vanish
  | marker _ ih =>
      cases hseq with
      | cons hfirst hrest =>
          cases hfirst
          exact .marker (ih hrest he)
  | here hx hne =>
      cases hseq with
      | cons hfirst hrest =>
          cases hfirst with
          | symbol hxy => exact .here (hR hxy he hx) fun h => hne (he.empty_iff.2 h)
  | skip hx _ ih =>
      cases hseq with
      | cons hfirst hrest =>
          cases hfirst with
          | symbol hxy => exact .skip (hR hxy .empty hx) (ih hrest he)

/-- If `before ++ .symbol x :: rest` corresponds to `seq'` entry by entry, then `seq'` splits in the
same way, at a `y` with `S x y`. -/
theorem exists_place_of_forall₂ {before rest : List Entry}
    (h : List.Forall₂ (Entry.Alike S) (before ++ .symbol x :: rest) seq') :
    ∃ before' y rest', seq' = before' ++ .symbol y :: rest' ∧ S x y ∧
      List.Forall₂ (Entry.Alike S) rest rest' := by
  have hbehind := List.forall₂_drop_append seq' before (.symbol x :: rest) h.flip
  rcases List.forall₂_cons_right_iff.1 hbehind with ⟨z, rest', hz, hrest, hdrop⟩
  cases hz with
  | @symbol _ y hxy =>
      refine ⟨seq'.take before.length, y, rest', ?_, hxy, hrest.flip⟩
      rw [← hdrop, List.take_append_drop]

/-! ## Grammars -/

namespace Grammar

variable {g g' : Grammar} {first first' follow follow' : SetMap}

structure SimulatedBy (g g' : Grammar) (S : SymbolId → SymbolId → Prop) : Prop where
  rightUnique : Relator.RightUnique S
  total : ∀ x, g.Declares x → ∃ y, S x y
  terminal_iff : ∀ x y, S x y → (x ∈ g.terminals ↔ y ∈ g'.terminals)
  nonTerminal_iff : ∀ x y, S x y → (x ∈ g.nonTerminals ↔ y ∈ g'.nonTerminals)
  start : S g.start g'.start
  rule : ∀ r ∈ g.rules, ∃ r' ∈ g'.rules, S r.head r'.head ∧
    List.Forall₂ (Entry.Alike S) r.alternate r'.alternate

namespace SimulatedBy

theorem declares_iff (h : g.SimulatedBy g' S) (hxy : S x y) : g.Declares x ↔ g'.Declares y :=
  or_congr (h.terminal_iff x y hxy) (h.nonTerminal_iff x y hxy)

/-- If `R'` is closed for `g'`, then what `R'` holds at all counterparts of `x` and `e` is closed
for `g`. -/
theorem firstClosed (h : g.SimulatedBy g' S) (hR' : g'.FirstClosed R') :
    g.FirstClosed fun x e => ∀ y e', S x y → Entry.Alike S e e' → R' y e' where
  terminal := by
    intro t ht hnot y e' hy he
    cases he with
    | symbol hy' =>
        rw [h.rightUnique hy' hy]
        exact hR'.terminal y ((h.terminal_iff t y hy).1 ht)
          fun hmem => hnot ((h.nonTerminal_iff t y hy).2 hmem)
  rule := by
    intro r hr hhead e hbegins y e' hy he
    rcases h.rule r hr with ⟨r', hr', hheads, halternate⟩
    -- what `R` has at `x`, `R'` has at all counterparts, so the whole alternate carries over
    have hbegins' : Begins R' r'.alternate e' :=
      hbegins.transfer (fun _ y _ e' hxy he hx => hx y e' hxy he) halternate he
    rw [h.rightUnique hy hheads]
    exact hR'.rule r' hr' ((h.declares_iff hheads).1 hhead) e' hbegins'

theorem carries_first (h : g.SimulatedBy g' S) (hfirst : g.LeastFirst first)
    (hfirst' : g'.LeastFirst first') : Carries S first.Holds first'.Holds :=
  fun x y e e' hxy he hold =>
    hfirst.least _ (h.firstClosed hfirst'.closed) x e hold y e' hxy he

theorem followClosed (h : g.SimulatedBy g' S) (hfirst : g.LeastFirst first)
    (hfirst' : g'.LeastFirst first') (hR' : g'.FollowClosed first' R') :
    g.FollowClosed first fun x e => ∀ y e', S x y → Entry.Alike S e e' → R' y e' where
  start := by
    intro y e' hy he
    cases he
    rw [h.rightUnique hy h.start]
    exact hR'.start
  place := by
    intro r hr x rest hplace e hadds y e' hy he
    rcases h.rule r hr with ⟨r', hr', hheads, halternate⟩
    rcases mem_places.1 (mem_rulePlaces.1 hplace).2 with ⟨hx, before, hbefore⟩
    rw [hbefore] at halternate
    rcases exists_place_of_forall₂ halternate with ⟨before', z, rest', hbefore', hz, hrest⟩
    rw [h.rightUnique hy hz]
    have hplace' : (z, rest') ∈ g'.rulePlaces r' := by
      have hz' : z ∈ g'.nonTerminals := (h.nonTerminal_iff x z hz).1 hx
      refine mem_rulePlaces.2 ⟨?_, mem_places.2 ⟨hz', before', hbefore'⟩⟩
      -- an alternate with a symbol in it is not that of an empty rule
      simp [Rule.isEpsilon, hbefore', List.append_eq_cons_iff]
    have hcarries : Carries S first.Holds first'.Holds := h.carries_first hfirst hfirst'
    refine hR'.place r' hr' z rest' hplace' e' ?_
    rcases hadds with ⟨hbegin, hne⟩ | ⟨hvanish, hhead⟩
    · exact Or.inl ⟨hbegin.transfer hcarries hrest he, fun h => hne (he.empty_iff.2 h)⟩
    · exact Or.inr ⟨hvanish.transfer hcarries hrest .empty, hhead r'.head e' hheads he⟩

theorem carries_follow (h : g.SimulatedBy g' S) (hfirst : g.LeastFirst first)
    (hfirst' : g'.LeastFirst first') (hfollow : g.LeastFollow first follow)
    (hfollow' : g'.LeastFollow first' follow') : Carries S follow.Holds follow'.Holds :=
  fun x y e e' hxy he hold =>
    hfollow.least _ (h.followClosed hfirst hfirst' hfollow'.closed) x e hold y e' hxy he

end SimulatedBy
end Grammar
end Lookahead
