import Lookahead.Analysis
import Lookahead.Proofs.Grammar.Passes
import Lookahead.Proofs.Grammar.WordExact
import Lookahead.Proofs.Validation.Acceptance

/-!
# Validated — FIRST and FOLLOW of accepted descriptions

For the grammar of a description that the validator accepts, the computations of both kinds of sets
succeed, and the sets are those of the derivations of the grammar.

- `firstExact_of_accepted`, `followExact_of_accepted`: what the sets say of sentential forms.
- `wordExact_of_accepted`: what they say of words, if the grammar is reduced.
- `passes_of_accepted`: in how many passes the sets are complete.
-/

namespace Lookahead

variable {found all : Diagnostics} {d : Description} {g : Grammar}

/-! ## A description -/

/-- A grammar of brackets: the start symbol is nullable and stands between two terminals. -/
def brackets : Description where
  start := "S"
  terminals := ["(", ")"]
  nonTerminals := ["S", "A"]
  productions := [⟨"S", ["A", "S", ")"], none⟩, ⟨"S", [], none⟩, ⟨"A", ["("], none⟩]

def bracketGrammar : Grammar where
  symbols :=
    ⟨[⟨"(", .terminal⟩, ⟨")", .terminal⟩, ⟨"S", .nonTerminal⟩, ⟨"A", .nonTerminal⟩], by decide,
      by decide⟩
  terminals := [0, 1]
  nonTerminals := [2, 3]
  rules := [⟨2, [.symbol 3, .symbol 2, .symbol 1], 0⟩, ⟨2, [.empty], 1⟩, ⟨3, [.symbol 0], 2⟩]
  start := 2

theorem validate_brackets : validate [] brackets = .ok ([], .accepted bracketGrammar) :=
  rfl

/-! ## Sentential forms -/

theorem firstExact_of_accepted (h : validate found d = .ok (all, .accepted g)) :
    ∃ first passes, g.first = .ok (first, passes) ∧ g.FirstExact first := by
  have hg : g.WellFormed := wellFormed_of_accepted h
  rcases hg.exists_leastFirst with ⟨first, passes, hfirst, hleast⟩
  exact ⟨first, passes, hfirst, hleast.exact hg⟩

theorem firstExact_brackets :
    validate [] brackets = .ok ([], .accepted bracketGrammar) ∧
      ∃ first passes, bracketGrammar.first = .ok (first, passes) ∧
        bracketGrammar.FirstExact first :=
  ⟨validate_brackets, firstExact_of_accepted validate_brackets⟩

theorem followExact_of_accepted (h : validate found d = .ok (all, .accepted g)) :
    ∃ first passes, g.first = .ok (first, passes) ∧
      ∃ follow passes', g.follow first = .ok (follow, passes') ∧ g.FollowExact follow := by
  have hg : g.WellFormed := wellFormed_of_accepted h
  rcases hg.exists_leastFirst with ⟨first, passes, hfirst, hleast⟩
  rcases hg.exists_leastFollow hleast with ⟨follow, passes', hfollow, hleast'⟩
  exact ⟨first, passes, hfirst, follow, passes', hfollow, hleast'.exact hg hleast⟩

theorem followExact_brackets :
    validate [] brackets = .ok ([], .accepted bracketGrammar) ∧
      ∃ first passes, bracketGrammar.first = .ok (first, passes) ∧
        ∃ follow passes', bracketGrammar.follow first = .ok (follow, passes') ∧
          bracketGrammar.FollowExact follow :=
  ⟨validate_brackets, followExact_of_accepted validate_brackets⟩

/-! ## Words -/

theorem wordExact_of_accepted (h : validate found d = .ok (all, .accepted g)) (hr : g.Reduced) :
    ∃ first passes, g.first = .ok (first, passes) ∧
      ∃ follow passes', g.follow first = .ok (follow, passes') ∧ g.WordExact first follow := by
  have hg : g.WellFormed := wellFormed_of_accepted h
  rcases hg.exists_leastFirst with ⟨first, passes, hfirst, hleast⟩
  rcases hg.exists_leastFollow hleast with ⟨follow, passes', hfollow, hleast'⟩
  -- both kinds of sets speak of derivations already; completing these to words is what is left
  have hwords : g.WordExact first follow :=
    hr.wordExact hg (hleast.exact hg) (hleast'.exact hg hleast)
  exact ⟨first, passes, hfirst, follow, passes', hfollow, hwords⟩

theorem reduced_bracketGrammar : bracketGrammar.Reduced := by
  have hnested : bracketGrammar.Derives [2] [3, 2, 1] :=
    Grammar.Derives.of_rule (r := ⟨2, [.symbol 3, .symbol 2, .symbol 1], 0⟩) (by decide)
  have hempty : bracketGrammar.Derives [2] [] :=
    Grammar.Derives.of_rule (r := ⟨2, [.empty], 1⟩) (by decide)
  have hopening : bracketGrammar.Derives [3] [0] :=
    Grammar.Derives.of_rule (r := ⟨3, [.symbol 0], 2⟩) (by decide)
  have hword : bracketGrammar.IsWord [0] := by simp [Grammar.IsWord, bracketGrammar]
  intro x hx
  have hcases : x = 2 ∨ x = 3 := by simpa [bracketGrammar] using hx
  rcases hcases with rfl | rfl
  · exact ⟨⟨[], [], Relation.ReflTransGen.refl⟩, [], by simp [Grammar.IsWord], hempty⟩
  · exact ⟨⟨[], [2, 1], hnested⟩, [0], hword, hopening⟩

theorem wordExact_brackets :
    validate [] brackets = .ok ([], .accepted bracketGrammar) ∧ bracketGrammar.Reduced ∧
      ∃ first passes, bracketGrammar.first = .ok (first, passes) ∧
        ∃ follow passes', bracketGrammar.follow first = .ok (follow, passes') ∧
          bracketGrammar.WordExact first follow :=
  ⟨validate_brackets, reduced_bracketGrammar,
    wordExact_of_accepted validate_brackets reduced_bracketGrammar⟩

/-! ## Passes -/

/-- On an accepted grammar with `N` non-terminals, `g.first` takes at most `2 * N + 1` passes and
`g.follow` at most `N + 1`, and a further pass over either result leaves it as it is. -/
theorem passes_of_accepted (h : validate found d = .ok (all, .accepted g)) :
    g.nonTerminals.Nodup ∧
      ∃ first passes, g.first = .ok (first, passes) ∧ g.firstPass first = .ok first ∧
        passes ≤ 2 * g.nonTerminals.length + 1 ∧
        ∃ follow passes', g.follow first = .ok (follow, passes') ∧
          g.followPass first follow = .ok follow ∧ passes' ≤ g.nonTerminals.length + 1 := by
  rcases represents_of_accepted h with ⟨_, hd, hrepresents⟩
  have hg : g.WellFormed := hrepresents.wellFormed hd
  have hnodup : g.nonTerminals.Nodup := hrepresents.nonTerminals_nodup
  rcases hg.exists_leastFirst with ⟨first, passes, hfirst, hleast⟩
  rcases hg.exists_leastFollow hleast with ⟨follow, passes', hfollow, _⟩
  have hfixed : g.firstPass first = .ok first :=
    (Grammar.first_invariant hfirst (Grammar.FirstClosed.top g)).2
  have hfixed' : g.followPass first follow = .ok follow :=
    (Grammar.follow_invariant hfollow (Grammar.FollowClosed.top g first)).2
  exact ⟨hnodup, first, passes, hfirst, hfixed,
    Grammar.first_passes_le hg.heads hrepresents.terminals_nodup hnodup hfirst,
    follow, passes', hfollow, hfixed', Grammar.follow_passes_le hnodup hfollow⟩

/-- Each rule needs what only later rules add, as far as two non-terminals allow that. -/
def belated : Description where
  start := "S"
  terminals := ["a", "b", "c", "d"]
  nonTerminals := ["S", "A"]
  productions := [⟨"S", ["c", "A"], none⟩, ⟨"S", ["A", "b"], none⟩, ⟨"A", ["A", "a"], none⟩,
    ⟨"A", ["S"], none⟩, ⟨"S", ["d", "S", "c"], none⟩, ⟨"S", [], none⟩]

def belatedGrammar : Grammar where
  symbols :=
    ⟨[⟨"a", .terminal⟩, ⟨"b", .terminal⟩, ⟨"c", .terminal⟩, ⟨"d", .terminal⟩, ⟨"S", .nonTerminal⟩,
      ⟨"A", .nonTerminal⟩], by decide, by decide⟩
  terminals := [0, 1, 2, 3]
  nonTerminals := [4, 5]
  rules := [⟨4, [.symbol 2, .symbol 5], 0⟩, ⟨4, [.symbol 5, .symbol 1], 1⟩,
    ⟨5, [.symbol 5, .symbol 0], 2⟩, ⟨5, [.symbol 4], 3⟩,
    ⟨4, [.symbol 3, .symbol 4, .symbol 2], 4⟩, ⟨4, [.empty], 5⟩]
  start := 4

theorem passes_belated :
    validate [] belated = .ok ([], .accepted belatedGrammar) ∧
      belatedGrammar.nonTerminals.Nodup ∧
      ∃ first passes, belatedGrammar.first = .ok (first, passes) ∧
        belatedGrammar.firstPass first = .ok first ∧
        passes ≤ 2 * belatedGrammar.nonTerminals.length + 1 ∧
        ∃ follow passes', belatedGrammar.follow first = .ok (follow, passes') ∧
          belatedGrammar.followPass first follow = .ok follow ∧
          passes' ≤ belatedGrammar.nonTerminals.length + 1 := by
  have haccepted : validate [] belated = .ok ([], .accepted belatedGrammar) := rfl
  exact ⟨haccepted, passes_of_accepted haccepted⟩

/-- The two non-terminals of `belated` take `2 * 2 + 1` and `2 + 1` passes. -/
example : (belatedGrammar.analyze.map fun a => (a.firstPasses, a.followPasses)) = .ok (5, 3) := by
  cbv

end Lookahead
