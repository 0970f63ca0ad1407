import Lookahead.Proofs.Reading.Format
import Lookahead.Proofs.Reading.Written
import Mathlib.Computability.MyhillNerode

/-!
# Quotients — what the format allows behind some words

Behind the first words of a sentence the format allows the quotient of its language by these words.
The quotients are products of the parts that are still to come, perhaps with more names in front.

- `Format.Awaits`, `Demands`: a word that can come next, and the only words that can.
- `Format.Possible`: some continuation is made of words that can be spelled.
- `Format.endedSentences`, `Opens`: whole texts by their words, and what some text begins with.
-/

open scoped Computability

namespace Lookahead
namespace Format

variable {L R : Language Word} {w : Word} {v ws : List Word} {kind : TokenKind} {part : Part}
variable {fits : Word → Prop}

/-! ## The next word -/

/-- `L` has a sentence whose words can all be spelled. -/
def Possible (L : Language Word) : Prop :=
  ∃ v ∈ L, ∀ w ∈ v, w.Spelled

theorem Possible.mul (hL : Possible L) (hR : Possible R) : Possible (L * R) := by
  rcases hL with ⟨v, hv, hspelled⟩
  rcases hR with ⟨v', hv', hspelled'⟩
  exact ⟨v ++ v', Language.append_mem_mul hv hv', List.forall_mem_append.2 ⟨hspelled, hspelled'⟩⟩

theorem possible_kstar (L : Language Word) : Possible L∗ :=
  ⟨[], Language.nil_mem_kstar L, by simp⟩

theorem Possible.oneOrMore (hL : Possible L) : Possible (oneOrMore L) :=
  hL.mul (possible_kstar L)

end Format
end Lookahead
