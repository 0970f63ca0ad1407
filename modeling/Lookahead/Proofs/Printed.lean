import Lookahead.Proofs.Reading.Written
import Lookahead.Proofs.Validation.Canonical

/-!
# Printed — an accepted grammar survives being printed and read again

- `Description.read_text_canonical`: a canonical form that is written one part a line is read again.
- `accepted_of_printed`: the grammar behind it is the same.
-/

namespace Lookahead

variable {source : List Char} {found all : Diagnostics} {d : Description} {g : Grammar}

/-! ## Canonical forms as text -/

theorem isName_emptyName : IsName emptyName :=
  ⟨by decide, List.all_eq_true.1 (by decide)⟩

namespace Description

/-- The only name that `d.canonical` can have and `d` has not is `emptyName`. -/
theorem mentions_canonical {n : String} (h : n ∈ d.canonical.mentions) :
    n = emptyName ∨ n ∈ d.mentions := by
  simp only [mentions, canonical, List.mem_append, List.mem_cons, List.mem_flatMap, List.mem_map,
    List.mem_eraseDups, List.not_mem_nil, or_false] at h ⊢
  rcases h with ((hstart | hterminal) | (hnonTerminal | hstart)) | ⟨_, ⟨p, hp, rfl⟩, hn⟩
  · exact Or.inr (Or.inl (Or.inl (Or.inl hstart)))
  · exact Or.inr (Or.inl (Or.inl (Or.inr hterminal)))
  · exact Or.inr (Or.inl (Or.inr hnonTerminal))
  · exact Or.inr (Or.inl (Or.inl (Or.inl hstart)))
  · rcases hn with hhead | hn
    · exact Or.inr (Or.inr ⟨p, hp, Or.inl hhead⟩)
    · rcases Production.mem_alternate_canonical hn with hempty | hn
      · exact Or.inl hempty
      · exact Or.inr (Or.inr ⟨p, hp, Or.inr hn⟩)

/-- If `d` was read, then `d.canonical.text` is read as `d.canonical`, up to the spans. -/
theorem read_text_canonical (h : Description.read source = .ok d) :
    ∃ reread, Description.read d.canonical.text.toList = .ok reread ∧
      reread.withoutSpans = d.canonical := by
  have hnames : ∀ n ∈ d.canonical.mentions, IsName n := by
    intro n hn
    rcases mentions_canonical hn with rfl | hn
    · exact isName_emptyName
    · exact isName_of_read h n hn
  have hcomplete : d.canonical.Complete := by
    rcases (sound_of_read h).1 with ⟨hterminals, _, hproductions, _⟩
    exact complete_canonical hterminals hproductions
  have hwords : HasWords d.canonical.text.toList d.canonical.words :=
    (laidOut_text hcomplete).hasWords (spelled_words_iff.2 hnames)
  rcases read_of_hasWords hcomplete hwords with ⟨reread, hreread, hsame⟩
  exact ⟨reread, hreread, hsame.trans d.withoutSpans_canonical⟩

end Description

/-! ## The grammar behind the text -/

/-- If `d` was read and accepted as `g`, then `g.describe` gives a description with the rule texts
of `g` for its productions. Its text is read again, and `validate` accepts it as the identical `g`,
so all sets of it are the same too. -/
theorem accepted_of_printed (hread : Description.read source = .ok d)
    (h : validate found d = .ok (all, .accepted g)) :
    ∃ printed reread, g.describe = .ok printed ∧
      g.rules.mapM g.ruleText = .ok (printed.productions.map Production.text) ∧
      Description.read printed.text.toList = .ok reread ∧
      ∀ found', validate found' reread = .ok (found', .accepted g) := by
  rcases represents_of_accepted h with ⟨_, hd, hg⟩
  rcases Description.read_text_canonical hread with ⟨reread, hreread, hsame⟩
  have hdescribe : g.describe = .ok d.canonical := hg.describe_eq hd (inOrder_of_accepted h)
  -- the two descriptions may differ, but not in their canonical forms
  have hcanonical : d.canonical = reread.canonical :=
    calc
      d.canonical = d.canonical.canonical := d.canonical_canonical.symm
      _ = reread.withoutSpans.canonical := by rw [hsame]
      _ = reread.canonical := reread.canonical_withoutSpans
  exact ⟨d.canonical, reread, hdescribe, hg.mapM_ruleText_eq hd, hreread,
    accepted_of_canonical_eq h hcanonical⟩

/-- A source with names listed twice, an unlisted start symbol and an empty rule. -/
def untidySource : List Char :=
  ":Start:S :Terminals:b a b\n:NonTerminals:A A # and S\n:Rules:A->EMPTY.S->a S A.".toList

def untidy : Description where
  start := "S"
  terminals := ["b", "a", "b"]
  nonTerminals := ["A", "A"]
  productions :=
    [⟨"A", ["EMPTY"], some ⟨59, 68, 3, 8⟩⟩, ⟨"S", ["a", "S", "A"], some ⟨68, 77, 3, 17⟩⟩]

def untidyGrammar : Grammar where
  symbols :=
    ⟨[⟨"b", .terminal⟩, ⟨"a", .terminal⟩, ⟨"A", .nonTerminal⟩, ⟨"S", .nonTerminal⟩],
      by decide, by decide⟩
  terminals := [0, 1]
  nonTerminals := [2, 3]
  rules := [⟨2, [.empty], 0⟩, ⟨3, [.symbol 1, .symbol 3, .symbol 2], 1⟩]
  start := 3

theorem printed_untidy :
    Description.read untidySource = .ok untidy ∧
      validate [] untidy = .ok ([], .accepted untidyGrammar) ∧
      ∃ printed reread, untidyGrammar.describe = .ok printed ∧
        untidyGrammar.rules.mapM untidyGrammar.ruleText =
          .ok (printed.productions.map Production.text) ∧
        Description.read printed.text.toList = .ok reread ∧
        ∀ found', validate found' reread = .ok (found', .accepted untidyGrammar) := by
  have hread : Description.read untidySource = .ok untidy := by decide +kernel
  have haccepted : validate [] untidy = .ok ([], .accepted untidyGrammar) := rfl
  exact ⟨hread, haccepted, accepted_of_printed hread haccepted⟩

end Lookahead
