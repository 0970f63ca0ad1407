import Lookahead.Proofs.SymbolTable
import Lookahead.Validation

/-!
# Rules — when the rules have no findings, and what they become

For a table, one rule is clean or has a defect of its own; the rules together have findings exactly
if one of them is not clean.

- `Validation.Clean`: a rule with a non-terminal as its head and declared names behind it.
- `Validation.checkProduction_defects_iff`: the defects of one rule.
- `Validation.checkProductions_findings_iff`: the findings about all of them.
- `Validation.Renders`: a rule by number, beside the rule by name that it comes from.
- `Validation.Clean.entries`: the names of a clean alternate become ids one by one.
- `Validation.checkProductions_rules`: clean rules all become rules by number, in their order.
-/

namespace Lookahead
namespace Validation

variable {t : SymbolTable} {p : Production} {index : Nat} {r : Rule}

/-! ## One rule -/

structure Clean (t : SymbolTable) (p : Production) : Prop where
  unreserved : isReservedName p.head = false
  head : ⟨p.head, .nonTerminal⟩ ∈ t.declarations
  alternate : isEmptyAlternate p.alternate = true ∨
    ∀ n ∈ p.alternate, isEmptyName n = false ∧ n ∈ t.names

theorem alternateDefects_eq_nil_iff :
    alternateDefects t p = [] ↔ isEmptyAlternate p.alternate = true ∨
      ∀ n ∈ p.alternate, isEmptyName n = false ∧ n ∈ t.names := by
  cases hempty : isEmptyAlternate p.alternate with
  | true => simp [alternateDefects, hempty]
  | false =>
      have hcontains : ∀ n, t.contains n = true ↔ n ∈ t.names := fun _ => SymbolTable.contains_iff
      simp only [alternateDefects, hempty, Bool.false_eq_true, if_false, List.append_eq_nil_iff,
        List.map_eq_nil_iff, List.filter_eq_nil_iff, ite_eq_right_iff, false_or]
      -- the first kind of defect is about unknown names, the second about a misplaced marker
      constructor
      · rintro ⟨hdeclared, hmarker⟩ n hn
        have hname : isEmptyName n = false := by
          by_contra h
          have hany : p.alternate.any isEmptyName = true :=
            List.any_eq_true.2 ⟨n, hn, by simpa using h⟩
          cases hmarker hany
        have hknown := hdeclared n hn
        simp only [hname, Bool.not_false, Bool.true_and, Bool.not_eq_true', Bool.not_eq_false,
          hcontains] at hknown
        exact ⟨hname, hknown⟩
      · intro h
        constructor
        · intro n hn
          simp [(hcontains n).2 (h n hn).2]
        · intro hany
          rcases List.any_eq_true.1 hany with ⟨n, hn, hname⟩
          rw [(h n hn).1] at hname
          cases hname

def RuleCheck.defects : RuleCheck → List Defect
  | .stopped defects => defects
  | .skipped defects => defects
  | .kept defects _ => defects

/-- `r` has the `index` and the head of `p`, and its alternate by id. -/
structure Renders (t : SymbolTable) (p : Production) (index : Nat) (r : Rule) : Prop where
  head : t.at? r.head = some ⟨p.head, .nonTerminal⟩
  alternate : r.alternate = alternateEntries t p
  index : r.index = index

/-- Each `b` of the second list has an `a` of the first with `S a b`. -/
theorem exists_left_of_forall₂ {α β : Type} {S : α → β → Prop} {as : List α} {bs : List β} {b : β}
    (h : List.Forall₂ S as bs) (hb : b ∈ bs) : ∃ a ∈ as, S a b := by
  induction h with
  | nil => cases hb
  | @cons a c as bs hac _ ih =>
      rcases List.mem_cons.1 hb with rfl | hb
      · exact ⟨a, List.mem_cons_self, hac⟩
      · rcases ih hb with ⟨a', ha', hab⟩
        exact ⟨a', List.mem_cons_of_mem a ha', hab⟩

/-- If `as` and `bs` are both related to `cs` place by place, then they are related to each other by
way of `cs`. -/
theorem forall₂_of_common {α β γ : Type} {P : α → γ → Prop} {Q : β → γ → Prop}
    {as : List α} {bs : List β} {cs : List γ} (h : List.Forall₂ P as cs)
    (h' : List.Forall₂ Q bs cs) : List.Forall₂ (fun a b => ∃ c, P a c ∧ Q b c) as bs := by
  induction h generalizing bs with
  | nil =>
      cases h'
      exact .nil
  | cons hfirst _ ih =>
      cases h' with
      | cons hfirst' hrest' => exact .cons ⟨_, hfirst, hfirst'⟩ (ih hrest')

/-- Declared `names` become `ids` one by one; none is left out. -/
theorem exists_ids {names : List String} (h : ∀ n ∈ names, isEmptyName n = false ∧ n ∈ t.names) :
    ∃ ids : List SymbolId,
      (names.filterMap fun n => if isEmptyName n then none else (t.idOf? n).map Entry.symbol) =
        ids.map Entry.symbol ∧
      List.Forall₂ (fun n id => ∃ cls, t.at? id = some ⟨n, cls⟩) names ids := by
  induction names with
  | nil => exact ⟨[], rfl, List.Forall₂.nil⟩
  | cons n rest ih =>
      have hrest : ∀ m ∈ rest, isEmptyName m = false ∧ m ∈ t.names :=
        fun m hm => h m (List.mem_cons_of_mem n hm)
      rcases ih hrest with ⟨ids, hids, hall⟩
      rcases h n (by simp) with ⟨hname, hmem⟩
      rcases SymbolTable.mem_names_iff.1 hmem with ⟨cls, hcls⟩
      rcases SymbolTable.exists_at?_iff.2 hcls with ⟨id, hid⟩
      have hidOf : t.idOf? n = some id := SymbolTable.idOf?_of_at? hid
      refine ⟨id :: ids, ?_, List.Forall₂.cons ⟨cls, hid⟩ hall⟩
      simpa [hname, hidOf] using hids

/-- The alternate of a clean `p` becomes `[.empty]`, or the `ids` of all its names. -/
theorem Clean.entries (h : Clean t p) :
    alternateEntries t p = [.empty] ∨
      ∃ ids : List SymbolId, ids ≠ [] ∧ alternateEntries t p = ids.map Entry.symbol ∧
        List.Forall₂ (fun n id => ∃ cls, t.at? id = some ⟨n, cls⟩) p.alternate ids := by
  cases hempty : isEmptyAlternate p.alternate with
  | true => exact Or.inl (by simp [alternateEntries, hempty])
  | false =>
      have hnames : ∀ n ∈ p.alternate, isEmptyName n = false ∧ n ∈ t.names := by
        rcases h.alternate with hmarker | hnames
        · rw [hmarker] at hempty
          cases hempty
        · exact hnames
      rcases exists_ids hnames with ⟨ids, hids, hall⟩
      refine Or.inr ⟨ids, ?_, by simp [alternateEntries, hempty, hids], hall⟩
      -- an alternate without names would be that of an empty rule
      rintro rfl
      have hnil : p.alternate = [] := List.forall₂_nil_right_iff.1 hall
      simp [isEmptyAlternate, hnil] at hempty

theorem checkProduction_clean (h : Clean t p) (index : Nat) :
    ∃ r, checkProduction t index p = .kept [] r ∧ Renders t p index r := by
  rcases SymbolTable.exists_at?_iff.2 h.head with ⟨id, hid⟩
  have hlookup : t.lookup? p.head = some (id, .nonTerminal) := SymbolTable.lookup?_eq_some_iff.2 hid
  have hmarker : isEmptyName p.head = false := by
    have hreserved := h.unreserved
    simp only [isReservedName, Bool.or_eq_false_iff] at hreserved
    exact hreserved.1
  refine ⟨⟨id, alternateEntries t p, index⟩, ?_, ⟨hid, rfl, rfl⟩⟩
  simp [checkProduction, h.unreserved, hmarker, hlookup, alternateDefects_eq_nil_iff.2 h.alternate]

theorem checkProduction_defects_iff (index : Nat) :
    (checkProduction t index p).defects = [] ↔ Clean t p := by
  constructor
  · intro h
    unfold checkProduction at h
    split at h
    · cases h
    split at h
    · cases h
    next hreserved =>
    split at h
    · cases h
    next id cls hlookup =>
    have hid : t.at? id = some ⟨p.head, cls⟩ := SymbolTable.lookup?_eq_some_iff.1 hlookup
    have hdecl : ⟨p.head, cls⟩ ∈ t.declarations := SymbolTable.exists_at?_iff.1 ⟨id, hid⟩
    simp only [RuleCheck.defects, List.append_eq_nil_iff, ite_eq_right_iff, List.cons_ne_nil,
      imp_false] at h
    refine ⟨by simpa using hreserved, ?_, alternateDefects_eq_nil_iff.1 h.2⟩
    -- a head of either other class would be a defect or is in no table
    cases cls with
    | terminal => exact absurd rfl h.1
    | nonTerminal => exact hdecl
    | empty => exact absurd rfl (t.declarable _ hdecl)
  · intro h
    rcases checkProduction_clean h index with ⟨r, hr, _⟩
    simp [hr, RuleCheck.defects]

/-! ## All rules -/

theorem checkProductions_findings_iff (t : SymbolTable) (ps : List Production) :
    ∀ index, (checkProductions t index ps).1 = [] ↔ ∀ p ∈ ps, Clean t p := by
  induction ps with
  | nil =>
      intro index
      simp [checkProductions]
  | cons p rest ih =>
      intro index
      have hdefects := checkProduction_defects_iff (t := t) (p := p) index
      cases hcheck : checkProduction t index p with
      | stopped defects =>
          rw [hcheck, RuleCheck.defects] at hdefects
          -- a clean rule never stops the validation, so there is a defect here
          have hdirty : ¬Clean t p := by
            intro hclean
            rcases checkProduction_clean hclean index with ⟨r, hr, _⟩
            rw [hcheck] at hr
            cases hr
          have hsome : defects ≠ [] := by
            intro hnil
            exact hdirty (hdefects.1 hnil)
          simp [checkProductions, hcheck, hsome, hdirty]
      | skipped defects =>
          rw [hcheck, RuleCheck.defects] at hdefects
          simp [checkProductions, hcheck, hdefects, ih (index + 1)]
      | kept defects rule =>
          rw [hcheck, RuleCheck.defects] at hdefects
          simp [checkProductions, hcheck, hdefects, ih (index + 1)]

def RendersAll (t : SymbolTable) (index : Nat) (ps : List Production) (rules : List Rule) : Prop :=
  List.Forall₂ (fun entry r => Renders t entry.1 entry.2 r) (ps.zipIdx index) rules

theorem checkProductions_rules (t : SymbolTable) (ps : List Production)
    (h : ∀ p ∈ ps, Clean t p) :
    ∀ index, ∃ rules, checkProductions t index ps = ([], some rules) ∧
      RendersAll t index ps rules := by
  induction ps with
  | nil =>
      intro index
      exact ⟨[], rfl, List.Forall₂.nil⟩
  | cons p rest ih =>
      intro index
      rcases checkProduction_clean (h p (by simp)) index with ⟨r, hr, hrenders⟩
      have hrest : ∀ q ∈ rest, Clean t q := fun q hq => h q (List.mem_cons_of_mem p hq)
      rcases ih hrest (index + 1) with ⟨rules, hrules, hall⟩
      refine ⟨r :: rules, by simp [checkProductions, hr, hrules], ?_⟩
      exact List.Forall₂.cons hrenders hall

variable {ps : List Production} {rules : List Rule}

theorem RendersAll.exists_rule (h : RendersAll t index ps rules) (hp : p ∈ ps) :
    ∃ r ∈ rules, ∃ i, Renders t p i r := by
  rcases List.mem_iff_getElem?.1 hp with ⟨i, hi⟩
  have hentry : (p, index + i) ∈ ps.zipIdx index := List.mk_add_mem_zipIdx_iff_getElem?.2 hi
  rcases exists_left_of_forall₂ h.flip hentry with ⟨r, hr, hrenders⟩
  exact ⟨r, hr, index + i, hrenders⟩

theorem RendersAll.exists_production (h : RendersAll t index ps rules) (hr : r ∈ rules) :
    ∃ p ∈ ps, ∃ i, Renders t p i r := by
  rcases exists_left_of_forall₂ h hr with ⟨⟨p, i⟩, hentry, hrenders⟩
  exact ⟨p, List.fst_mem_of_mem_zipIdx hentry, i, hrenders⟩

end Validation
end Lookahead
