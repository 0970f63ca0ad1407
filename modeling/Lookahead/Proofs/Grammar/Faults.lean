import Lookahead.Proofs.Grammar.FirstOutcome
import Lookahead.Proofs.Grammar.FollowOutcome

/-!
# Faults — which failures leave the computation of the sets

A scan asserts that every element it comes to has a FIRST set. The heads of rules and the start
symbol are looked up without an assertion, in the map that is being filled, and where they have no
row it is the map's own failure that comes out.

- `Grammar.ReachesHead`, `Grammar.ReachesRow`: the lookups of heads that the passes come to.
- `Grammar.exists_reachesHead`, `Grammar.follow_fault`: every failure is an assertion, or that of
  one of these lookups or of the start symbol's.
- `Grammar.AssertsOnly`: nothing but assertions fails.
- `Grammar.assertsOnly_iff`: this is so exactly if each of the lookups finds its row.
-/

namespace Lookahead

/-- Whether `Fault` is one of the assertions of `SetMap.firstOf`, not a failed lookup. -/
def Fault.IsAssertion : Fault → Prop
  | .noFirst _ => True
  | _ => False

namespace Grammar

variable {g : Grammar} {first m : SetMap} {r : Rule} {fault : Fault} {id : SymbolId}
variable {rest : List Entry}

theorem isAssertion_of_firstOf {seq : List Entry} (h : m.firstOf seq = .error fault) :
    fault.IsAssertion := by
  rcases SetMap.exists_noFirst_of_firstOf h with ⟨x, _, rfl⟩
  exact trivial

/-! ## FIRST sets -/

/-- In the first pass, `extendFirst` succeeds for the rules `before` an occurrence of `r` and the
alternate of `r` is scanned. The row of `r.head` is looked up next. -/
def ReachesHead (g : Grammar) (r : Rule) : Prop :=
  ∃ before after m new, g.rules = before ++ r :: after ∧
    before.foldlM extendFirst g.initialFirst = .ok m ∧ m.firstOf r.alternate = .ok new

theorem extendFirst_eq_error_iff :
    extendFirst m r = .error fault ↔
      m.firstOf r.alternate = .error fault ∨
        ∃ new, m.firstOf r.alternate = .ok new ∧ r.head ∉ m.domain ∧ fault = .noSet r.head := by
  simp only [extendFirst, bind_eq_error_iff, SetMap.extend?_eq_error_iff]

theorem mem_domain_of_rules {rules : List Rule}
    (h : rules.foldlM extendFirst g.initialFirst = .ok m) : id ∈ m.domain ↔ g.Declares id := by
  have hgrows : g.initialFirst.Grows m := SetMap.foldlM_grows extendFirst_grows h
  rw [hgrows.domain_eq]
  exact mem_domain_initialFirst

/-- If the first pass succeeds, then `g` declares the head of every rule, since the pass looks all
of them up. -/
theorem declares_head_of_firstPass (h : g.firstPass g.initialFirst = .ok m) (hr : r ∈ g.rules) :
    g.Declares r.head := by
  rcases SetMap.foldlM_between extendFirst_grows h r hr with ⟨n, n', hn, hstep, _⟩
  rcases extendFirst_eq_ok_iff.1 hstep with ⟨_, _, hhead, _⟩
  rw [hn.domain_eq] at hhead
  exact mem_domain_initialFirst.1 hhead

/-- If the first pass succeeds, a later fault of `g.first` is an assertion: no head is missing any
more. -/
theorem isAssertion_of_firstPass (h : g.firstPass g.initialFirst = .ok m)
    (hfault : g.first = .error fault) : fault.IsAssertion := by
  rcases first_cases (FirstClosed.top g) with ⟨_, _, hok, _⟩ | ⟨last, fault', herr, hlast, hpass⟩
  · rw [hok] at hfault
    cases hfault
  · have hsame : fault = fault' := by
      rw [hfault] at herr
      exact Except.error.inj herr
    subst hsame
    rcases foldlM_eq_error_iff.1 hpass with ⟨before, r, after, n, hrules, hbefore, hstep⟩
    rcases extendFirst_eq_error_iff.1 hstep with hscan | ⟨_, _, hmissing, _⟩
    · exact isAssertion_of_firstOf hscan
    · have hr : r ∈ g.rules := by simp [hrules]
      -- no row gets lost, and the first pass has found that of the head
      have hgrows : last.Grows n := SetMap.foldlM_grows extendFirst_grows hbefore
      have hhead : r.head ∈ n.domain := by
        rw [hgrows.domain_eq]
        exact hlast.mem_domain.2 (declares_head_of_firstPass h hr)
      exact absurd hhead hmissing

theorem exists_reachesHead (h : g.first = .error fault) (hfault : ¬fault.IsAssertion) :
    ∃ r, g.ReachesHead r ∧ ¬g.Declares r.head ∧ fault = .noSet r.head := by
  cases hpass : g.firstPass g.initialFirst with
  | ok m => exact absurd (isAssertion_of_firstPass hpass h) hfault
  | error fault' =>
      have hsame : fault = fault' := by
        have hfirst : g.first = .error fault' := SetMap.saturate_of_fault hpass
        rw [h] at hfirst
        exact Except.error.inj hfirst
      subst hsame
      rcases foldlM_eq_error_iff.1 hpass with ⟨before, r, after, n, hrules, hbefore, hstep⟩
      rcases extendFirst_eq_error_iff.1 hstep with hscan | ⟨new, hnew, hmissing, hhead⟩
      · exact absurd (isAssertion_of_firstOf hscan) hfault
      · have hdeclares : ¬g.Declares r.head := fun hr =>
          hmissing ((mem_domain_of_rules hbefore).2 hr)
        exact ⟨r, ⟨before, after, n, new, hrules, hbefore, hnew⟩, hdeclares, hhead⟩

theorem ReachesHead.first_eq (h : g.ReachesHead r) (hr : ¬g.Declares r.head) :
    g.first = .error (.noSet r.head) := by
  rcases h with ⟨before, after, n, new, hrules, hbefore, hnew⟩
  have hmissing : r.head ∉ n.domain := fun hhead => hr ((mem_domain_of_rules hbefore).1 hhead)
  have hstep : extendFirst n r = .error (.noSet r.head) :=
    extendFirst_eq_error_iff.2 (Or.inr ⟨new, hnew, hmissing, rfl⟩)
  have hpass : g.firstPass g.initialFirst = .error (.noSet r.head) :=
    foldlM_eq_error_iff.2 ⟨before, r, after, n, hrules, hbefore, hstep⟩
  exact SetMap.saturate_of_fault hpass

/-! ## FOLLOW sets -/

/-- The places of all rules, as `(r, id, rest)`, in the order in which `followPass` comes to
them. -/
def allPlaces (g : Grammar) : List (Rule × SymbolId × List Entry) :=
  g.rules.flatMap fun r => (g.rulePlaces r).map (Prod.mk r)

theorem mem_allPlaces : (r, id, rest) ∈ g.allPlaces ↔ r ∈ g.rules ∧ g.Stands r id rest := by
  simp [allPlaces, mem_rulePlaces_iff_stands]

/-- No lookup fails at `place = (r, id, rest)`: `first.firstOf rest` is defined, and `r.head` is a
non-terminal if `.empty` is in it. -/
def Fits (g : Grammar) (first : SetMap) (place : Rule × SymbolId × List Entry) : Prop :=
  ∃ next, first.firstOf place.2.2 = .ok next ∧ (.empty ∈ next → place.1.head ∈ g.nonTerminals)

/-- The places before one of `r` all fit, and its `rest` is scanned with `.empty` among the entries.
The row of `r.head` is looked up next. -/
def ReachesRow (g : Grammar) (first : SetMap) (r : Rule) : Prop :=
  ∃ before id rest after next, g.allPlaces = before ++ (r, id, rest) :: after ∧
    (∀ place ∈ before, g.Fits first place) ∧ first.firstOf rest = .ok next ∧ .empty ∈ next

def extendAt (first follow : SetMap) (place : Rule × SymbolId × List Entry) :
    Except Fault SetMap :=
  extendPlace first place.1.head follow place.2

theorem followPass_eq_foldlM :
    g.followPass first m = g.allPlaces.foldlM (extendAt first) m := by
  unfold followPass allPlaces
  induction g.rules generalizing m with
  | nil => rfl
  | cons r rules ih =>
      have hrule : ((g.rulePlaces r).map (Prod.mk r)).foldlM (extendAt first) m =
          g.extendFollow first m r := by
        rw [extendFollow_eq_foldlM, List.foldlM_map]
        rfl
      rw [List.flatMap_cons, List.foldlM_append, List.foldlM_cons, hrule]
      exact bind_congr fun _ => ih

theorem extendAt_grows (m : SetMap) (place : Rule × SymbolId × List Entry) (m' : SetMap)
    (h : extendAt first m place = .ok m') : m.Grows m' :=
  extendPlace_grows place.1.head m place.2 m' h

theorem followOf_eq_error_iff {head : SymbolId} :
    followOf first head rest m = .error fault ↔
      first.firstOf rest = .error fault ∨
        ∃ next, first.firstOf rest = .ok next ∧ .empty ∈ next ∧ head ∉ m.domain ∧
          fault = .noSet head := by
  simp only [followOf, bind_eq_error_iff]
  refine or_congr_right (exists_congr fun next => and_congr_right fun _ => ?_)
  by_cases hempty : .empty ∈ next
  · simp [hempty, bind_eq_error_iff, SetMap.row_eq_error_iff, pure, Except.pure]
  · simp [hempty, pure, Except.pure]

section Rows

variable {place : Rule × SymbolId × List Entry}

/-- If `id` has a row, then at the place `(r, id, rest)` either `first.firstOf rest` fails, or
`rest` can vanish and `r.head` has no row. -/
theorem extendAt_eq_error_iff (hid : id ∈ m.domain) :
    extendAt first m (r, id, rest) = .error fault ↔
      first.firstOf rest = .error fault ∨
        ∃ next, first.firstOf rest = .ok next ∧ .empty ∈ next ∧ r.head ∉ m.domain ∧
          fault = .noSet r.head := by
  simp only [extendAt, extendPlace, bind_eq_error_iff, SetMap.extend?_eq_error_iff, hid,
    not_true_eq_false, false_and, and_false, exists_false, or_false]
  exact followOf_eq_error_iff

theorem fits_of_extendAt {m' : SetMap} (hm : ∀ id, id ∈ m.domain ↔ id ∈ g.nonTerminals)
    (h : extendAt first m place = .ok m') : g.Fits first place := by
  rcases place with ⟨r, id, rest⟩
  rcases extendPlace_eq_ok_iff.1 h with ⟨new, hnew, _⟩
  rcases exists_followOf_iff.1 ⟨new, hnew⟩ with ⟨next, hnext, hhead⟩
  exact ⟨next, hnext, fun hempty => (hm r.head).1 (hhead hempty)⟩

theorem Fits.extendAt_total (h : g.Fits first place) (hplace : place ∈ g.allPlaces)
    (hm : ∀ id, id ∈ m.domain ↔ id ∈ g.nonTerminals) :
    ∃ m', extendAt first m place = .ok m' ∧ ∀ id, id ∈ m'.domain ↔ id ∈ g.nonTerminals := by
  rcases place with ⟨r, id, rest⟩
  rcases h with ⟨next, hnext, hhead⟩
  have hid : id ∈ g.nonTerminals := (mem_allPlaces.1 hplace).2.2.1
  rcases exists_followOf_iff.2 ⟨next, hnext, fun hempty => (hm r.head).2 (hhead hempty)⟩ with
    ⟨new, hnew⟩
  refine ⟨m.extend id new, extendPlace_eq_ok_iff.2 ⟨new, hnew, (hm id).2 hid, rfl⟩, ?_⟩
  simpa only [SetMap.domain_extend] using hm

end Rows

/-- If `g.follow first` fails by a lookup, the missing row is that of a head with `ReachesRow`. All
passes have the same rows and scan the same `first`, so every place before that one fits. -/
theorem exists_reachesRow (hstart : g.start ∈ g.nonTerminals)
    (h : g.follow first = .error fault) (hfault : ¬fault.IsAssertion) :
    ∃ r, g.ReachesRow first r ∧ r.head ∉ g.nonTerminals ∧ fault = .noSet r.head := by
  rcases follow_cases (FollowClosed.top g first) hstart with ⟨_, _, hok, _⟩ |
    ⟨last, fault', herr, hlast, hpass⟩
  · rw [h] at hok
    cases hok
  · have hsame : fault = fault' := by
      rw [h] at herr
      exact Except.error.inj herr
    subst hsame
    rw [followPass_eq_foldlM] at hpass
    -- the pass fails at one place, with the rows that the places before it have left
    rcases foldlM_eq_error_iff.1 hpass with
      ⟨before, ⟨r, id, rest⟩, after, n, hplaces, hbefore, hstep⟩
    have hrows (n : SetMap) (hn : last.Grows n) (id : SymbolId) :
        id ∈ n.domain ↔ id ∈ g.nonTerminals := by
      rw [hn.domain_eq]
      exact hlast.mem_domain
    have hfits : ∀ place ∈ before, g.Fits first place := by
      intro place hplace
      rcases SetMap.foldlM_between extendAt_grows hbefore place hplace with ⟨k, k', hk, hok, _⟩
      exact fits_of_extendAt (hrows k hk) hok
    have hn := hrows n (SetMap.foldlM_grows extendAt_grows hbefore)
    have hid : id ∈ g.nonTerminals :=
      (mem_allPlaces.1 (hplaces ▸ List.mem_append_right before List.mem_cons_self)).2.2.1
    rcases (extendAt_eq_error_iff ((hn id).2 hid)).1 hstep with hscan |
      ⟨next, hnext, hempty, hmissing, hhead⟩
    · exact absurd (isAssertion_of_firstOf hscan) hfault
    · exact ⟨r, ⟨before, id, rest, after, next, hplaces, hfits, hnext, hempty⟩,
        fun hr => hmissing ((hn r.head).2 hr), hhead⟩

theorem ReachesRow.follow_eq (h : g.ReachesRow first r) (hstart : g.start ∈ g.nonTerminals)
    (hr : r.head ∉ g.nonTerminals) : g.follow first = .error (.noSet r.head) := by
  rcases h with ⟨before, id, rest, after, next, hplaces, hfits, hnext, hempty⟩
  have hplace : (r, id, rest) ∈ g.allPlaces :=
    hplaces ▸ List.mem_append_right before List.mem_cons_self
  rcases mem_allPlaces.1 hplace with ⟨hrule, hstands⟩
  rcases follow_cases (FollowClosed.top g first) hstart with ⟨m, passes, hok, _⟩ |
    ⟨last, fault, herr, hlast, hpass⟩
  · -- a success would have found the row of the head
    rcases (followDefined_of_follow hok).places r hrule id rest hstands with ⟨next', hnext', hhead⟩
    rw [hnext] at hnext'
    cases hnext'
    exact absurd (hhead hempty) hr
  · have hearlier : ∀ place ∈ before, place ∈ g.allPlaces := by
      intro place hplace
      rw [hplaces]
      exact List.mem_append_left _ hplace
    -- the places before this one fit, so the pass comes to it
    rcases foldlM_total
        (fun m place hplace hm => (hfits place hplace).extendAt_total (hearlier place hplace) hm)
        (fun _ => hlast.mem_domain) with ⟨n, hbefore, hn⟩
    have hstep : extendAt first n (r, id, rest) = .error (.noSet r.head) := by
      have hmissing : r.head ∉ n.domain := fun hhead => hr ((hn r.head).1 hhead)
      exact (extendAt_eq_error_iff ((hn id).2 hstands.2.1)).2
        (Or.inr ⟨next, hnext, hempty, hmissing, rfl⟩)
    have hfault : g.followPass first last = .error (.noSet r.head) := by
      rw [followPass_eq_foldlM]
      exact foldlM_eq_error_iff.2 ⟨before, (r, id, rest), after, n, hplaces, hbefore, hstep⟩
    rw [hfault] at hpass
    rw [herr, Except.error.inj hpass]

theorem follow_of_start (hstart : g.start ∉ g.nonTerminals) :
    g.follow first = .error (.noSet g.start) := by
  have hinitial : g.initialFollow = .error (.noSet g.start) :=
    SetMap.extend?_eq_error_iff.2 ⟨by simpa [SetMap.domain] using hstart, rfl⟩
  exact bind_eq_error_iff.2 (Or.inl hinitial)

theorem follow_fault (h : g.follow first = .error fault) :
    fault.IsAssertion ∨ (g.start ∉ g.nonTerminals ∧ fault = .noSet g.start) ∨
      ∃ r, g.ReachesRow first r ∧ r.head ∉ g.nonTerminals ∧ fault = .noSet r.head := by
  by_cases hstart : g.start ∈ g.nonTerminals
  · by_cases hfault : fault.IsAssertion
    · exact Or.inl hfault
    · exact Or.inr (Or.inr (exists_reachesRow hstart h hfault))
  · have hmissing : g.follow first = .error (.noSet g.start) := follow_of_start hstart
    rw [h] at hmissing
    exact Or.inr (Or.inl ⟨hstart, Except.error.inj hmissing⟩)

/-! ## Both -/

structure AssertsOnly (g : Grammar) : Prop where
  first : ∀ fault, g.first = .error fault → fault.IsAssertion
  follow : ∀ first passes, g.first = .ok (first, passes) →
    ∀ fault, g.follow first = .error fault → fault.IsAssertion

/-- `AssertsOnly` holds exactly if all heads with `ReachesHead` are declared, and the start symbol
and all heads with `ReachesRow` are non-terminals. Any fault that is no assertion is the `noSet` of
such a head or of the start symbol. -/
theorem assertsOnly_iff (g : Grammar) :
    (g.AssertsOnly ↔
        (∀ r, g.ReachesHead r → g.Declares r.head) ∧
          ∀ first passes, g.first = .ok (first, passes) →
            g.start ∈ g.nonTerminals ∧ ∀ r, g.ReachesRow first r → r.head ∈ g.nonTerminals) ∧
      (∀ fault, g.first = .error fault →
        fault.IsAssertion ∨ ∃ r, g.ReachesHead r ∧ ¬g.Declares r.head ∧ fault = .noSet r.head) ∧
      ∀ first fault, g.follow first = .error fault →
        fault.IsAssertion ∨ (g.start ∉ g.nonTerminals ∧ fault = .noSet g.start) ∨
          ∃ r, g.ReachesRow first r ∧ r.head ∉ g.nonTerminals ∧ fault = .noSet r.head := by
  refine ⟨?_, ?_, fun first fault h => follow_fault h⟩
  · constructor
    · intro h
      refine ⟨fun r hreaches => ?_, fun first passes hfirst => ⟨?_, fun r hreaches => ?_⟩⟩
      -- each lookup that missed its row would come out as a failure that is no assertion
      · by_contra hr
        exact h.first _ (hreaches.first_eq hr)
      · by_contra hstart
        exact h.follow first passes hfirst _ (follow_of_start hstart)
      · by_contra hr
        by_cases hstart : g.start ∈ g.nonTerminals
        · exact h.follow first passes hfirst _ (hreaches.follow_eq hstart hr)
        · exact h.follow first passes hfirst _ (follow_of_start hstart)
    · rintro ⟨hheads, hrows⟩
      constructor
      · intro fault hfault
        by_contra hassertion
        rcases exists_reachesHead hfault hassertion with ⟨r, hreaches, hr, _⟩
        exact hr (hheads r hreaches)
      · intro first passes hfirst fault hfault
        rcases hrows first passes hfirst with ⟨hstart, hheads⟩
        by_contra hassertion
        rcases exists_reachesRow hstart hfault hassertion with ⟨r, hreaches, hr, _⟩
        exact hr (hheads r hreaches)
  · intro fault h
    by_cases hfault : fault.IsAssertion
    · exact Or.inl hfault
    · exact Or.inr (exists_reachesHead h hfault)

/-- A grammar whose only rule has an undeclared head. -/
def headless : Grammar where
  symbols := ⟨[], List.nodup_nil, declarable_nil⟩
  terminals := [0, 1]
  nonTerminals := [2, 3]
  rules := [⟨9, [.symbol 0], 0⟩]
  start := 2

theorem first_headless : headless.first = .error (.noSet 9) := by
  have hpass : headless.firstPass headless.initialFirst = .error (.noSet 9) := rfl
  exact SetMap.saturate_of_fault hpass

theorem not_assertsOnly_headless : ¬headless.AssertsOnly := by
  intro h
  exact h.first _ first_headless

theorem faults_headless :
    headless.first = .error (.noSet 9) ∧
      ∃ r, headless.ReachesHead r ∧ ¬headless.Declares r.head ∧ Fault.noSet 9 = .noSet r.head :=
  ⟨first_headless, ((assertsOnly_iff headless).2.1 _ first_headless).resolve_left fun h => h⟩

/-- A terminal as a head can have a FIRST set, but it has no FOLLOW set for `followPass` to look
up. -/
example (t : SymbolTable) :
    let g : Grammar := ⟨t, [0], [1], [⟨0, [.symbol 1], 0⟩], 1⟩
    (g.initialFollow >>= g.followPass ⟨[(0, [.symbol 0]), (1, [])]⟩) = .error (.noSet 0) :=
  rfl

end Grammar
end Lookahead
