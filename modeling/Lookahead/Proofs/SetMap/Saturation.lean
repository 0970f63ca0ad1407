import Lookahead.Proofs.Chains
import Lookahead.Proofs.SetMap.Growth
import Lookahead.Saturation

/-!
# Saturation — what chains of steps and repeated passes end with

A pass is a chain of steps. Each step adds entries to a map or fails, and what every step keeps is
kept by a pass and by any number of passes.

- `SetMap.foldlM_grows`: a chain of steps that only add entries only adds entries.
- `SetMap.foldlM_between`: where in a chain a step is taken.
- `SetMap.foldlM_fixed`: in a chain that changes nothing, no step changes anything.
- `SetMap.Ends`: how passes end that nothing but their results limits.
- `SetMap.saturate_ends`: repeated passes end so, and the capacity does not limit them.
- `SetMap.saturate_cases`: repeated passes end with a map that a further pass leaves as it is, or
  with the failure of a pass.
- `SetMap.saturate_passes_le`: a bound on the number of passes, from stages that the passes go
  through.
-/

namespace Lookahead

namespace SetMap

/-! ## Chains of steps -/

section Chains

variable {α : Type} {step : SetMap → α → Except Fault SetMap} {items : List α}
variable {m m' : SetMap}

theorem foldlM_grows (hstep : ∀ m a m', step m a = .ok m' → m.Grows m')
    (h : items.foldlM step m = .ok m') : m.Grows m' := by
  have hkept : ∀ n a n', a ∈ items → m.Grows n → step n a = .ok n' → m.Grows n' := by
    intro n a n' _ hn hnext
    exact hn.trans (hstep n a n' hnext)
  exact foldlM_preserves hkept (Grows.refl m) h

/-- If a chain of steps that grow leads from `m` to `m'`, then each item `a` has its step between
two maps `n` and `n'` on the way. -/
theorem foldlM_between (hstep : ∀ m a m', step m a = .ok m' → m.Grows m')
    (h : items.foldlM step m = .ok m') :
    ∀ a ∈ items, ∃ n n', m.Grows n ∧ step n a = .ok n' ∧ n'.Grows m' := by
  induction items generalizing m with
  | nil => simp
  | cons a items ih =>
      rw [List.foldlM_cons] at h
      rcases bind_eq_ok_iff.1 h with ⟨next, hfirst, hrest⟩
      intro b hb
      rcases List.mem_cons.1 hb with rfl | hb
      · exact ⟨m, next, Grows.refl m, hfirst, foldlM_grows hstep hrest⟩
      · rcases ih hrest b hb with ⟨n, n', hn, hnext, hn'⟩
        exact ⟨n, n', (hstep m a next hfirst).trans hn, hnext, hn'⟩

theorem foldlM_fixed (hstep : ∀ m a m', step m a = .ok m' → m.Grows m')
    (h : items.foldlM step m = .ok m) : ∀ a ∈ items, step m a = .ok m := by
  intro a ha
  rcases foldlM_between hstep h a ha with ⟨n, n', hn, hnext, hn'⟩
  -- the maps around the step lie between the map and itself
  have hbefore : n = m := hn.antisymm ((hstep n a n' hnext).trans hn')
  have hafter : n' = m := (hn.trans (hstep n a n' hnext)).antisymm hn'
  rw [hbefore, hafter] at hnext
  exact hnext

end Chains

/-! ## Repeated passes -/

variable {pass : SetMap → Except Fault SetMap} {capacity : Nat} {Inv : SetMap → Prop} {m : SetMap}
variable {result : Except Fault (SetMap × Nat)}

/-- `Ends pass m result`: from `m` on, `pass` is run until it fails or changes nothing, and `result`
is the fault, or the last map and the number of passes. There is no bound on that number. -/
inductive Ends (pass : SetMap → Except Fault SetMap) :
    SetMap → Except Fault (SetMap × Nat) → Prop
  | fault {m : SetMap} {e : Fault} : pass m = .error e → Ends pass m (.error e)
  | rest {m : SetMap} : pass m = .ok m → Ends pass m (.ok (m, 1))
  | again {m grown : SetMap} {result : Except Fault (SetMap × Nat)} :
      pass m = .ok grown → grown ≠ m → Ends pass grown result →
        Ends pass m (result.map fun r => (r.1, r.2 + 1))

theorem saturate_ends
    (hpass : ∀ m grown, Inv m → pass m = .ok grown → Inv grown ∧ m.Grows grown)
    (hcapacity : ∀ m, Inv m → m.size ≤ capacity) (hm : Inv m) :
    Ends pass m (saturate pass capacity m) := by
  -- by induction on the passes that are made
  fun_induction saturate pass capacity m with
  | case1 m fault hfault => exact .fault hfault
  | case2 m grown hgrown hlarger fault hrest ih =>
      have hne : grown ≠ m := fun h => Nat.ne_of_gt hlarger.1 (congrArg size h)
      have hlater := ih (hpass m grown hm hgrown).1
      rw [hrest] at hlater
      exact .again hgrown hne hlater
  | case3 m grown hgrown hlarger final passes hrest ih =>
      have hne : grown ≠ m := fun h => Nat.ne_of_gt hlarger.1 (congrArg size h)
      have hlater := ih (hpass m grown hm hgrown).1
      rw [hrest] at hlater
      exact .again hgrown hne hlater
  | case4 m grown hgrown hstop =>
      have hnext := hpass m grown hm hgrown
      have hbound := hcapacity grown hnext.1
      -- the capacity alone never ends the repetition
      have hsize : grown.size ≤ m.size := by omega
      have heq : grown = m := hnext.2.eq_of_size_le hsize
      subst heq
      exact .rest hgrown

/-- If every pass keeps `Inv`, then the last pass starts from a map with `Inv`, and either leaves it
as it is or fails. -/
theorem Ends.cases (h : Ends pass m result)
    (hpass : ∀ m grown, Inv m → pass m = .ok grown → Inv grown) (hm : Inv m) :
    (∃ final passes, result = .ok (final, passes) ∧ Inv final ∧ pass final = .ok final) ∨
      ∃ last fault, result = .error fault ∧ Inv last ∧ pass last = .error fault := by
  induction h with
  | @fault m fault hfault => exact Or.inr ⟨m, fault, rfl, hm, hfault⟩
  | @rest m hrest => exact Or.inl ⟨m, 1, rfl, hm, hrest⟩
  | again hgrown _ _ ih =>
      rcases ih (hpass _ _ hm hgrown) with ⟨final, passes, rfl, hfinal⟩ | ⟨last, fault, rfl, hlast⟩
      · exact Or.inl ⟨final, passes + 1, rfl, hfinal⟩
      · exact Or.inr ⟨last, fault, rfl, hlast⟩

theorem saturate_cases
    (hpass : ∀ m grown, Inv m → pass m = .ok grown → Inv grown ∧ m.Grows grown)
    (hcapacity : ∀ m, Inv m → m.size ≤ capacity) (hm : Inv m) :
    (∃ final passes, saturate pass capacity m = .ok (final, passes) ∧ Inv final ∧
        pass final = .ok final) ∨
      ∃ last fault, saturate pass capacity m = .error fault ∧ Inv last ∧
        pass last = .error fault :=
  (saturate_ends hpass hcapacity hm).cases (fun m grown hm h => (hpass m grown hm h).1) hm

/-- If a pass leads from each `Stage k` to `Stage (k + 1)` and adds nothing at `Stage last`, then
`saturate` takes at most `last + 1 - k` passes. -/
theorem saturate_passes_le {Stage : Nat → SetMap → Prop} {last k passes : Nat} {final : SetMap}
    (hpass : ∀ k m grown, Stage k m → pass m = .ok grown → Stage (k + 1) grown)
    (hlast : ∀ m grown, Stage last m → pass m = .ok grown → grown.size ≤ m.size)
    (hk : k ≤ last) (hm : Stage k m) (h : saturate pass capacity m = .ok (final, passes)) :
    k + passes ≤ last + 1 := by
  fun_induction saturate pass capacity m generalizing k passes with
  | case1 m fault hfault => cases h
  | case2 m grown hgrown _ fault hrest ih => cases h
  | case3 m grown hgrown hlarger final' passes' hrest ih =>
      cases h
      -- a map that has grown was not at the last stage yet
      have hne : k ≠ last := by
        rintro rfl
        exact absurd (hlast m grown hm hgrown) (by omega)
      have hlater := ih (by omega) (hpass k m grown hm hgrown) hrest
      omega
  | case4 m grown hgrown hstop =>
      cases h
      omega

end SetMap
end Lookahead
