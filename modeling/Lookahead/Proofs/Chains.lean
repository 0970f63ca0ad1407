import Mathlib.Data.List.Basic

/-!
# Chains — computations that can fail, one after the other

- `bind_eq_ok_iff`, `bind_eq_error_iff`: two computations.
- `foldlM_preserves`, `foldlM_total`: a chain of steps over a state, from what one step keeps.
- `foldlM_eq_error_iff`: the step that a chain fails at.
- `mapM_of_forall₂`, `forall₂_of_mapM`, `mapM_total`, `mapM_map`: a chain of independent
  computations.
-/

namespace Lookahead

/-- `x >>= f` gives `b` exactly if `x` gives some `a` and `f a` gives `b`. -/
theorem bind_eq_ok_iff {ε α β : Type} {x : Except ε α} {f : α → Except ε β} {b : β} :
    (x >>= f) = .ok b ↔ ∃ a, x = .ok a ∧ f a = .ok b := by
  cases x with
  | error e => simp [bind, Except.bind]
  | ok a => simp [bind, Except.bind]

/-- `x >>= f` fails with `e` exactly if `x` does, or `x` gives some `a` and `f a` fails with `e`. -/
theorem bind_eq_error_iff {ε α β : Type} {x : Except ε α} {f : α → Except ε β} {e : ε} :
    (x >>= f) = .error e ↔ x = .error e ∨ ∃ a, x = .ok a ∧ f a = .error e := by
  cases x with
  | error e' => simp [bind, Except.bind]
  | ok a => simp [bind, Except.bind]

variable {ε σ α : Type} {step : σ → α → Except ε σ} {items : List α}
variable {Inv : σ → Prop} {s s' : σ}

theorem foldlM_preserves
    (hstep : ∀ s a s', a ∈ items → Inv s → step s a = .ok s' → Inv s')
    (hs : Inv s) (h : items.foldlM step s = .ok s') : Inv s' := by
  induction items generalizing s with
  | nil =>
      cases h
      exact hs
  | cons a items ih =>
      rw [List.foldlM_cons] at h
      rcases bind_eq_ok_iff.1 h with ⟨next, hfirst, hrest⟩
      have hnext : Inv next := hstep s a next (by simp) hs hfirst
      -- the rest of the chain starts from a state that has the invariant again
      refine ih (fun s b s' hb => hstep s b s' ?_) hnext hrest
      exact List.mem_cons_of_mem a hb

theorem foldlM_total
    (hstep : ∀ s a, a ∈ items → Inv s → ∃ s', step s a = .ok s' ∧ Inv s') (hs : Inv s) :
    ∃ s', items.foldlM step s = .ok s' ∧ Inv s' := by
  induction items generalizing s with
  | nil => exact ⟨s, rfl, hs⟩
  | cons a items ih =>
      rcases hstep s a (by simp) hs with ⟨next, hfirst, hnext⟩
      have hlater : ∀ s b, b ∈ items → Inv s → ∃ s', step s b = .ok s' ∧ Inv s' :=
        fun s b hb => hstep s b (List.mem_cons_of_mem a hb)
      rcases ih hlater hnext with ⟨s', hrest, hs'⟩
      refine ⟨s', ?_, hs'⟩
      rw [List.foldlM_cons]
      exact bind_eq_ok_iff.2 ⟨next, hfirst, hrest⟩

/-- `items.foldlM step s` fails with `e` exactly if `step s' a` does for one of the `items`, where
`s'` is the state that the items `before` it give. -/
theorem foldlM_eq_error_iff {e : ε} :
    items.foldlM step s = .error e ↔
      ∃ before a after s', items = before ++ a :: after ∧ before.foldlM step s = .ok s' ∧
        step s' a = .error e := by
  induction items generalizing s with
  | nil => simp [pure, Except.pure]
  | cons a items ih =>
      simp only [List.foldlM_cons, bind_eq_error_iff, ih]
      constructor
      · rintro (hfirst | ⟨next, hfirst, before, b, after, s', rfl, hbefore, hlater⟩)
        · exact ⟨[], a, items, s, rfl, rfl, hfirst⟩
        · refine ⟨a :: before, b, after, s', rfl, ?_, hlater⟩
          exact bind_eq_ok_iff.2 ⟨next, hfirst, hbefore⟩
      · rintro ⟨before, b, after, s', hitems, hbefore, hstep⟩
        -- the step that fails is the first one or a later one
        cases before with
        | nil =>
            cases hitems
            cases hbefore
            exact Or.inl hstep
        | cons c before =>
            cases hitems
            rcases bind_eq_ok_iff.1 hbefore with ⟨next, hfirst, hrest⟩
            exact Or.inr ⟨next, hfirst, before, b, after, s', rfl, hrest, hstep⟩

theorem mapM_of_forall₂ {β : Type} {f : α → Except ε β} {as : List α} {bs : List β}
    (h : List.Forall₂ (fun a b => f a = .ok b) as bs) : as.mapM f = .ok bs := by
  induction h with
  | nil => rfl
  | cons hfirst _ ih =>
      rw [List.mapM_cons]
      exact bind_eq_ok_iff.2 ⟨_, hfirst, bind_eq_ok_iff.2 ⟨_, ih, rfl⟩⟩

theorem forall₂_of_mapM {β : Type} {f : α → Except ε β} {as : List α} {bs : List β}
    (h : as.mapM f = .ok bs) : List.Forall₂ (fun a b => f a = .ok b) as bs := by
  induction as generalizing bs with
  | nil =>
      cases h
      exact .nil
  | cons a as ih =>
      rw [List.mapM_cons] at h
      rcases bind_eq_ok_iff.1 h with ⟨b, hfirst, h⟩
      rcases bind_eq_ok_iff.1 h with ⟨rest, hrest, h⟩
      cases h
      exact .cons hfirst (ih hrest)

theorem mapM_total {β : Type} {f : α → Except ε β} {as : List α}
    (h : ∀ a ∈ as, ∃ b, f a = .ok b) : ∃ bs, as.mapM f = .ok bs := by
  induction as with
  | nil => exact ⟨[], rfl⟩
  | cons a as ih =>
      rcases h a (by simp) with ⟨b, hfirst⟩
      rcases ih fun c hc => h c (List.mem_cons_of_mem a hc) with ⟨bs, hrest⟩
      refine ⟨b :: bs, ?_⟩
      rw [List.mapM_cons]
      exact bind_eq_ok_iff.2 ⟨b, hfirst, bind_eq_ok_iff.2 ⟨bs, hrest, rfl⟩⟩

/-- Applying `h` to each value of `mapM` is applying it to the whole list with `List.map h`. -/
theorem mapM_map {β γ : Type} (f : α → Except ε β) (h : β → γ) (as : List α) :
    (as.mapM fun a => (f a).map h) = (as.mapM f).map (List.map h) := by
  induction as with
  | nil => rfl
  | cons a as ih =>
      rw [List.mapM_cons, List.mapM_cons, ih]
      cases f a with
      | error e => rfl
      | ok b => cases as.mapM f <;> rfl

end Lookahead
