import Lookahead.Proofs.SetMap.Growth

/-!
# FirstOf — what a sequence can begin with

The scan of a sequence is compared with a relation that does not depend on how rows are kept.

- `Begins R seq e`: by a relation `R` between symbols and entries, the sequence can begin with the
  entry; with the empty derivation, it can vanish.
- `Begins.mono_at`: the two entries that such a beginning depends on.
- `begins_append`: a sequence begins as its first part does, or vanishes there and begins as the
  rest does.
- `Scannable`: all elements that a scan comes to are known.
- `SetMap.mem_firstOf`: a scan that succeeds finds exactly the entries of this relation.
- `SetMap.exists_firstOf_iff`: a scan succeeds exactly if all elements that it comes to have rows.
- `SetMap.exists_noFirst_of_firstOf`: a scan fails at an element without a row.
-/

namespace Lookahead

/-! ## Beginnings -/

/-- `Begins R seq e`: by the sets `R`, `seq` can begin with `e`, or vanish if `e` is `.empty`. There
is no rule for `.endOfInput` in a sequence. -/
inductive Begins (R : SymbolId → Entry → Prop) : List Entry → Entry → Prop
  | vanish : Begins R [] .empty
  | marker {rest : List Entry} {e : Entry} : Begins R rest e → Begins R (.empty :: rest) e
  | here {id : SymbolId} {rest : List Entry} {e : Entry} :
      R id e → e ≠ .empty → Begins R (.symbol id :: rest) e
  | skip {id : SymbolId} {rest : List Entry} {e : Entry} :
      R id .empty → Begins R rest e → Begins R (.symbol id :: rest) e

section Begins

variable {R S : SymbolId → Entry → Prop} {u v rest seq : List Entry} {id : SymbolId} {e : Entry}

@[simp]
theorem begins_nil : Begins R [] e ↔ e = .empty := by
  constructor
  · intro h
    cases h
    rfl
  · rintro rfl
    exact .vanish

@[simp]
theorem begins_marker : Begins R (.empty :: rest) e ↔ Begins R rest e := by
  constructor
  · intro h
    cases h with
    | marker h => exact h
  · exact .marker

@[simp]
theorem not_begins_endOfInput : ¬Begins R (.endOfInput :: rest) e := by
  intro h
  cases h

theorem begins_symbol :
    Begins R (.symbol id :: rest) e ↔
      (R id e ∧ e ≠ .empty) ∨ (R id .empty ∧ Begins R rest e) := by
  constructor
  · intro h
    cases h with
    | here hR he => exact Or.inl ⟨hR, he⟩
    | skip hR hrest => exact Or.inr ⟨hR, hrest⟩
  · rintro (⟨hR, he⟩ | ⟨hR, hrest⟩)
    · exact .here hR he
    · exact .skip hR hrest

/-- `Begins R seq e` depends on `R` at `e` and at `.empty` only. -/
theorem Begins.mono_at (h : Begins R seq e) (he : ∀ id, R id e → S id e)
    (hempty : ∀ id, R id .empty → S id .empty) : Begins S seq e := by
  induction h with
  | vanish => exact .vanish
  | marker _ ih => exact .marker (ih he)
  | here hR hne => exact .here (he _ hR) hne
  | skip hR _ ih => exact .skip (hempty _ hR) (ih he)

theorem Begins.mono (h : Begins R seq e) (hRS : ∀ id e, R id e → S id e) : Begins S seq e :=
  h.mono_at (fun id => hRS id e) fun id => hRS id .empty

theorem Begins.eq_empty_or_exists (h : Begins R seq e) : e = .empty ∨ ∃ id, R id e := by
  induction h with
  | vanish => exact Or.inl rfl
  | marker _ ih => exact ih
  | here hR _ => exact Or.inr ⟨_, hR⟩
  | skip _ _ ih => exact ih

theorem begins_append :
    Begins R (u ++ v) e ↔
      (Begins R u e ∧ e ≠ .empty) ∨ (Begins R u .empty ∧ Begins R v e) := by
  induction u with
  | nil => simp
  | cons x u ih =>
      cases x with
      | empty => simpa using ih
      | endOfInput => simp
      | symbol id =>
          simp only [List.cons_append, begins_symbol, ih]
          -- the first symbol begins, or the rest of `u` does, or all of `u` vanishes
          constructor
          · rintro (⟨hR, he⟩ | ⟨hR, ⟨hu, he⟩ | ⟨hu, hv⟩⟩)
            · exact Or.inl ⟨Or.inl ⟨hR, he⟩, he⟩
            · exact Or.inl ⟨Or.inr ⟨hR, hu⟩, he⟩
            · exact Or.inr ⟨Or.inr ⟨hR, hu⟩, hv⟩
          · rintro (⟨⟨hR, _⟩ | ⟨hR, hu⟩, he⟩ | ⟨⟨_, he⟩ | ⟨hR, hu⟩, hv⟩)
            · exact Or.inl ⟨hR, he⟩
            · exact Or.inr ⟨hR, Or.inl ⟨hu, he⟩⟩
            · exact absurd rfl he
            · exact Or.inr ⟨hR, Or.inr ⟨hu, hv⟩⟩

theorem begins_singleton : Begins R [.symbol id] e ↔ R id e := by
  rw [begins_symbol, begins_nil]
  by_cases he : e = .empty
  · simp [he]
  · simp [he]

/-- If `middle'` begins with all that `middle` begins with, so it does between `before` and
`after`. -/
theorem begins_replace {before middle middle' after : List Entry}
    (h : ∀ e, Begins R middle e → Begins R middle' e)
    (he : Begins R (before ++ middle ++ after) e) :
    Begins R (before ++ middle' ++ after) e := by
  simp only [begins_append] at he ⊢
  rcases he with ⟨⟨hbefore, hne⟩ | ⟨hbefore, hmiddle⟩, hne'⟩ |
    ⟨⟨hbefore, hne⟩ | ⟨hbefore, hmiddle⟩, hafter⟩
  · exact Or.inl ⟨Or.inl ⟨hbefore, hne⟩, hne⟩
  · exact Or.inl ⟨Or.inr ⟨hbefore, h _ hmiddle⟩, hne'⟩
  · exact absurd rfl hne
  · exact Or.inr ⟨Or.inr ⟨hbefore, h _ hmiddle⟩, hafter⟩

end Begins

/-! ## Elements that a scan comes to -/

section Scannable

variable {known : SymbolId → Prop} {R S : SymbolId → Entry → Prop} {rest seq : List Entry}

/-- Each element `x` of `seq` is the marker or a `known` symbol, unless something in front of it
cannot vanish by `R`. -/
def Scannable (known : SymbolId → Prop) (R : SymbolId → Entry → Prop) (seq : List Entry) : Prop :=
  ∀ before x after, seq = before ++ x :: after →
    (∀ y ∈ before, y = .empty ∨ ∃ id, y = .symbol id ∧ R id .empty) →
    x = .empty ∨ ∃ id, known id ∧ x = .symbol id

theorem scannable_nil : Scannable known R [] := by
  intro before x after h
  simp at h

theorem scannable_cons {x : Entry} :
    Scannable known R (x :: rest) ↔
      (x = .empty ∨ ∃ id, known id ∧ x = .symbol id) ∧
        ((x = .empty ∨ ∃ id, x = .symbol id ∧ R id .empty) → Scannable known R rest) := by
  constructor
  · intro h
    refine ⟨h [] x rest rfl (by simp), ?_⟩
    rintro hx before y after rfl hbefore
    exact h (x :: before) y after rfl (List.forall_mem_cons.2 ⟨hx, hbefore⟩)
  · rintro ⟨hx, hrest⟩ before y after hseq hbefore
    cases before with
    | nil =>
        cases hseq
        exact hx
    | cons z before =>
        cases hseq
        rcases List.forall_mem_cons.1 hbefore with ⟨hz, hbefore⟩
        exact hrest hz before y after rfl hbefore

/-- If `R` lets fewer symbols vanish than `S`, a sequence that is scannable by `S` is scannable by
`R`. -/
theorem Scannable.anti (h : Scannable known S seq) (hRS : ∀ id, R id .empty → S id .empty) :
    Scannable known R seq := by
  intro before x after hseq hbefore
  refine h before x after hseq fun y hy => ?_
  exact (hbefore y hy).imp_right fun ⟨id, hid, hvanish⟩ => ⟨id, hid, hRS id hvanish⟩

theorem scannable_of_forall_mem (h : ∀ x ∈ seq, x = .empty ∨ ∃ id, known id ∧ x = .symbol id) :
    Scannable known R seq := by
  rintro before x after rfl _
  exact h x (by simp)

end Scannable

/-! ## Scans -/

namespace SetMap

variable {m : SetMap} {seq rest : List Entry} {s row : EntrySet} {id : SymbolId}

@[simp]
theorem firstOf_marker : m.firstOf (.empty :: rest) = m.firstOf rest := by
  simp [firstOf]

/-- `firstOf` goes on behind the symbol `id` only if `.empty` is in its `row`, and then it joins the
rest to the `row` without it. -/
theorem firstOf_symbol (hrow : m.get? id = some row) :
    m.firstOf (.symbol id :: rest) =
      if .empty ∈ row then (m.firstOf rest).map row.withoutEmpty.union else .ok row := by
  simp [firstOf, ofElement?, hrow]

theorem mem_firstOf (h : m.firstOf seq = .ok s) {e : Entry} :
    e ∈ s ↔ Begins m.Holds seq e := by
  induction seq generalizing s with
  | nil =>
      cases h
      simp
  | cons x rest ih =>
      cases x with
      | empty => simpa using ih (by simpa using h)
      | endOfInput => simp [firstOf, ofElement?] at h
      | symbol id =>
          cases hrow : m.get? id with
          | none => simp [firstOf, ofElement?, hrow] at h
          | some row =>
              simp only [firstOf_symbol hrow] at h
              simp only [begins_symbol, holds_iff_of_get? hrow]
              -- the scan goes on behind a symbol exactly if that symbol can vanish
              by_cases hempty : .empty ∈ row
              · cases hlater : m.firstOf rest with
                | error fault => simp [hempty, hlater, Except.map] at h
                | ok later =>
                    have hs : row.withoutEmpty.union later = s := by
                      simpa [hempty, hlater, Except.map] using h
                    simp [← hs, hempty, ih hlater]
              · have hs : row = s := by simpa [hempty] using h
                subst hs
                have hne : e ∈ row → e ≠ .empty := by
                  rintro he rfl
                  exact hempty he
                simpa [hempty] using hne

theorem exists_firstOf_iff :
    (∃ s, m.firstOf seq = .ok s) ↔ Scannable (· ∈ m.domain) m.Holds seq := by
  induction seq with
  | nil => simp [firstOf, scannable_nil]
  | cons x rest ih =>
      rw [scannable_cons, ← ih]
      cases x with
      | empty => simp
      | endOfInput => simp [firstOf, ofElement?]
      | symbol id =>
          cases hrow : m.get? id with
          | none =>
              have hdomain : id ∉ m.domain := by
                rw [← exists_row_iff]
                simp [hrow]
              simp [firstOf, ofElement?, hrow, hdomain]
          | some row =>
              have hdomain : id ∈ m.domain := exists_row_iff.1 ⟨row, hrow⟩
              -- the rest is scanned exactly if the symbol can vanish
              by_cases hempty : .empty ∈ row
              · cases hlater : m.firstOf rest with
                | error fault =>
                    simp [firstOf_symbol hrow, holds_iff_of_get? hrow, hempty, hlater, Except.map]
                | ok later => simp [firstOf_symbol hrow, hdomain, hempty, hlater, Except.map]
              · simp [firstOf_symbol hrow, holds_iff_of_get? hrow, hdomain, hempty]

/-- If `firstOf` fails, it names an element `x` of `seq` that has no set. -/
theorem exists_noFirst_of_firstOf {fault : Fault} (h : m.firstOf seq = .error fault) :
    ∃ x ∈ seq, fault = .noFirst x := by
  induction seq with
  | nil => cases h
  | cons x rest ih =>
      -- a fault in the rest names an element of the rest
      have hlater (hrest : m.firstOf rest = .error fault) :
          ∃ y ∈ x :: rest, fault = .noFirst y := by
        rcases ih hrest with ⟨y, hy, hfault⟩
        exact ⟨y, List.mem_cons_of_mem x hy, hfault⟩
      cases x with
      | empty => exact hlater (by simpa using h)
      | endOfInput =>
          have hfault : Fault.noFirst .endOfInput = fault := by simpa [firstOf, ofElement?] using h
          exact ⟨.endOfInput, List.mem_cons_self, hfault.symm⟩
      | symbol id =>
          cases hrow : m.get? id with
          | none =>
              have hfault : Fault.noFirst (.symbol id) = fault := by
                simpa [firstOf, ofElement?, hrow] using h
              exact ⟨.symbol id, List.mem_cons_self, hfault.symm⟩
          | some row =>
              rw [firstOf_symbol hrow] at h
              by_cases hempty : .empty ∈ row
              · cases hrest : m.firstOf rest with
                | ok later => simp [hempty, hrest, Except.map] at h
                | error fault' =>
                    have hfault : fault' = fault := by simpa [hempty, hrest, Except.map] using h
                    exact hlater (by rw [hrest, hfault])
              · simp [hempty] at h

theorem firstOf_total (h : ∀ x ∈ seq, x = .empty ∨ ∃ id ∈ m.domain, x = .symbol id) :
    ∃ s, m.firstOf seq = .ok s :=
  exists_firstOf_iff.2 (scannable_of_forall_mem h)

end SetMap
end Lookahead
