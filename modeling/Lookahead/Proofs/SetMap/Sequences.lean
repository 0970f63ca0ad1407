import Lookahead.Proofs.SetMap.FirstOf

/-!
# Sequences — the scan of two sequences in a row

A scan of two sequences in a row is a scan of the first one, and of the second one too if the first
one can vanish. Nothing is assumed of the map: its rows hold symbols and both markers as they like.

- `begins_empty_iff`: a sequence can vanish exactly if each of its elements can.
- `SetMap.firstOf_append_eq_error_iff`: where a scan of two sequences fails.
- `SetMap.firstOf_append_of_stop`, `mem_firstOf_append`: what it finds.
- `SetMap.firstOf_mono`: what a scan on larger rows finds.
- `SetMap.firstOf_composes`: all of this together.
-/

namespace Lookahead

variable {R : SymbolId → Entry → Prop} {u v : List Entry}

/-- `u` can vanish exactly if each of its elements can: it is the marker, or a symbol with
`R id .empty`. -/
theorem begins_empty_iff :
    Begins R u .empty ↔ ∀ x ∈ u, x = .empty ∨ ∃ id, x = .symbol id ∧ R id .empty := by
  induction u with
  | nil => simp
  | cons x u ih =>
      rw [List.forall_mem_cons, ← ih]
      cases x with
      | empty => simp
      | endOfInput => simp
      | symbol id => simp [begins_symbol]

namespace SetMap

variable {m m' : SetMap} {s t row : EntrySet} {id : SymbolId} {e : Entry} {fault : Fault}

/-! ## Failures -/

/-- If `id` has a row, `firstOf (.symbol id :: u)` fails exactly if `id` can vanish and `firstOf u`
fails. -/
theorem firstOf_symbol_eq_error_iff (hrow : m.get? id = some row) :
    m.firstOf (.symbol id :: u) = .error fault ↔
      m.Holds id .empty ∧ m.firstOf u = .error fault := by
  rw [firstOf_symbol hrow, holds_iff_of_get? hrow]
  by_cases hempty : .empty ∈ row
  · cases hrest : m.firstOf u with
    | error fault' => simp [hempty, Except.map]
    | ok later => simp [hempty, Except.map]
  · simp [hempty]

/-- `firstOf (u ++ v)` fails exactly if `firstOf u` does, or `u` can vanish and `firstOf v`
fails. -/
theorem firstOf_append_eq_error_iff :
    m.firstOf (u ++ v) = .error fault ↔
      m.firstOf u = .error fault ∨
        (Begins m.Holds u .empty ∧ m.firstOf v = .error fault) := by
  induction u with
  | nil => simp [firstOf]
  | cons x u ih =>
      cases x with
      | empty => simpa using ih
      | endOfInput => simp [firstOf, ofElement?]
      | symbol id =>
          cases hrow : m.get? id with
          | none => simp [firstOf, ofElement?, hrow, begins_symbol, Holds]
          | some row =>
              -- both scans go on behind `id` only if it can vanish
              simp only [List.cons_append, firstOf_symbol_eq_error_iff hrow, ih, begins_symbol]
              constructor
              · rintro ⟨hempty, hfirst | ⟨hvanish, hsecond⟩⟩
                · exact Or.inl ⟨hempty, hfirst⟩
                · exact Or.inr ⟨Or.inr ⟨hempty, hvanish⟩, hsecond⟩
              · rintro (⟨hempty, hfirst⟩ | ⟨⟨_, hne⟩ | ⟨hempty, hvanish⟩, hsecond⟩)
                · exact ⟨hempty, Or.inl hfirst⟩
                · exact absurd rfl hne
                · exact ⟨hempty, Or.inr ⟨hvanish, hsecond⟩⟩

/-! ## Results -/

/-- `.empty` is in `firstOf u` exactly if every element of `u` can vanish. -/
theorem empty_mem_firstOf_iff (h : m.firstOf u = .ok s) :
    .empty ∈ s ↔ ∀ x ∈ u, x = .empty ∨ ∃ id, x = .symbol id ∧ m.Holds id .empty :=
  (mem_firstOf h).trans begins_empty_iff

/-- If `.empty` is not in `firstOf u`, then `firstOf (u ++ v)` is the same, whatever `v` is. -/
theorem firstOf_append_of_stop (h : m.firstOf u = .ok s) (hs : .empty ∉ s) (v : List Entry) :
    m.firstOf (u ++ v) = .ok s := by
  induction u generalizing s with
  | nil =>
      cases h
      exact absurd List.mem_cons_self hs
  | cons x u ih =>
      cases x with
      | empty => simpa using ih (by simpa using h) hs
      | endOfInput => simp [firstOf, ofElement?] at h
      | symbol id =>
          cases hrow : m.get? id with
          | none => simp [firstOf, ofElement?, hrow] at h
          | some row =>
              rw [firstOf_symbol hrow] at h
              rw [List.cons_append, firstOf_symbol hrow]
              by_cases hempty : .empty ∈ row
              · cases hrest : m.firstOf u with
                | error fault => simp [hempty, hrest, Except.map] at h
                | ok later =>
                    have hjoined : row.withoutEmpty.union later = s := by
                      simpa [hempty, hrest, Except.map] using h
                    -- what is joined has no `.empty`, so the scan of the rest stops in `u` as well
                    have hlater : .empty ∉ later := by
                      intro hmem
                      apply hs
                      exact hjoined ▸ EntrySet.mem_union.2 (Or.inr hmem)
                    simp [hempty, ih hrest hlater, Except.map, hjoined]
              · simpa [hempty] using h

/-- If `.empty` is in `s`, the entries of `u ++ v` are those of `s` other than `.empty` and those of
`t`. -/
theorem mem_firstOf_append {w : EntrySet} (hu : m.firstOf u = .ok s) (hs : .empty ∈ s)
    (hv : m.firstOf v = .ok t) (h : m.firstOf (u ++ v) = .ok w) :
    e ∈ w ↔ e ∈ s.withoutEmpty.union t :=
  calc
    e ∈ w ↔ Begins m.Holds (u ++ v) e := mem_firstOf h
    _ ↔ (Begins m.Holds u e ∧ e ≠ .empty) ∨ (Begins m.Holds u .empty ∧ Begins m.Holds v e) :=
          begins_append
    _ ↔ e ∈ s.withoutEmpty.union t := by
          simp [← mem_firstOf hu, ← mem_firstOf hv, hs]

/-- If `m'` holds all that `m` holds, then `firstOf u` by `m'` has all entries that it has by
`m`. -/
theorem firstOf_mono (hgrow : ∀ id e, m.Holds id e → m'.Holds id e) (h : m.firstOf u = .ok s)
    (h' : m'.firstOf u = .ok t) : s ⊆ t := by
  intro e he
  exact (mem_firstOf h').2 (((mem_firstOf h).1 he).mono hgrow)

/-- `firstOf (u ++ v)` fails where `firstOf u` does. If `firstOf u` has no `.empty`, both are the
same; otherwise `firstOf (u ++ v)` joins `firstOf v` to it and fails exactly where `firstOf v` does.
`.empty` is in `firstOf u` exactly if all elements of `u` can vanish, and no entry of it is lost on a
map `m'` with larger rows. -/
theorem firstOf_composes (m : SetMap) (u v : List Entry) :
    (∀ fault, m.firstOf u = .error fault → m.firstOf (u ++ v) = .error fault) ∧
      (∀ s, m.firstOf u = .ok s → .empty ∉ s → m.firstOf (u ++ v) = .ok s) ∧
      (∀ s, m.firstOf u = .ok s → .empty ∈ s →
        (∀ fault, m.firstOf (u ++ v) = .error fault ↔ m.firstOf v = .error fault) ∧
          ∀ t, m.firstOf v = .ok t → ∃ w, m.firstOf (u ++ v) = .ok w ∧
            ∀ e, e ∈ w ↔ (e ∈ s ∧ e ≠ .empty) ∨ e ∈ t) ∧
      (∀ s, m.firstOf u = .ok s →
        (.empty ∈ s ↔ ∀ x ∈ u, x = .empty ∨ ∃ id, x = .symbol id ∧ m.Holds id .empty)) ∧
      ∀ (m' : SetMap) (s s' : EntrySet), (∀ id e, m.Holds id e → m'.Holds id e) →
        m.firstOf u = .ok s → m'.firstOf u = .ok s' → s ⊆ s' := by
  refine ⟨?_, ?_, ?_, ?_, ?_⟩
  · intro fault hu
    exact firstOf_append_eq_error_iff.2 (Or.inl hu)
  · intro s hu hs
    exact firstOf_append_of_stop hu hs v
  · intro s hu hs
    have hvanish : Begins m.Holds u .empty := (mem_firstOf hu).1 hs
    -- `u` can vanish, so only `v` can make the scan fail
    have herror (fault : Fault) :
        m.firstOf (u ++ v) = .error fault ↔ m.firstOf v = .error fault := by
      rw [firstOf_append_eq_error_iff, hu]
      simp [hvanish]
    refine ⟨herror, ?_⟩
    intro t hv
    cases hboth : m.firstOf (u ++ v) with
    | error fault =>
        rw [(herror fault).1 hboth] at hv
        cases hv
    | ok w =>
        refine ⟨w, rfl, ?_⟩
        intro e
        simpa using mem_firstOf_append (e := e) hu hs hv hboth
  · intro s hu
    exact empty_mem_firstOf_iff hu
  · intro m' s s' hgrow hu hu'
    exact firstOf_mono hgrow hu hu'

/-- A map with a row that holds both markers and no symbol. -/
def mixed : SetMap :=
  ⟨[(0, [.symbol 0]), (1, [.endOfInput, .empty])]⟩

theorem composes_mixed :
    mixed.firstOf ([.symbol 7] ++ [.symbol 0]) = .error (.noFirst (.symbol 7)) ∧
      mixed.firstOf ([.symbol 1, .symbol 0] ++ [.symbol 7]) = .ok [.symbol 0, .endOfInput] ∧
      ((∀ fault, mixed.firstOf ([.symbol 1, .empty] ++ [.symbol 0]) = .error fault ↔
          mixed.firstOf [.symbol 0] = .error fault) ∧
        ∃ w, mixed.firstOf ([.symbol 1, .empty] ++ [.symbol 0]) = .ok w ∧
          ∀ e, e ∈ w ↔ (e ∈ [Entry.empty, .endOfInput] ∧ e ≠ .empty) ∨ e ∈ [Entry.symbol 0]) ∧
      (.empty ∈ [Entry.empty, .endOfInput] ↔
        ∀ x ∈ [Entry.symbol 1, .empty], x = .empty ∨ ∃ id, x = .symbol id ∧
          mixed.Holds id .empty) ∧
      (∀ id e, mixed.Holds id e → (mixed.extend 0 [.empty]).Holds id e) ∧
        [Entry.symbol 0, .endOfInput] ⊆ [Entry.empty, .symbol 0, .endOfInput] := by
  have hfails : mixed.firstOf [.symbol 7] = .error (.noFirst (.symbol 7)) := by decide
  have hstops : mixed.firstOf [.symbol 1, .symbol 0] = .ok [.symbol 0, .endOfInput] := by decide
  have hvanishes : mixed.firstOf [.symbol 1, .empty] = .ok [.empty, .endOfInput] := by decide
  have hbehind : mixed.firstOf [.symbol 0] = .ok [.symbol 0] := by decide
  have hlarger : (mixed.extend 0 [.empty]).firstOf [.symbol 1, .symbol 0] =
      .ok [.empty, .symbol 0, .endOfInput] := by
    decide
  have hgrow : ∀ id e, mixed.Holds id e → (mixed.extend 0 [.empty]).Holds id e :=
    fun _ _ h => (grows_extend mixed 0 [.empty]).holds h
  rcases firstOf_composes mixed [.symbol 7] [.symbol 0] with ⟨hfailing, _⟩
  rcases firstOf_composes mixed [.symbol 1, .symbol 0] [.symbol 7] with
    ⟨_, hstopping, _, _, hgrowing⟩
  rcases firstOf_composes mixed [.symbol 1, .empty] [.symbol 0] with ⟨_, _, hjoining, hempty, _⟩
  refine ⟨hfailing _ hfails, hstopping _ hstops (by decide), ?_, hempty _ hvanishes, hgrow, ?_⟩
  · rcases hjoining _ hvanishes (by decide) with ⟨herror, hok⟩
    exact ⟨herror, hok _ hbehind⟩
  · exact hgrowing _ _ _ hgrow hstops hlarger

end SetMap
end Lookahead
