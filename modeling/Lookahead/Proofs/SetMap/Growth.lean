import Lookahead.SetMap
import Mathlib.Algebra.Order.BigOperators.Group.List
import Mathlib.Algebra.Order.Group.Nat
import Mathlib.Data.List.Basic
import Mathlib.Data.List.Forall2
import Mathlib.Data.List.Infix
import Mathlib.Data.List.Nodup

/-!
# Growth — maps whose rows only gain entries

Nothing is ever taken out of a row, and no row comes or goes. So a map that is no larger than an
earlier one is that map, and rows that stay within a finite set of entries bound the size.

- `SetMap.Holds`: an entry stands in the row of a symbol.
- `SetMap.extend?_eq_error_iff`, `row_eq_error_iff`: only a missing row stops an extension.
- `SetMap.Grows`: the same rows, each with more entries or as many.
- `SetMap.Grows.eq_of_size_le`: growth without a larger size is none.
- `SetMap.Within`: every row is a set, with its entries from a given list.
- `SetMap.Within.size_le`: the bound on the size.
- `SetMap.Grows.size_eq_of_holds`: growth without a new entry is none.
-/

namespace Lookahead
namespace EntrySet

theorem suffix_union (s new : EntrySet) : s <:+ s.union new := by
  induction new with
  | nil => exact List.suffix_refl s
  | cons x new ih => exact ih.trans (List.suffix_insert x (s.union new))

theorem nodup_union {s : EntrySet} (h : s.Nodup) (new : EntrySet) : (s.union new).Nodup := by
  induction new with
  | nil => exact h
  | cons x new ih => exact List.Nodup.insert ih

end EntrySet

namespace SetMap

variable {m m' m'' : SetMap} {id : SymbolId} {e : Entry}

/-! ## Entries of rows -/

def Holds (m : SetMap) (id : SymbolId) (e : Entry) : Prop :=
  ∃ row, m.get? id = some row ∧ e ∈ row

theorem holds_iff_of_get? {row : EntrySet} (h : m.get? id = some row) :
    m.Holds id e ↔ e ∈ row := by
  simp [Holds, h]

theorem exists_row_iff : (∃ row, m.get? id = some row) ↔ id ∈ m.domain := by
  obtain ⟨rows⟩ := m
  simp only [get?, domain]
  induction rows with
  | nil => simp
  | cons r rows ih =>
      rcases r with ⟨key, row⟩
      by_cases hid : id = key
      · simp [hid]
      · have hne : (id == key) = false := by simpa using hid
        simpa [List.lookup_cons, hne, hid] using ih

theorem Holds.mem_domain (h : m.Holds id e) : id ∈ m.domain := by
  rcases h with ⟨row, hrow, _⟩
  exact exists_row_iff.1 ⟨row, hrow⟩

theorem holds_extend {key : SymbolId} {new : EntrySet} :
    (m.extend key new).Holds id e ↔
      m.Holds id e ∨ (id = key ∧ id ∈ m.domain ∧ e ∈ new) := by
  simp only [Holds, get?_extend]
  by_cases hid : id = key
  · subst hid
    cases hrow : m.get? id with
    | none =>
        have hdom : id ∉ m.domain := by
          intro h
          rcases exists_row_iff.2 h with ⟨row, hrow'⟩
          simp [hrow] at hrow'
        simp [hdom]
    | some row =>
        have hdom : id ∈ m.domain := exists_row_iff.1 ⟨row, hrow⟩
        simp [hdom]
  · simp [hid]

theorem extend?_eq_ok_iff {new : EntrySet} :
    m.extend? id new = .ok m' ↔ id ∈ m.domain ∧ m' = m.extend id new := by
  rw [← exists_row_iff]
  cases hrow : m.get? id with
  | none => simp [extend?, hrow]
  | some row => simp [extend?, hrow, eq_comm]

theorem extend?_eq_error_iff {new : EntrySet} {fault : Fault} :
    m.extend? id new = .error fault ↔ id ∉ m.domain ∧ fault = .noSet id := by
  rw [← exists_row_iff]
  cases hrow : m.get? id with
  | none => simp [extend?, hrow, eq_comm]
  | some row => simp [extend?, hrow]

theorem row_eq_error_iff {fault : Fault} :
    m.row id = .error fault ↔ id ∉ m.domain ∧ fault = .noSet id := by
  rw [← exists_row_iff]
  cases hrow : m.get? id with
  | none => simp [row, hrow, eq_comm]
  | some entries => simp [row, hrow]

/-- A map made of the rows `(k, f k)` for `ids` holds what `f` has for these. -/
theorem holds_graph {ids : List SymbolId} {f : SymbolId → EntrySet} :
    (SetMap.mk (ids.map fun k => (k, f k))).Holds id e ↔ id ∈ ids ∧ e ∈ f id := by
  -- repeats of a symbol do no harm, since all its rows are the same
  by_cases hid : id ∈ ids
  · have hrow : (SetMap.mk (ids.map fun k => (k, f k))).get? id = some (f id) :=
      List.lookup_graph f hid
    simp [holds_iff_of_get? hrow, hid]
  · have hdom : id ∉ (SetMap.mk (ids.map fun k => (k, f k))).domain := by
      simpa [domain] using hid
    simp only [hid, false_and, iff_false]
    exact fun h => hdom h.mem_domain

/-- If both `rows` and `rows'` have `id`, then `rows` counts. -/
theorem holds_append {rows rows' : List (SymbolId × EntrySet)} :
    (SetMap.mk (rows ++ rows')).Holds id e ↔
      (SetMap.mk rows).Holds id e ∨
        (id ∉ (SetMap.mk rows).domain ∧ (SetMap.mk rows').Holds id e) := by
  have hdom : (∃ row, (SetMap.mk rows).get? id = some row) ↔ id ∈ (SetMap.mk rows).domain :=
    exists_row_iff
  simp only [Holds, get?, List.lookup_append] at hdom ⊢
  cases hrow : rows.lookup id with
  | none => simp [← hdom, hrow]
  | some row => simp [← hdom, hrow]

/-! ## Growth -/

theorem size_cons (r : SymbolId × EntrySet) (rows : List (SymbolId × EntrySet)) :
    (SetMap.mk (r :: rows)).size = r.2.length + (SetMap.mk rows).size := by
  simp [size]

/-- `m'` has the ids of `m` in the same order, and each row of `m` is an end of that of `m'`: new
entries come in front. -/
def Grows (m m' : SetMap) : Prop :=
  List.Forall₂ (fun r r' => r.1 = r'.1 ∧ r.2 <:+ r'.2) m.rows m'.rows

namespace Grows

theorem refl (m : SetMap) : m.Grows m :=
  List.forall₂_same.2 fun r _ => ⟨rfl, List.suffix_refl r.2⟩

theorem trans (h : m.Grows m') (h' : m'.Grows m'') : m.Grows m'' := by
  obtain ⟨rows⟩ := m
  obtain ⟨rows'⟩ := m'
  obtain ⟨rows''⟩ := m''
  simp only [Grows] at h h' ⊢
  induction h generalizing rows'' with
  | nil => exact h'
  | cons hr _ ih =>
      cases h' with
      | cons hr' htail =>
          exact .cons ⟨hr.1.trans hr'.1, hr.2.trans hr'.2⟩ (ih _ htail)

theorem domain_eq (h : m.Grows m') : m'.domain = m.domain := by
  obtain ⟨rows⟩ := m
  obtain ⟨rows'⟩ := m'
  simp only [Grows, domain] at h ⊢
  induction h with
  | nil => rfl
  | cons hr _ ih => simp [hr.1, ih]

theorem length_rows (h : m.Grows m') : m'.rows.length = m.rows.length :=
  (List.Forall₂.length_eq h).symm

theorem holds (h : m.Grows m') (he : m.Holds id e) : m'.Holds id e := by
  obtain ⟨rows⟩ := m
  obtain ⟨rows'⟩ := m'
  simp only [Grows] at h
  simp only [Holds, get?] at he ⊢
  induction h with
  | nil => exact he
  | @cons r r' _ _ hr _ ih =>
      rcases r with ⟨key, row⟩
      rcases r' with ⟨key', row'⟩
      rcases hr with ⟨rfl, hrow⟩
      by_cases hid : id = key
      · have hmem : e ∈ row := by simpa [hid] using he
        exact ⟨row', by simp [hid], hrow.subset hmem⟩
      · have hne : (id == key) = false := by simpa using hid
        simp only [List.lookup_cons, hne] at he ⊢
        exact ih he

theorem size_le (h : m.Grows m') : m.size ≤ m'.size := by
  obtain ⟨rows⟩ := m
  obtain ⟨rows'⟩ := m'
  simp only [Grows] at h
  induction h with
  | nil => exact Nat.le_refl _
  | cons hr _ ih =>
      have hlen := hr.2.length_le
      simp only [size_cons]
      omega

/-- If `m` grows to `m'` and the size does not, then `m' = m`. -/
theorem eq_of_size_le (h : m.Grows m') (hsize : m'.size ≤ m.size) : m' = m := by
  obtain ⟨rows⟩ := m
  obtain ⟨rows'⟩ := m'
  simp only [Grows] at h
  induction h with
  | nil => rfl
  | @cons r r' rows rows' hr htail ih =>
      have hlen := hr.2.length_le
      have hrest : (SetMap.mk rows).size ≤ (SetMap.mk rows').size := Grows.size_le htail
      simp only [size_cons] at hsize
      -- the tail has not shrunk, so neither the row nor the tail has grown
      have hrow : r.2 = r'.2 := hr.2.eq_of_length_le (by omega)
      have hrows : rows' = rows := SetMap.mk.inj (ih (by omega))
      have hr' : r' = r := Prod.ext hr.1.symm hrow.symm
      rw [hr', hrows]

theorem antisymm (h : m.Grows m') (h' : m'.Grows m) : m' = m :=
  h.eq_of_size_le h'.size_le

end Grows

theorem grows_extend (m : SetMap) (key : SymbolId) (new : EntrySet) :
    m.Grows (m.extend key new) := by
  refine List.forall₂_map_right_iff.2 (List.forall₂_same.2 fun r _ => ?_)
  split
  · exact ⟨rfl, r.2.suffix_union new⟩
  · exact ⟨rfl, List.suffix_refl r.2⟩

/-! ## Bounds -/

def Within (m : SetMap) (entries : List Entry) : Prop :=
  ∀ r ∈ m.rows, r.2.Nodup ∧ r.2 ⊆ entries

namespace Within

variable {entries : List Entry}

theorem extend (h : m.Within entries) {key : SymbolId} {new : EntrySet} (hnew : new ⊆ entries) :
    (m.extend key new).Within entries := by
  intro r hr
  rcases List.mem_map.1 hr with ⟨r₀, hr₀, rfl⟩
  have hbound := h r₀ hr₀
  split
  · refine ⟨EntrySet.nodup_union hbound.1 new, ?_⟩
    intro x hx
    rcases EntrySet.mem_union.1 hx with hx | hx
    · exact hbound.2 hx
    · exact hnew hx
  · exact hbound

theorem of_get? (h : m.Within entries) {row : EntrySet} (hrow : m.get? id = some row) :
    row.Nodup ∧ row ⊆ entries := by
  rcases List.lookup_eq_some_iff.1 hrow with ⟨before, after, hrows, _⟩
  exact h (id, row) (by simp [hrows])

theorem mem_of_holds (h : m.Within entries) (he : m.Holds id e) : e ∈ entries := by
  rcases he with ⟨row, hrow, hmem⟩
  exact (h.of_get? hrow).2 hmem

/-- If all entries of `m` are among `entries` and no row has repeats, then `m.size` is at most the
number of rows times `entries.length`. -/
theorem size_le (h : m.Within entries) : m.size ≤ m.rows.length * entries.length := by
  have hrows : ∀ n ∈ m.rows.map (fun r => r.2.length), n ≤ entries.length := by
    intro n hn
    rcases List.mem_map.1 hn with ⟨r, hr, rfl⟩
    exact (List.subperm_of_subset (h r hr).1 (h r hr).2).length_le
  -- a row has no repeats, so it is no longer than the list of its possible entries
  have hsum := List.sum_le_card_nsmul _ _ hrows
  simpa [size, List.length_flatMap] using hsum

end Within

/-- If `m'` holds only what `m` holds, then growth has not changed the size. -/
theorem Grows.size_eq_of_holds {entries : List Entry} (h : m.Grows m') (hkeys : m.domain.Nodup)
    (hwithin : m'.Within entries) (hholds : ∀ id e, m'.Holds id e → m.Holds id e) :
    m'.size = m.size := by
  refine Nat.le_antisymm ?_ h.size_le
  obtain ⟨rows⟩ := m
  obtain ⟨rows'⟩ := m'
  simp only [Grows] at h
  induction h with
  | nil => exact Nat.le_refl _
  | @cons r r' rows rows' hr htail ih =>
      rcases r with ⟨key, row⟩
      rcases r' with ⟨key', row'⟩
      rcases hr with ⟨rfl, _⟩
      have hsplit := List.nodup_cons.1 hkeys
      have hrow : row'.Nodup ∧ row' ⊆ entries := hwithin (key, row') List.mem_cons_self
      have hsubset : row' ⊆ row := by
        intro e he
        have hmore : (SetMap.mk ((key, row') :: rows')).Holds key e := ⟨row', by simp [get?], he⟩
        rcases hholds key e hmore with ⟨found, hfound, hmem⟩
        have hfront : found = row := by simpa [get?] using hfound.symm
        exact hfront ▸ hmem
      have hlength := (List.subperm_of_subset hrow.1 hsubset).length_le
      -- a symbol of a later row is not that of the front row, so its entries are found behind it
      have hlater : (SetMap.mk rows').size ≤ (SetMap.mk rows).size := by
        refine ih hsplit.2 (fun r hr => hwithin r (List.mem_cons_of_mem _ hr)) ?_
        intro id e he
        have hdomain : (SetMap.mk rows').domain = (SetMap.mk rows).domain := Grows.domain_eq htail
        have hne : (id == key) = false := by
          rw [beq_eq_false_iff_ne]
          rintro rfl
          have hlisted := he.mem_domain
          rw [hdomain] at hlisted
          exact hsplit.1 hlisted
        have hbehind : (SetMap.mk ((key, row') :: rows')).Holds id e := by
          simpa [Holds, get?, List.lookup_cons, hne] using he
        simpa [Holds, get?, List.lookup_cons, hne] using hholds id e hbehind
      simp only [size_cons]
      omega

end SetMap
end Lookahead
