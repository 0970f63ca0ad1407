import Lookahead.Proofs.Validation.IdOrder
import Lookahead.Registry

/-!
# Refinement — a registry is a table kept in columns

A registry changes its columns one by one, and nothing but the order of its calls keeps them in
step. Each call is shown to do what the same operation does on a table, whose declarations are in
one list.

- `Registry.answer_insert`: an insertion as one step.
- `Registry.Keeps`: the columns and the index are those of a table.
- `Registry.Keeps.answer_lookup`, `Keeps.insert_ok`, `Keeps.insert_error`: calls on the registry
  and on the table agree, failures included.
-/

namespace Lookahead

/-! ## Tables -/

namespace SymbolTable

variable {t : SymbolTable} {name : String} {cls : SymbolClass}

theorem idOf?_push (hname : name ∉ t.names) (hcls : cls ≠ .empty) (n : String) :
    (t.push name cls hname hcls).idOf? n = if name = n then some ↑t.size else t.idOf? n := by
  have hsize : t.names.length = t.size := by simp [names, size]
  by_cases hn : name = n
  · subst hn
    have hold : t.names.idxOf? name = none := List.idxOf?_eq_none_iff.2 hname
    simp only [List.idxOf?] at hold
    simp [idOf?, names_push, List.idxOf?, List.findIdx?_append, hold, hsize]
  · simp [idOf?, names_push, List.idxOf?, List.findIdx?_append, hn]

end SymbolTable

namespace Registry

variable {r : Registry} {t t' : SymbolTable} {name : String} {cls : SymbolClass} {id : SymbolId}

/-! ## Calls -/

theorem answer_classAt (r : Registry) (n : Nat) :
    r.answer (classAt n) =
      match r.classes[n]? with
      | some cls => (.ok cls, r)
      | none => (.error (.unclassed n), r) := by
  cases h : r.classes[n]? with
  | none => simp [classAt, h]
  | some cls => simp [classAt, h]

theorem answer_insert (r : Registry) (name : String) (cls : SymbolClass) :
    r.answer (insert name cls) =
      if cls = .empty then (.error (.refused .notDeclarable), r)
      else
        match r.index.lookup name with
        | none =>
            (.ok r.names.length, ⟨r.names ++ [name], r.classes ++ [cls],
              (name, r.names.length) :: r.index⟩)
        | some n =>
            match r.classes[n]? with
            | none => (.error (.unclassed n), r)
            | some existing =>
                if existing = cls then (.ok n, r)
                else (.error (.refused (.duplicate name existing cls)), r) := by
  -- the lemmas about answers are for calls one after the other, so these stay as they are
  by_cases hcls : cls = .empty
  · simp [insert, hcls, -bind_pure_comp]
  · cases hn : r.index.lookup name with
    | none => simp [insert, hcls, hn, -bind_pure_comp]
    | some n =>
        cases hc : r.classes[n]? with
        | none => simp [insert, hcls, hn, answer_classAt, hc]
        | some existing =>
            by_cases hsame : existing = cls
            · simp [insert, hcls, hn, answer_classAt, hc, hsame]
            · simp [insert, hcls, hn, answer_classAt, hc, hsame]

/-! ## Columns -/

/-- `r` has the columns of `t`, and its index finds the same ids. -/
structure Keeps (r : Registry) (t : SymbolTable) : Prop where
  names_eq : r.names = t.names
  classes_eq : r.classes = t.classes
  lookup_eq : ∀ name, (r.index.lookup name).map Int.ofNat = t.idOf? name

theorem keeps_empty : ({} : Registry).Keeps {} where
  names_eq := rfl
  classes_eq := rfl
  lookup_eq _ := rfl

namespace Keeps

theorem length_names (h : r.Keeps t) : r.names.length = t.size := by
  rw [h.names_eq]
  exact List.length_map ..

theorem lookup_eq_none (h : r.Keeps t) (hname : t.lookup? name = none) :
    r.index.lookup name = none := by
  have hid : t.idOf? name = none :=
    SymbolTable.idOf?_eq_none_iff.2 (SymbolTable.lookup?_eq_none_iff.1 hname)
  have hnone := h.lookup_eq name
  rw [hid] at hnone
  exact Option.map_eq_none_iff.1 hnone

theorem exists_position (h : r.Keeps t) (hname : t.lookup? name = some (id, cls)) :
    ∃ n, id = Int.ofNat n ∧ r.index.lookup name = some n ∧ r.classes[n]? = some cls := by
  have hat : t.at? id = some ⟨name, cls⟩ := SymbolTable.lookup?_eq_some_iff.1 hname
  have hid := h.lookup_eq name
  rw [SymbolTable.idOf?_of_at? hat] at hid
  rcases Option.map_eq_some_iff.1 hid with ⟨n, hn, rfl⟩
  refine ⟨n, rfl, hn, ?_⟩
  rw [h.classes_eq]
  exact List.getElem?_map.trans (congrArg (Option.map Declaration.cls) hat)

theorem answer_lookup (h : r.Keeps t) (name : String) :
    r.answer (lookup name) = (.ok (t.lookup? name), r) := by
  cases hname : t.lookup? name with
  | none => simp [lookup, h.lookup_eq_none hname]
  | some found =>
      rcases found with ⟨id, cls⟩
      rcases h.exists_position hname with ⟨n, rfl, hn, hcls⟩
      simp [lookup, hn, answer_classAt, hcls, -bind_pure_comp]

theorem push (h : r.Keeps t) (hname : name ∉ t.names) (hcls : cls ≠ .empty) :
    Keeps ⟨r.names ++ [name], r.classes ++ [cls], (name, r.names.length) :: r.index⟩
      (t.push name cls hname hcls) where
  names_eq := by rw [h.names_eq, SymbolTable.names_push]
  classes_eq := by simp [h.classes_eq, SymbolTable.classes, SymbolTable.push]
  lookup_eq n := by
    -- the new pair stands first in the index, as its declaration stands last in the table
    rw [SymbolTable.idOf?_push, ← h.lookup_eq n, List.lookup_cons, h.length_names]
    by_cases hn : name = n
    · simp [hn]
    · have hne : (n == name) = false := beq_false_of_ne fun heq => hn heq.symm
      simp [hn, hne]

theorem insert_of_not_mem (h : r.Keeps t) (hname : name ∉ t.names) (hcls : cls ≠ .empty) :
    r.answer (insert name cls) =
      (.ok t.size, ⟨r.names ++ [name], r.classes ++ [cls], (name, r.names.length) :: r.index⟩) := by
  have hnone : r.index.lookup name = none :=
    h.lookup_eq_none (SymbolTable.lookup?_eq_none_iff.2 hname)
  rw [Registry.answer_insert, if_neg hcls, hnone, h.length_names]

/-- An insertion of a known `name` leaves `r` as it is: it gives the `id` if the classes are the
same, and is refused otherwise. -/
theorem insert_of_lookup?_eq_some {existing : SymbolClass} (h : r.Keeps t)
    (hname : t.lookup? name = some (id, existing)) (hcls : cls ≠ .empty) :
    r.answer (insert name cls) =
      if existing = cls then (.ok id, r)
      else (.error (.refused (.duplicate name existing cls)), r) := by
  rcases h.exists_position hname with ⟨n, rfl, hn, hexisting⟩
  rw [Registry.answer_insert, if_neg hcls]
  simp only [hn, hexisting]
  rfl

/-- If `r` keeps `t` and `t.insert` succeeds, then so does the insertion into `r`, with the same
`id`, and `r'` keeps `t'`. If `t` refuses the insertion, then so does `r`, and it stays as it is. -/
theorem answer_insert (h : r.Keeps t) (name : String) (cls : SymbolClass) :
    match t.insert name cls with
    | .ok (id, t') => ∃ r', r.answer (insert name cls) = (.ok id, r') ∧ r'.Keeps t'
    | .error e => r.answer (insert name cls) = (.error (.refused e), r) := by
  by_cases hcls : cls = .empty
  · subst hcls
    simp [SymbolTable.insert_empty, Registry.answer_insert]
  · cases hlookup : t.lookup? name with
    | none =>
        have hname : name ∉ t.names := SymbolTable.lookup?_eq_none_iff.1 hlookup
        rw [SymbolTable.insert_of_not_mem hname hcls, h.insert_of_not_mem hname hcls]
        exact ⟨_, rfl, h.push hname hcls⟩
    | some found =>
        rcases found with ⟨id, existing⟩
        rw [SymbolTable.insert_of_lookup?_eq_some hlookup hcls,
          h.insert_of_lookup?_eq_some hlookup hcls]
        by_cases hsame : existing = cls
        · simp only [if_pos hsame]
          exact ⟨r, rfl, h⟩
        · simp only [if_neg hsame]

theorem insert_ok (h : r.Keeps t) (hins : t.insert name cls = .ok (id, t')) :
    ∃ r', r.answer (insert name cls) = (.ok id, r') ∧ r'.Keeps t' := by
  simpa only [hins] using h.answer_insert name cls

theorem insert_error {e : InsertError} (h : r.Keeps t) (hins : t.insert name cls = .error e) :
    r.answer (insert name cls) = (.error (.refused e), r) := by
  simpa only [hins] using h.answer_insert name cls

end Keeps

end Registry

end Lookahead
