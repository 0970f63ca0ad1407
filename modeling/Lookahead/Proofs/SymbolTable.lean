import Lookahead.Proofs.Chains
import Lookahead.SymbolTable
import Mathlib.Data.List.Nodup

/-!
# SymbolTable — names, ids and classes as one relation

All views of a table are read off the declarations by id, and an insertion is known by what it adds
to them.

- `SymbolTable.lookup?_eq_some_iff`, `idOf?_eq_some_iff`, `nameOf_eq_ok_iff`, `hasClass_iff`: the
  views.
- `SymbolTable.insert_total`: a name that has no other class is inserted, and nothing else changes.
- `SymbolTable.insert_conflict`: a name that has another class is refused.
-/

namespace Lookahead
namespace SymbolTable

variable {t t' : SymbolTable} {name : String} {cls : SymbolClass} {id : SymbolId}
variable {d : Declaration}

/-! ## Views -/

theorem at?_ofNat (t : SymbolTable) (n : Nat) : t.at? (Int.ofNat n) = t.declarations[n]? :=
  rfl

@[simp]
theorem at?_empty (id : SymbolId) : ({} : SymbolTable).at? id = none := by
  cases id with
  | ofNat n => rfl
  | negSucc n => rfl

theorem exists_ofNat_of_at? (h : t.at? id = some d) :
    ∃ n, id = Int.ofNat n ∧ t.declarations[n]? = some d := by
  cases id with
  | ofNat n => exact ⟨n, rfl, h⟩
  | negSucc n => cases h

theorem exists_at?_iff : (∃ id, t.at? id = some d) ↔ d ∈ t.declarations := by
  constructor
  · rintro ⟨id, h⟩
    rcases exists_ofNat_of_at? h with ⟨n, _, hn⟩
    exact List.mem_of_getElem? hn
  · intro h
    rcases List.mem_iff_getElem?.1 h with ⟨n, hn⟩
    exact ⟨Int.ofNat n, hn⟩

theorem mem_names_iff : name ∈ t.names ↔ ∃ cls, ⟨name, cls⟩ ∈ t.declarations := by
  constructor
  · intro h
    rcases List.mem_map.1 h with ⟨⟨_, cls⟩, hd, rfl⟩
    exact ⟨cls, hd⟩
  · rintro ⟨cls, hd⟩
    exact List.mem_map.2 ⟨⟨name, cls⟩, hd, rfl⟩

theorem idOf?_eq_none_iff : t.idOf? name = none ↔ name ∉ t.names := by
  simp [idOf?, List.idxOf?_eq_none_iff]

/-- If `name` stands at `id`, then `idOf?` finds `id`: names do not repeat. -/
theorem idOf?_of_at? (h : t.at? id = some ⟨name, cls⟩) : t.idOf? name = some id := by
  rcases exists_ofNat_of_at? h with ⟨n, rfl, hn⟩
  have hname : t.names[n]? = some name := by simp [names, hn]
  rcases List.getElem?_eq_some_iff.1 hname with ⟨hlt, hget⟩
  have hidx : t.names.idxOf? name = some n := by
    refine List.idxOf?_eq_some_iff.2 ⟨hlt, hget, ?_⟩
    -- names are distinct, so no place before this one has the same
    intro j hj heq
    have hsame : j = n :=
      (List.Nodup.getElem_inj_iff t.names_nodup).1 (heq.trans hget.symm)
    omega
  simp [idOf?, hidx]

theorem at?_unique {cls' : SymbolClass} {id' : SymbolId} (h : t.at? id = some ⟨name, cls⟩)
    (h' : t.at? id' = some ⟨name, cls'⟩) : id = id' :=
  Option.some.inj ((idOf?_of_at? h).symm.trans (idOf?_of_at? h'))

theorem idOf?_eq_some_iff : t.idOf? name = some id ↔ ∃ cls, t.at? id = some ⟨name, cls⟩ := by
  constructor
  · intro h
    have hmem : name ∈ t.names := by
      by_contra hname
      rw [idOf?_eq_none_iff.2 hname] at h
      cases h
    rcases mem_names_iff.1 hmem with ⟨cls, hcls⟩
    rcases exists_at?_iff.2 hcls with ⟨id', hid'⟩
    have hsame : t.idOf? name = some id' := idOf?_of_at? hid'
    have hid : id = id' := Option.some.inj (h.symm.trans hsame)
    exact ⟨cls, hid ▸ hid'⟩
  · rintro ⟨cls, h⟩
    exact idOf?_of_at? h

theorem lookup?_eq_some_iff : t.lookup? name = some (id, cls) ↔ t.at? id = some ⟨name, cls⟩ := by
  constructor
  · intro h
    simp only [lookup?, Option.bind_eq_some_iff, Option.map_eq_some_iff, Prod.mk.injEq] at h
    rcases h with ⟨id', hid', d, hd, rfl, rfl⟩
    rcases idOf?_eq_some_iff.1 hid' with ⟨cls', hcls'⟩
    have hd' : d = ⟨name, cls'⟩ := Option.some.inj (hd.symm.trans hcls')
    rw [hd, hd']
  · intro h
    simp [lookup?, idOf?_of_at? h, h]

theorem contains_iff : t.contains name = true ↔ name ∈ t.names := by
  have hnone : t.idOf? name = none ↔ name ∉ t.names := idOf?_eq_none_iff
  cases h : t.idOf? name with
  | none => simp [contains, h, hnone.1 h]
  | some id =>
      have hmem : name ∈ t.names := by
        by_contra hname
        rw [hnone.2 hname] at h
        cases h
      simp [contains, h, hmem]

theorem nameOf_eq_ok (h : t.at? id = some d) : t.nameOf id = .ok d.name := by
  simp [nameOf, h]

theorem nameOf_eq_ok_iff : t.nameOf id = .ok name ↔ ∃ cls, t.at? id = some ⟨name, cls⟩ := by
  constructor
  · intro h
    cases hd : t.at? id with
    | none => simp [nameOf, hd] at h
    | some d =>
        have hname : d.name = name := by simpa [nameOf, hd] using h
        exact ⟨d.cls, by rw [← hname]⟩
  · rintro ⟨cls, h⟩
    exact nameOf_eq_ok h

theorem exists_nameOf_iff : (∃ id, t.nameOf id = .ok name) ↔ name ∈ t.names := by
  constructor
  · rintro ⟨id, h⟩
    rcases nameOf_eq_ok_iff.1 h with ⟨cls, hid⟩
    exact mem_names_iff.2 ⟨cls, exists_at?_iff.1 ⟨id, hid⟩⟩
  · intro h
    rcases mem_names_iff.1 h with ⟨cls, hcls⟩
    rcases exists_at?_iff.2 hcls with ⟨id, hid⟩
    exact ⟨id, nameOf_eq_ok hid⟩

/-- `t.nameOf` is one-to-one: an id has one name, and a name has one id. -/
theorem biUnique_nameOf (t : SymbolTable) :
    Relator.BiUnique fun id name => t.nameOf id = .ok name := by
  constructor
  · intro id id' name h h'
    rcases nameOf_eq_ok_iff.1 h with ⟨cls, hid⟩
    rcases nameOf_eq_ok_iff.1 h' with ⟨cls', hid'⟩
    exact at?_unique hid hid'
  · intro id name name' h h'
    exact Except.ok.inj (h.symm.trans h')

theorem mapM_nameOf {names : List String} {ids : List SymbolId}
    (h : List.Forall₂ (fun n id => ∃ cls, t.at? id = some ⟨n, cls⟩) names ids) :
    ids.mapM t.nameOf = .ok names := by
  refine mapM_of_forall₂ (h.flip.imp ?_)
  rintro id n ⟨cls, hid⟩
  exact nameOf_eq_ok hid

theorem hasClass_iff : t.hasClass cls id = true ↔ ∃ name, t.at? id = some ⟨name, cls⟩ := by
  constructor
  · intro h
    cases hd : t.at? id with
    | none => simp [hasClass, hd] at h
    | some d =>
        have heq : d.cls = cls := by simpa [hasClass, hd] using h
        exact ⟨d.name, by rw [← heq]⟩
  · rintro ⟨name, h⟩
    simp [hasClass, h]

theorem hasClass_iff_of_nameOf (h : t.nameOf id = .ok name) :
    t.hasClass cls id = true ↔ ⟨name, cls⟩ ∈ t.declarations := by
  rw [hasClass_iff]
  constructor
  · rintro ⟨name', hid⟩
    have hname : name' = name := Except.ok.inj ((nameOf_eq_ok hid).symm.trans h)
    exact hname ▸ exists_at?_iff.1 ⟨id, hid⟩
  · intro hmem
    rcases nameOf_eq_ok_iff.1 h with ⟨cls', hid⟩
    rcases exists_at?_iff.2 hmem with ⟨id', hid'⟩
    exact ⟨name, at?_unique hid' hid ▸ hid'⟩

/-- An id has at most one class. -/
theorem hasClass_unique {cls' : SymbolClass} (h : t.hasClass cls id = true)
    (h' : t.hasClass cls' id = true) : cls = cls' := by
  rcases hasClass_iff.1 h with ⟨name, hname⟩
  rcases hasClass_iff.1 h' with ⟨name', hname'⟩
  have hsame : (⟨name, cls⟩ : Declaration) = ⟨name', cls'⟩ :=
    Option.some.inj (hname.symm.trans hname')
  exact ((Declaration.mk.injEq ..).mp hsame).2

/-! ## Insertions -/

theorem at?_push (hname : name ∉ t.names) (hcls : cls ≠ .empty) :
    (t.push name cls hname hcls).at? id = some d ↔
      t.at? id = some d ∨ (id = t.size ∧ d = ⟨name, cls⟩) := by
  cases id with
  | negSucc n =>
      have hne : Int.negSucc n ≠ t.size := by omega
      simp [at?, hne]
  | ofNat n =>
      have hid : Int.ofNat n = t.size ↔ n = t.declarations.length := Int.ofNat_inj
      simp only [at?_ofNat, push, hid]
      -- an old id, the new one, or an id of nothing in both tables
      rcases Nat.lt_trichotomy n t.declarations.length with hlt | heq | hgt
      · rw [List.getElem?_append_left hlt]
        simp [Nat.ne_of_lt hlt]
      · have hnone : t.declarations[n]? = none := List.getElem?_eq_none (Nat.le_of_eq heq.symm)
        simp [heq, eq_comm]
      · have hnone : t.declarations[n]? = none := List.getElem?_eq_none (Nat.le_of_lt hgt)
        have hnone' : (t.declarations ++ [⟨name, cls⟩])[n]? = none :=
          List.getElem?_eq_none (by simpa [Nat.succ_le_iff] using hgt)
        simp [hnone, hnone', Nat.ne_of_gt hgt]

/-- `t'` has the declaration `d` at `id`, and otherwise what `t` has. -/
def Gains (t t' : SymbolTable) (id : SymbolId) (d : Declaration) : Prop :=
  ∀ x e, t'.at? x = some e ↔ t.at? x = some e ∨ (x = id ∧ e = d)

theorem Gains.hasClass_iff (h : t.Gains t' id d) {x : SymbolId} :
    t'.hasClass cls x = true ↔ t.hasClass cls x = true ∨ (x = id ∧ cls = d.cls) := by
  simp only [SymbolTable.hasClass_iff, h x]
  constructor
  · rintro ⟨name, hold | ⟨hx, hd⟩⟩
    · exact Or.inl ⟨name, hold⟩
    · exact Or.inr ⟨hx, by rw [← hd]⟩
  · rintro (⟨name, hold⟩ | ⟨hx, hcls⟩)
    · exact ⟨name, Or.inl hold⟩
    · exact ⟨d.name, Or.inr ⟨hx, by rw [hcls]⟩⟩

theorem insert_total (hcls : cls ≠ .empty)
    (hother : ∀ existing, ⟨name, existing⟩ ∈ t.declarations → existing = cls) :
    ∃ id t', t.insert name cls = .ok (id, t') ∧ t.Gains t' id ⟨name, cls⟩ ∧
      t'.declarations =
        if ⟨name, cls⟩ ∈ t.declarations then t.declarations
        else t.declarations ++ [⟨name, cls⟩] := by
  by_cases hname : name ∈ t.names
  -- a known name keeps its id, and the table stays as it is
  · rcases mem_names_iff.1 hname with ⟨existing, hexisting⟩
    have hsame : existing = cls := hother existing hexisting
    subst hsame
    rcases exists_at?_iff.2 hexisting with ⟨id, hid⟩
    have hlookup : t.lookup? name = some (id, existing) := lookup?_eq_some_iff.2 hid
    refine ⟨id, t, by simp [insert_of_lookup?_eq_some hlookup hcls], ?_, by simp [hexisting]⟩
    intro x d
    constructor
    · exact Or.inl
    · rintro (h | ⟨rfl, rfl⟩)
      · exact h
      · exact hid
  -- a new name gets the next id
  · have hnew : ⟨name, cls⟩ ∉ t.declarations := fun h => hname (mem_names_iff.2 ⟨cls, h⟩)
    refine ⟨t.size, t.push name cls hname hcls, insert_of_not_mem hname hcls, ?_, ?_⟩
    · exact fun x d => at?_push hname hcls
    · simp [push, hnew]

theorem insert_conflict {existing : SymbolClass} (hcls : cls ≠ .empty) (hne : existing ≠ cls)
    (h : ⟨name, existing⟩ ∈ t.declarations) :
    t.insert name cls = .error (.duplicate name existing cls) := by
  rcases exists_at?_iff.2 h with ⟨id, hid⟩
  have hlookup : t.lookup? name = some (id, existing) := lookup?_eq_some_iff.2 hid
  simp [insert_of_lookup?_eq_some hlookup hcls, hne]

end SymbolTable
end Lookahead
