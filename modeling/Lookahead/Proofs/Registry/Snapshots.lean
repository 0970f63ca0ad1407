import Lookahead.Proofs.Registry.Refinement
import Mathlib.Data.List.Induction

/-!
# Snapshots — what a snapshot shows of a registry

A snapshot has the columns of the registry, and its ids are sorted by class in one pass over them.
All its views are those of the table that the registry keeps, so that names and ids lead to each
other.

- `Registry.foldl_sortIn`: the pass over the classes.
- `Snapshot.Agrees`: every view is that of a table.
- `Registry.Keeps.freeze`: a snapshot agrees with the table of its registry.
- `Snapshot.Numbered`: ids and names lead to each other, and the ids are sorted by class.
- `Snapshot.Agrees.numbered`: so it is with every snapshot that agrees with a table.
-/

namespace Lookahead

/-! ## Tables -/

namespace SymbolTable

variable {t : SymbolTable} {name : String} {cls : SymbolClass} {id : SymbolId}

theorem hasClass_ofNat (t : SymbolTable) (cls : SymbolClass) (n : Nat) :
    t.hasClass cls (Int.ofNat n) = (t.classes[n]? == some cls) := by
  cases h : t.declarations[n]? with
  | none => simp [hasClass, at?, classes, h]
  | some d => simp [hasClass, at?, classes, h]

theorem exists_at?_of_lt (t : SymbolTable) (hpos : 0 ≤ id) (hlt : id < t.size) :
    ∃ d, t.at? id = some d := by
  lift id to ℕ using hpos
  exact ⟨_, List.getElem?_eq_getElem (Int.ofNat_lt.1 hlt)⟩

theorem at?_eq_none (h : id < 0 ∨ t.size ≤ id) : t.at? id = none := by
  cases hd : t.at? id with
  | none => rfl
  | some d =>
      have hid : 0 ≤ id ∧ id < t.size := lt_size_of_hasClass (hasClass_iff.2 ⟨d.name, hd⟩)
      rcases h with h | h
      · exact absurd hid.1 (Int.not_le.2 h)
      · exact absurd hid.2 (Int.not_lt.2 h)

theorem nameOf_natCast (n : Nat) : t.nameOf n = .ok name ↔ t.names[n]? = some name := by
  have hat : t.at? n = t.declarations[n]? := rfl
  cases hd : t.declarations[n]? with
  | none => simp [nameOf, names, hat, hd]
  | some d => simp [nameOf, names, hat, hd]

theorem classOf_natCast (n : Nat) : t.classOf n = .ok cls ↔ t.classes[n]? = some cls := by
  have hat : t.at? n = t.declarations[n]? := rfl
  cases hd : t.declarations[n]? with
  | none => simp [classOf, classes, hat, hd]
  | some d => simp [classOf, classes, hat, hd]

theorem classOf_eq_ok_iff : t.classOf id = .ok cls ↔ t.hasClass cls id = true := by
  cases hd : t.at? id with
  | none => simp [classOf, hasClass, hd]
  | some d => simp [classOf, hasClass, hd]

theorem idOf_eq_ok_iff : t.idOf name = .ok id ↔ t.nameOf id = .ok name := by
  rw [nameOf_eq_ok_iff, ← idOf?_eq_some_iff]
  cases hid : t.idOf? name with
  | none => simp [idOf, hid]
  | some id' => simp [idOf, hid]

theorem lookup?_eq_some_iff_classOf :
    t.lookup? name = some (id, cls) ↔ t.idOf name = .ok id ∧ t.classOf id = .ok cls := by
  rw [lookup?_eq_some_iff, idOf_eq_ok_iff, nameOf_eq_ok_iff, classOf_eq_ok_iff, hasClass_iff]
  constructor
  · intro h
    exact ⟨⟨cls, h⟩, name, h⟩
  · rintro ⟨⟨cls', h⟩, name', h'⟩
    cases h.symm.trans h'
    exact h

theorem nodup_idsOfClass (t : SymbolTable) (cls : SymbolClass) : (t.idsOfClass cls).Nodup :=
  (List.nodup_range.map fun _ _ => Int.ofNat_inj.1).filter _

theorem not_hasClass_empty (t : SymbolTable) (id : SymbolId) : t.hasClass .empty id ≠ true := by
  intro h
  rcases hasClass_iff.1 h with ⟨name, hid⟩
  exact t.declarable _ (exists_at?_iff.1 ⟨id, hid⟩) rfl

theorem hasClass_terminal_or_nonTerminal_iff :
    (t.hasClass .terminal id = true ∨ t.hasClass .nonTerminal id = true) ↔
      0 ≤ id ∧ id < t.size := by
  constructor
  · rintro (h | h)
    · exact lt_size_of_hasClass h
    · exact lt_size_of_hasClass h
  · rintro ⟨hpos, hlt⟩
    rcases t.exists_at?_of_lt hpos hlt with ⟨⟨name, cls⟩, hd⟩
    have hcls : t.hasClass cls id = true := hasClass_iff.2 ⟨name, hd⟩
    cases cls with
    | terminal => exact Or.inl hcls
    | nonTerminal => exact Or.inr hcls
    | empty => exact absurd hcls (t.not_hasClass_empty id)

end SymbolTable

/-! ## The views of a table -/

namespace Registry

/-- `sortIn` collects the ids of the class `c`: the positions where `classes` has `c`. -/
theorem foldl_sortIn (classes : List SymbolClass) (c : SymbolClass) :
    classes.zipIdx.foldl sortIn (fun _ => []) c =
      ((List.range classes.length).filter fun n => classes[n]? == some c).map Int.ofNat := by
  -- from the end, as the last position is sorted in behind all others
  induction classes using List.reverseRecOn with
  | nil => rfl
  | append_singleton classes last ih =>
      have hold : ∀ n ∈ List.range classes.length,
          ((classes ++ [last])[n]? == some c) = (classes[n]? == some c) := by
        intro n hn
        rw [List.getElem?_append_left (List.mem_range.1 hn)]
      have hnew : (classes.length : SymbolId) ∉
          ((List.range classes.length).filter fun n => classes[n]? == some c).map Int.ofNat := by
        intro hmem
        rcases List.mem_map.1 hmem with ⟨n, hn, heq⟩
        have hlt : n < classes.length := List.mem_range.1 (List.mem_filter.1 hn).1
        exact Nat.ne_of_lt hlt (Int.ofNat_inj.1 heq)
      rw [List.length_append, List.length_singleton, List.range_succ, List.filter_append,
        List.filter_congr hold, List.map_append, ← ih, List.zipIdx_append, List.foldl_append]
      rw [← ih] at hnew
      by_cases hlast : last = c
      · simp [sortIn, addId, hlast, hnew]
      · simp [sortIn, hlast, Ne.symm hlast]

end Registry

/-- Every view of the snapshot `f` gives what `t` gives. -/
structure Snapshot.Agrees (f : Snapshot) (t : SymbolTable) : Prop where
  names_eq : f.names = t.names
  classes_eq : f.classes = t.classes
  idOf_eq : ∀ name, f.idOf name = t.idOf name
  nameOf_eq : ∀ id, f.nameOf id = t.nameOf id
  classOf_eq : ∀ id, f.classOf id = t.classOf id
  idsOfClass_eq : ∀ cls, f.idsOfClass cls = t.idsOfClass cls
  contains_eq : ∀ name, f.contains name = t.contains name
  summary_eq : f.summary = .ok t.summary

namespace Registry.Keeps

variable {r : Registry} {t : SymbolTable}

theorem idOf_freeze (h : r.Keeps t) (name : String) : r.freeze.idOf name = t.idOf name := by
  rw [SymbolTable.idOf, ← h.lookup_eq name]
  cases hn : r.index.lookup name with
  | none => simp [Snapshot.idOf, freeze, hn]
  | some n => simp [Snapshot.idOf, freeze, hn]

theorem contains_freeze (h : r.Keeps t) (name : String) :
    r.freeze.contains name = t.contains name := by
  rw [SymbolTable.contains, ← h.lookup_eq name, Option.isSome_map]
  rfl

/-- `entryAt` on a column of `value`s gives `value d` for the declaration `d` of `id`, or fails with
`unknownId`. -/
theorem entryAt_freeze {α : Type} (h : r.Keeps t) (value : Declaration → α) (id : SymbolId) :
    r.freeze.entryAt (t.declarations.map value) id =
      match t.at? id with
      | some d => .ok (value d)
      | none => .error (.unknownId id) := by
  have hsize : r.freeze.size = t.declarations.length := h.length_names
  rw [Snapshot.entryAt, hsize]
  cases id with
  | negSucc n => simp [SymbolTable.at?]
  | ofNat n =>
      by_cases hn : n < t.declarations.length
      · simp [SymbolTable.at?, hn]
      · simp [SymbolTable.at?, hn]

theorem nameOf_freeze (h : r.Keeps t) (id : SymbolId) : r.freeze.nameOf id = t.nameOf id := by
  rw [Snapshot.nameOf, show r.freeze.names = _ from h.names_eq]
  exact h.entryAt_freeze Declaration.name id

theorem classOf_freeze (h : r.Keeps t) (id : SymbolId) : r.freeze.classOf id = t.classOf id := by
  rw [Snapshot.classOf, show r.freeze.classes = _ from h.classes_eq]
  exact h.entryAt_freeze Declaration.cls id

theorem idsOfClass_freeze (h : r.Keeps t) (cls : SymbolClass) :
    r.freeze.idsOfClass cls = t.idsOfClass cls := by
  have hsize : t.classes.length = t.size := List.length_map ..
  rw [SymbolTable.idsOfClass, List.filter_map, ← hsize]
  have hsorted := foldl_sortIn t.classes cls
  rw [← h.classes_eq] at hsorted ⊢
  refine hsorted.trans (congrArg _ (List.filter_congr fun n _ => ?_))
  rw [Function.comp_apply, SymbolTable.hasClass_ofNat, h.classes_eq]

theorem summary_freeze (h : r.Keeps t) : r.freeze.summary = .ok t.summary := by
  have hnames (cls : SymbolClass) : (inIdOrder (r.freeze.idsOfClass cls)).mapM r.freeze.nameOf =
      .ok ((t.declarations.filter (·.cls == cls)).map Declaration.name) := by
    rw [h.idsOfClass_freeze, SymbolTable.inIdOrder_idsOfClass, funext h.nameOf_freeze,
      SymbolTable.mapM_nameOf_idsOfClass]
  exact bind_eq_ok_iff.2 ⟨_, hnames .terminal, bind_eq_ok_iff.2 ⟨_, hnames .nonTerminal, rfl⟩⟩

theorem freeze (h : r.Keeps t) : r.freeze.Agrees t where
  names_eq := h.names_eq
  classes_eq := h.classes_eq
  idOf_eq := h.idOf_freeze
  nameOf_eq := h.nameOf_freeze
  classOf_eq := h.classOf_freeze
  idsOfClass_eq := h.idsOfClass_freeze
  contains_eq := h.contains_freeze
  summary_eq := h.summary_freeze

end Registry.Keeps

/-! ## Numbers -/

/-- The ids of `f` count from `0` in the order of the names, `nameOf` and `idOf` are inverse to each
other, and `idsOfClass` shares all ids out between the two classes. -/
structure Snapshot.Numbered (f : Snapshot) : Prop where
  nameOf_iff : ∀ (n : Nat) name, f.nameOf n = .ok name ↔ f.names[n]? = some name
  classOf_iff : ∀ (n : Nat) cls, f.classOf n = .ok cls ↔ f.classes[n]? = some cls
  known : ∀ id : SymbolId, 0 ≤ id → id < f.size →
    ∃ name cls, f.nameOf id = .ok name ∧ f.classOf id = .ok cls
  unknown : ∀ id : SymbolId, id < 0 ∨ f.size ≤ id →
    f.nameOf id = .error (.unknownId id) ∧ f.classOf id = .error (.unknownId id)
  idOf_iff : ∀ name id, f.idOf name = .ok id ↔ f.nameOf id = .ok name
  idOf_unknown : ∀ name, name ∉ f.names → f.idOf name = .error (.unknownName name)
  contains_iff : ∀ name, f.contains name = true ↔ name ∈ f.names
  mem_idsOfClass : ∀ cls id, id ∈ f.idsOfClass cls ↔ f.classOf id = .ok cls
  nodup : ∀ cls, (f.idsOfClass cls).Nodup
  empty : f.idsOfClass .empty = []
  partition : ∀ id : SymbolId, (id ∈ f.idsOfClass .terminal ∨ id ∈ f.idsOfClass .nonTerminal) ↔
    0 ≤ id ∧ id < f.size
  disjoint : (f.idsOfClass .terminal).Disjoint (f.idsOfClass .nonTerminal)
  isTerminal_iff : ∀ id, f.isTerminal id = true ↔ id ∈ f.idsOfClass .terminal
  isNonTerminal_iff : ∀ id, f.isNonTerminal id = true ↔ id ∈ f.idsOfClass .nonTerminal

theorem Snapshot.Agrees.numbered {f : Snapshot} {t : SymbolTable} (h : f.Agrees t) :
    f.Numbered := by
  have hsize : f.size = t.size := by
    rw [size, h.names_eq]
    exact List.length_map ..
  have hmem (cls : SymbolClass) (id : SymbolId) :
      id ∈ f.idsOfClass cls ↔ t.hasClass cls id = true := by
    rw [h.idsOfClass_eq, SymbolTable.mem_idsOfClass]
  -- the views are those of `t`, so each field is a fact about the table
  refine {
    nameOf_iff := fun n name => by rw [h.nameOf_eq, h.names_eq, SymbolTable.nameOf_natCast]
    classOf_iff := fun n cls => by rw [h.classOf_eq, h.classes_eq, SymbolTable.classOf_natCast]
    known := ?known
    unknown := ?unknown
    idOf_iff := fun name id => by rw [h.idOf_eq, h.nameOf_eq, SymbolTable.idOf_eq_ok_iff]
    idOf_unknown := ?idOf_unknown
    contains_iff := fun name => by rw [h.contains_eq, h.names_eq, SymbolTable.contains_iff]
    mem_idsOfClass := fun cls id => by
      rw [hmem, h.classOf_eq, SymbolTable.classOf_eq_ok_iff]
    nodup := fun cls => by
      rw [h.idsOfClass_eq]
      exact t.nodup_idsOfClass cls
    empty := ?empty
    partition := fun id => by
      rw [hmem, hmem, hsize, SymbolTable.hasClass_terminal_or_nonTerminal_iff]
    disjoint := ?disjoint
    isTerminal_iff := fun _ => decide_eq_true_iff
    isNonTerminal_iff := fun _ => decide_eq_true_iff }
  case known =>
    intro id hpos hlt
    rcases t.exists_at?_of_lt hpos (hsize ▸ hlt) with ⟨d, hd⟩
    refine ⟨d.name, d.cls, ?_, ?_⟩
    · rw [h.nameOf_eq, SymbolTable.nameOf_eq_ok hd]
    · rw [h.classOf_eq, SymbolTable.classOf, hd]
  case unknown =>
    intro id hid
    have hnone : t.at? id = none := SymbolTable.at?_eq_none (hsize ▸ hid)
    constructor
    · rw [h.nameOf_eq, SymbolTable.nameOf, hnone]
    · rw [h.classOf_eq, SymbolTable.classOf, hnone]
  case idOf_unknown =>
    intro name hname
    rw [h.names_eq] at hname
    rw [h.idOf_eq, SymbolTable.idOf, SymbolTable.idOf?_eq_none_iff.2 hname]
  case empty =>
    refine List.eq_nil_iff_forall_not_mem.2 fun id hid => ?_
    exact t.not_hasClass_empty id ((hmem _ _).1 hid)
  case disjoint =>
    intro id hterminal hnonTerminal
    cases SymbolTable.hasClass_unique ((hmem _ _).1 hterminal) ((hmem _ _).1 hnonTerminal)

end Lookahead
