import Lookahead.Fault

/-!
# SymbolTable — names, ids and classes

A table numbers names in the order in which they are first declared. It only grows, and a table
once taken never changes.

- `SymbolTable`: the declarations in id order; no name occurs twice, none has the class of the empty
  derivation.
- `SymbolTable.insert`: declares a name. A name that is known under the same class keeps its id;
  under another class it is refused.
- `SymbolTable.insert_of_not_mem`, `insert_of_lookup?_eq_some`, `insert_empty`: its three cases.
- `SymbolTable.lookup?`, `nameOf`, `classOf`, `idOf`: the views from name to id and back.
-/

namespace Lookahead

structure Declaration where
  name : String
  cls : SymbolClass
  deriving DecidableEq, Repr

/-- Declarations in the order in which they are made. The id of a declaration is its position, no
name is declared twice, and no class is `.empty`. -/
structure SymbolTable where
  declarations : List Declaration := []
  names_nodup : (declarations.map Declaration.name).Nodup := by simp
  declarable : ∀ d ∈ declarations, d.cls ≠ SymbolClass.empty := by simp

theorem declarable_nil : ∀ d ∈ ([] : List Declaration), d.cls ≠ SymbolClass.empty := by simp

/-- Why a declaration is refused: the class is `.empty`, or the name has another class. -/
inductive InsertError
  | notDeclarable
  | duplicate (name : String) (existing requested : SymbolClass)
  deriving DecidableEq, Repr

def InsertError.message : InsertError → String
  | .notDeclarable => emptyName ++ " is a marker, not a declarable symbol"
  | .duplicate name existing requested =>
      name ++ " is already declared as a " ++ existing.text ++
        ", cannot redeclare it as a " ++ requested.text

namespace SymbolTable

def names (t : SymbolTable) : List String :=
  t.declarations.map Declaration.name

def classes (t : SymbolTable) : List SymbolClass :=
  t.declarations.map Declaration.cls

def size (t : SymbolTable) : Nat :=
  t.declarations.length

/-! ## Views -/

/-- The declaration with the given id, if there is one. -/
def at? (t : SymbolTable) : SymbolId → Option Declaration
  | .ofNat n => t.declarations[n]?
  | .negSucc _ => none

def idOf? (t : SymbolTable) (name : String) : Option SymbolId :=
  (t.names.idxOf? name).map Int.ofNat

/-- The id and the class of `name`, if it is declared. -/
def lookup? (t : SymbolTable) (name : String) : Option (SymbolId × SymbolClass) :=
  (t.idOf? name).bind fun id => (t.at? id).map fun d => (id, d.cls)

def contains (t : SymbolTable) (name : String) : Bool :=
  (t.idOf? name).isSome

def idOf (t : SymbolTable) (name : String) : Except Fault SymbolId :=
  match t.idOf? name with
  | some id => .ok id
  | none => .error (.unknownName name)

def nameOf (t : SymbolTable) (id : SymbolId) : Except Fault String :=
  match t.at? id with
  | some d => .ok d.name
  | none => .error (.unknownId id)

def classOf (t : SymbolTable) (id : SymbolId) : Except Fault SymbolClass :=
  match t.at? id with
  | some d => .ok d.cls
  | none => .error (.unknownId id)

/-- Whether the symbol with this `id` is of class `cls`. An id of nothing is of no class. -/
def hasClass (t : SymbolTable) (cls : SymbolClass) (id : SymbolId) : Bool :=
  (t.at? id).any (·.cls == cls)

/-- The ids of all symbols of class `cls`, in ascending order. -/
def idsOfClass (t : SymbolTable) (cls : SymbolClass) : List SymbolId :=
  ((List.range t.size).map Int.ofNat).filter (t.hasClass cls)

theorem lookup?_eq_none_iff {t : SymbolTable} {name : String} :
    t.lookup? name = none ↔ name ∉ t.names := by
  unfold lookup? idOf?
  cases h : t.names.idxOf? name with
  | none => simpa using List.idxOf?_eq_none_iff.1 h
  | some i =>
    obtain ⟨hi, hname, _⟩ := List.idxOf?_eq_some_iff.1 h
    have hmem : name ∈ t.names := hname ▸ List.getElem_mem hi
    have hd : i < t.declarations.length := by simpa [names] using hi
    simp [at?, List.getElem?_eq_getElem hd, hmem]

/-! ## Growth -/

/-- `t` with `name` declared behind all others. -/
def push (t : SymbolTable) (name : String) (cls : SymbolClass) (hname : name ∉ t.names)
    (hcls : cls ≠ .empty) : SymbolTable where
  declarations := t.declarations ++ [⟨name, cls⟩]
  names_nodup := by
    rw [List.map_append, List.nodup_append]
    refine ⟨t.names_nodup, by simp, ?_⟩
    intro a ha b hb hab
    simp only [List.map_cons, List.map_nil, List.mem_singleton] at hb
    exact hname (hb ▸ hab ▸ ha)
  declarable := by
    intro d hd
    rcases List.mem_append.1 hd with hd | hd
    · exact t.declarable d hd
    · rw [List.mem_singleton.1 hd]
      exact hcls

def insert (t : SymbolTable) (name : String) (cls : SymbolClass) :
    Except InsertError (SymbolId × SymbolTable) :=
  if hcls : cls = .empty then .error .notDeclarable
  else
    match hname : t.lookup? name with
    | none => .ok (t.size, t.push name cls (lookup?_eq_none_iff.1 hname) hcls)
    | some (id, existing) =>
        if existing = cls then .ok (id, t) else .error (.duplicate name existing cls)

@[simp]
theorem names_push {t : SymbolTable} {name : String} {cls : SymbolClass} (hname : name ∉ t.names)
    (hcls : cls ≠ .empty) : (t.push name cls hname hcls).names = t.names ++ [name] := by
  simp [names, push]

@[simp]
theorem size_push {t : SymbolTable} {name : String} {cls : SymbolClass} (hname : name ∉ t.names)
    (hcls : cls ≠ .empty) : (t.push name cls hname hcls).size = t.size + 1 := by
  simp [size, push]

/-- The class `.empty` cannot be declared. -/
theorem insert_empty (t : SymbolTable) (name : String) :
    t.insert name .empty = .error .notDeclarable := by
  simp [insert]

/-- A new name gets the next id, `t.size`. -/
theorem insert_of_not_mem {t : SymbolTable} {name : String} {cls : SymbolClass}
    (hname : name ∉ t.names) (hcls : cls ≠ .empty) :
    t.insert name cls = .ok (t.size, t.push name cls hname hcls) := by
  have hlookup : t.lookup? name = none := lookup?_eq_none_iff.2 hname
  rw [insert, dif_neg hcls]
  split
  · rfl
  · next h =>
    rw [hlookup] at h
    cases h

/-- A known name keeps its id if `cls` is its class, and is refused otherwise. -/
theorem insert_of_lookup?_eq_some {t : SymbolTable} {name : String} {cls existing : SymbolClass}
    {id : SymbolId} (h : t.lookup? name = some (id, existing)) (hcls : cls ≠ .empty) :
    t.insert name cls =
      if existing = cls then .ok (id, t) else .error (.duplicate name existing cls) := by
  rw [insert, dif_neg hcls]
  split
  · next hnone =>
    rw [hnone] at h
    cases h
  · next hsome =>
    rw [hsome] at h
    cases h
    rfl

/-! ## Text -/

/-- The names of `t` by class, in id order. -/
def summary (t : SymbolTable) : String :=
  let ofClass (cls : SymbolClass) : String :=
    Text.quotedList ((t.declarations.filter (·.cls == cls)).map Declaration.name)
  "SymbolTable(terms=" ++ ofClass .terminal ++ ", nonterms=" ++ ofClass .nonTerminal ++ ")"

end SymbolTable

end Lookahead
