import Lookahead.Fault

/-!
# SetMap — sets of entries by symbol

- `EntrySet`: a set of entries, kept as a list without regard to order.
- `SetMap`: a row for each of some symbols; a row only grows, and no row is added later.
- `SetMap.get?_extend`: growing a row changes that row and no other.
- `SetMap.firstOf`: the FIRST set of a sequence, by the FIRST sets of its elements.
-/

namespace Lookahead

/-! ## Sets -/

abbrev EntrySet := List Entry

namespace EntrySet

/-- `s` and the entries of `new` that it lacks. -/
def union (s new : EntrySet) : EntrySet :=
  new.foldr List.insert s

def withoutEmpty (s : EntrySet) : EntrySet :=
  s.filter (· != .empty)

@[simp]
theorem mem_union {s new : EntrySet} {x : Entry} : x ∈ s.union new ↔ x ∈ s ∨ x ∈ new := by
  induction new with
  | nil => simp [union]
  | cons y new ih =>
    have : s.union (y :: new) = List.insert y (s.union new) := rfl
    rw [this, List.mem_insert_iff, ih, List.mem_cons]
    constructor
    · rintro (h | h | h)
      · exact Or.inr (Or.inl h)
      · exact Or.inl h
      · exact Or.inr (Or.inr h)
    · rintro (h | h | h)
      · exact Or.inr (Or.inl h)
      · exact Or.inl h
      · exact Or.inr (Or.inr h)

@[simp]
theorem mem_withoutEmpty {s : EntrySet} {x : Entry} :
    x ∈ s.withoutEmpty ↔ x ∈ s ∧ x ≠ .empty := by
  simp [withoutEmpty]

end EntrySet

/-! ## Maps -/

structure SetMap where
  rows : List (SymbolId × EntrySet) := []
  deriving DecidableEq, Repr

namespace SetMap

/-- The row of `id` in `m`. -/
def get? (m : SetMap) (id : SymbolId) : Option EntrySet :=
  m.rows.lookup id

def domain (m : SetMap) : List SymbolId :=
  m.rows.map Prod.fst

/-- The number of entries in all rows of `m`. -/
def size (m : SetMap) : Nat :=
  (m.rows.flatMap fun r => r.2).length

/-- `m` with the entries of `new` added to the row of `id`. -/
def extend (m : SetMap) (id : SymbolId) (new : EntrySet) : SetMap :=
  ⟨m.rows.map fun r => if r.1 = id then (r.1, r.2.union new) else r⟩

/-- The same, for a row that has to be there; without it `id` is a `noSet`. -/
def extend? (m : SetMap) (id : SymbolId) (new : EntrySet) : Except Fault SetMap :=
  match m.get? id with
  | some _ => .ok (m.extend id new)
  | none => .error (.noSet id)

/-- The row of `id`, which has to be there. -/
def row (m : SetMap) (id : SymbolId) : Except Fault EntrySet :=
  match m.get? id with
  | some s => .ok s
  | none => .error (.noSet id)

@[simp]
theorem domain_extend (m : SetMap) (id : SymbolId) (new : EntrySet) :
    (m.extend id new).domain = m.domain := by
  simp only [domain, extend, List.map_map]
  refine List.map_congr_left fun r _ => ?_
  simp only [Function.comp]
  split <;> rfl

theorem get?_extend (m : SetMap) (id : SymbolId) (new : EntrySet) (x : SymbolId) :
    (m.extend id new).get? x =
      if x = id then (m.get? x).map (·.union new) else m.get? x := by
  obtain ⟨rows⟩ := m
  simp only [get?, extend]
  induction rows with
  | nil => simp
  | cons r rows ih =>
    obtain ⟨k, s⟩ := r
    rw [List.map_cons]
    -- the first row can be the extended one, and it can be the one looked up
    by_cases hk : k = id
    · by_cases hx : x = k
      · subst hx
        simp [hk]
      · have hxb : (x == k) = false := by simpa using hx
        simp only [hk, if_true]
        rw [List.lookup_cons, List.lookup_cons, ← hk, hxb]
        simpa [hk] using ih
    · by_cases hx : x = k
      · subst hx
        simp [hk]
      · have hxb : (x == k) = false := by simpa using hx
        simp only [hk, if_false]
        rw [List.lookup_cons, List.lookup_cons, hxb]
        simpa using ih

/-! ## FIRST of a sequence -/

/-- The set that `m` has for an element of a sequence. The markers have none. -/
def ofElement? (m : SetMap) : Entry → Option EntrySet
  | .symbol id => m.get? id
  | _ => none

/-- The FIRST set of a sequence by the sets in `m`: those of its elements from left to right,
without `.empty`, as long as each element before holds `.empty`. If all do, the result holds
`.empty` too. The element `.empty` is passed over. -/
def firstOf (m : SetMap) : List Entry → Except Fault EntrySet
  | [] => .ok [.empty]
  | x :: rest =>
      if x = .empty then m.firstOf rest
      else
        match m.ofElement? x with
        | none => .error (.noFirst x)
        | some s =>
            if .empty ∈ s then (m.firstOf rest).map s.withoutEmpty.union
            else .ok s

end SetMap

end Lookahead
