import Lookahead.SymbolTable

/-!
# Registry — a table under construction, and its snapshots

A registry keeps names, classes and the index from names to ids side by side, and each call changes
them one after the other. A call that fails leaves what it has done so far. A snapshot copies the
three and sorts the ids by class; the registry goes on without it.

- `Registry.insert`, `Registry.lookup`: the calls on a registry.
- `Registry.freeze`: a snapshot of it, with the views `Snapshot.idOf`, `nameOf`, `classOf` and
  `idsOfClass`.
- `Session`: a registry and the snapshots taken of it so far.
- `Session.after`: what a sequence of insertions and snapshots leads to.
-/

namespace Lookahead

/-! ## Snapshots -/

/-- A frozen table. The columns `names` and `classes` are in id order; the index and the ids by
class are kept beside them. -/
structure Snapshot where
  names : List String
  classes : List SymbolClass
  index : List (String × Nat)
  idsOfClass : SymbolClass → List SymbolId

namespace Snapshot

def size (f : Snapshot) : Nat :=
  f.names.length

def idOf (f : Snapshot) (name : String) : Except Fault SymbolId :=
  match f.index.lookup name with
  | some n => .ok n
  | none => .error (.unknownName name)

/-- What `column` holds at `id`. An `id` out of range, a negative one too, is an `unknownId`. -/
def entryAt {α : Type} (f : Snapshot) (column : List α) (id : SymbolId) : Except Fault α :=
  if 0 ≤ id ∧ id < f.size then
    match column[id.toNat]? with
    | some entry => .ok entry
    | none => .error (.unknownId id)
  else .error (.unknownId id)

def nameOf (f : Snapshot) (id : SymbolId) : Except Fault String :=
  f.entryAt f.names id

def classOf (f : Snapshot) (id : SymbolId) : Except Fault SymbolClass :=
  f.entryAt f.classes id

def isTerminal (f : Snapshot) (id : SymbolId) : Bool :=
  decide (id ∈ f.idsOfClass .terminal)

def isNonTerminal (f : Snapshot) (id : SymbolId) : Bool :=
  decide (id ∈ f.idsOfClass .nonTerminal)

def contains (f : Snapshot) (name : String) : Bool :=
  (f.index.lookup name).isSome

/-- The names of both classes, in id order. -/
def summary (f : Snapshot) : Except Fault String := do
  let terminals ← (inIdOrder (f.idsOfClass .terminal)).mapM f.nameOf
  let nonTerminals ← (inIdOrder (f.idsOfClass .nonTerminal)).mapM f.nameOf
  return "SymbolTable(terms=" ++ Text.quotedList terminals ++ ", nonterms=" ++
    Text.quotedList nonTerminals ++ ")"

end Snapshot

/-! ## Calls -/

/-- A growing table in three columns. Of several positions that `index` has for a name, the latest
one counts. -/
structure Registry where
  names : List String := []
  classes : List SymbolClass := []
  index : List (String × Nat) := []
  deriving DecidableEq, Repr

namespace Registry

/-- Why a call fails: the insertion is `refused`, or the columns do not fit together. -/
inductive Failure
  | refused (error : InsertError)
  /-- The index leads to a `position` without a class. -/
  | unclassed (position : Nat)
  deriving DecidableEq, Repr

/-- A call on a registry. One that fails leaves the registry as it is by then. -/
abbrev Call := ExceptT Failure (StateM Registry)

/-- The answer of `r` to `call`, and the registry behind it. -/
def answer {α : Type} (r : Registry) (call : Call α) : Except Failure α × Registry :=
  call.run.run r

section

variable {α β : Type}

@[simp]
theorem answer_pure (r : Registry) (a : α) : r.answer (pure a) = (.ok a, r) :=
  rfl

@[simp]
theorem answer_throw (r : Registry) (e : Failure) :
    r.answer (throw e : Call α) = (.error e, r) :=
  rfl

@[simp]
theorem answer_get (r : Registry) : r.answer get = (.ok r, r) :=
  rfl

@[simp]
theorem answer_modify (r : Registry) (f : Registry → Registry) :
    r.answer (modify f) = (.ok (), f r) :=
  rfl

/-- The second call starts from what the first one leaves. If the first one fails, there is no
second. -/
@[simp]
theorem answer_bind (r : Registry) (call : Call α) (next : α → Call β) :
    r.answer (call >>= next) =
      match r.answer call with
      | (.ok a, r') => r'.answer (next a)
      | (.error e, r') => (.error e, r') := by
  cases h : r.answer call with
  | mk result r' =>
    have hcall : call r = (result, r') := h
    simp only [answer, bind, ExceptT.bind, ExceptT.run, ExceptT.mk, StateT.bind, StateT.run, hcall]
    cases result with
    | ok a => rfl
    | error e => rfl

end

def classAt (position : Nat) : Call SymbolClass := do
  match (← get).classes[position]? with
  | some cls => return cls
  | none => throw (.unclassed position)

def lookup (name : String) : Call (Option (SymbolId × SymbolClass)) := do
  match (← get).index.lookup name with
  | some n => return some (n, ← classAt n)
  | none => return none

/-- The id of `name`: a known name keeps its id if `cls` is its class, and a new name gets the next
id. -/
def insert (name : String) (cls : SymbolClass) : Call SymbolId := do
  if cls = .empty then throw (.refused .notDeclarable)
  match (← get).index.lookup name with
  | some n =>
      let existing ← classAt n
      if existing ≠ cls then throw (.refused (.duplicate name existing cls))
      return n
  | none =>
      let n := (← get).names.length
      modify fun r => { r with names := r.names ++ [name] }
      modify fun r => { r with classes := r.classes ++ [cls] }
      modify fun r => { r with index := (name, n) :: r.index }
      return n

/-- The ids by class with the id of `entry` added to those of its class. -/
def sortIn (sets : SymbolClass → List SymbolId) (entry : SymbolClass × Nat) :
    SymbolClass → List SymbolId :=
  fun c => if c = entry.1 then addId (sets c) entry.2 else sets c

def freeze (r : Registry) : Snapshot where
  names := r.names
  classes := r.classes
  index := r.index
  idsOfClass := r.classes.zipIdx.foldl sortIn fun _ => []

end Registry

/-! ## Sessions -/

structure Session where
  registry : Registry := {}
  taken : List Snapshot := []

namespace Session

inductive Use
  | insert (name : String) (cls : SymbolClass)
  | freeze
  deriving DecidableEq, Repr

def insert (s : Session) (name : String) (cls : SymbolClass) :
    Except Registry.Failure SymbolId × Session :=
  let (answer, registry) := s.registry.answer (Registry.insert name cls)
  (answer, { s with registry := registry })

/-- The session with a snapshot of its registry behind the earlier snapshots. -/
def freeze (s : Session) : Session :=
  { s with taken := s.taken ++ [s.registry.freeze] }

def use (s : Session) : Use → Session
  | .insert name cls => (s.insert name cls).2
  | .freeze => s.freeze

def run (s : Session) (uses : List Use) : Session :=
  uses.foldl use s

/-- The session that `uses` lead to, from an empty registry on. -/
def after (uses : List Use) : Session :=
  run {} uses

end Session

end Lookahead
