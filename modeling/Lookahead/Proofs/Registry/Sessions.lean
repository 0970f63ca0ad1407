import Lookahead.Proofs.Registry.Snapshots
import Lookahead.Proofs.Validation.Declarations

/-!
# Sessions — what any sequence of insertions and snapshots leaves behind

Behind a session stands a table that only grows, and behind each snapshot the table as it was by
then.

- `SymbolTable.Grows`: the declarations so far are the first ones later on.
- `Session.Holds`: a session stands for a table, and its snapshots for earlier states of it.
- `Session.Holds.use`, `Session.Holds.run`: one use, and a sequence of them.
- `Session.inserted`: the names of the insertions that succeed, found by running them.
- `Session.Sound`: what a session shows, and the outcomes of one more insertion.
- `Session.Orderly`, `Session.orderly`: every sequence of uses leads to a sound session, with ids in
  the order of first insertion, and with ids and snapshots that last.
-/

namespace Lookahead

/-! ## Growth -/

namespace SymbolTable

variable {t t' t'' : SymbolTable} {name : String} {cls : SymbolClass} {id : SymbolId}

/-- The declarations of `t'` are those of `t` and perhaps more behind them. -/
def Grows (t t' : SymbolTable) : Prop :=
  t.declarations <+: t'.declarations

theorem Grows.refl (t : SymbolTable) : t.Grows t :=
  List.prefix_refl _

theorem Grows.trans (h : t.Grows t') (h' : t'.Grows t'') : t.Grows t'' :=
  List.IsPrefix.trans h h'

theorem Grows.names (h : t.Grows t') : t.names <+: t'.names :=
  h.map _

theorem Grows.classes (h : t.Grows t') : t.classes <+: t'.classes :=
  h.map _

theorem grows_insert (h : t.insert name cls = .ok (id, t')) : t.Grows t' := by
  rcases insert_cases h with ⟨rfl, _⟩ | ⟨_, _, _, rfl⟩
  · exact Grows.refl _
  · exact List.prefix_append _ _

theorem Grows.lookup? (hgrows : t.Grows t') (h : t.lookup? name = some (id, cls)) :
    t'.lookup? name = some (id, cls) := by
  rw [lookup?_eq_some_iff] at h ⊢
  rcases exists_ofNat_of_at? h with ⟨n, rfl, hn⟩
  rcases hgrows with ⟨more, hmore⟩
  have hlt : n < t.declarations.length := (List.getElem?_eq_some_iff.1 hn).1
  rw [at?_ofNat, ← hmore, List.getElem?_append_left hlt]
  exact hn

theorem names_insert (h : t.insert name cls = .ok (id, t')) :
    t'.names = if name ∈ t.names then t.names else t.names ++ [name] := by
  have hcls : cls ≠ .empty := by
    rintro rfl
    rw [insert_empty] at h
    cases h
  cases hlookup : t.lookup? name with
  | none =>
      have hname : name ∉ t.names := lookup?_eq_none_iff.1 hlookup
      rw [insert_of_not_mem hname hcls] at h
      cases h
      rw [names_push, if_neg hname]
  | some found =>
      have hname : name ∈ t.names := by
        by_contra hname
        rw [lookup?_eq_none_iff.2 hname] at hlookup
        cases hlookup
      rcases found with ⟨id', existing⟩
      rw [insert_of_lookup?_eq_some hlookup hcls] at h
      split at h
      · cases h
        rw [if_pos hname]
      · cases h

theorem ne_empty_of_lookup? (h : t.lookup? name = some (id, cls)) : cls ≠ .empty :=
  t.declarable _ (exists_at?_iff.1 ⟨id, lookup?_eq_some_iff.1 h⟩)

theorem insert_fails_iff : (∃ e, t.insert name cls = .error e) ↔
    cls = .empty ∨ ∃ id existing, t.lookup? name = some (id, existing) ∧ existing ≠ cls := by
  by_cases hcls : cls = .empty
  · simp [hcls, insert_empty]
  · cases hlookup : t.lookup? name with
    | none => simp [insert_of_not_mem (lookup?_eq_none_iff.1 hlookup) hcls, hcls]
    | some found =>
        rcases found with ⟨id, existing⟩
        rw [insert_of_lookup?_eq_some hlookup hcls]
        by_cases hsame : existing = cls
        · simp [hcls, hsame]
        · simp [hcls, hsame]

end SymbolTable

/-! ## Uses -/

namespace Session

variable {s : Session} {t t' : SymbolTable}
variable {name : String} {cls : SymbolClass} {id : SymbolId}

/-- The names and classes of each snapshot are the first ones of every later snapshot. -/
def Growing (taken : List Snapshot) : Prop :=
  taken.Pairwise fun f f' => f.names <+: f'.names ∧ f.classes <+: f'.classes

/-- The registry of `s` keeps `t`, and each snapshot in `s.taken` agrees with a table that has grown
into `t`. -/
structure Holds (s : Session) (t : SymbolTable) : Prop where
  registry : s.registry.Keeps t
  taken : ∀ f ∈ s.taken, ∃ t', f.Agrees t' ∧ t'.Grows t
  growing : Growing s.taken

theorem holds_empty : ({} : Session).Holds {} where
  registry := Registry.keeps_empty
  taken := by simp
  growing := .nil

namespace Holds

theorem insert_ok (h : s.Holds t) (hins : t.insert name cls = .ok (id, t')) :
    ∃ r, s.insert name cls = (.ok id, { s with registry := r }) ∧ r.Keeps t' := by
  rcases h.registry.insert_ok hins with ⟨r, hr, hkeeps⟩
  exact ⟨r, by simp only [Session.insert, hr], hkeeps⟩

/-- If `t.insert` refuses `name`, the insertion into `s` fails and leaves `s` as it is. -/
theorem insert_error {e : InsertError} (h : s.Holds t) (hins : t.insert name cls = .error e) :
    s.insert name cls = (.error (.refused e), s) := by
  simp only [Session.insert, h.registry.insert_error hins]

theorem insert (h : s.Holds t) (name : String) (cls : SymbolClass) :
    ∃ t', (s.insert name cls).2.Holds t' ∧ t.Grows t' := by
  cases hins : t.insert name cls with
  | error e =>
      rw [h.insert_error hins]
      exact ⟨t, h, .refl t⟩
  | ok result =>
      rcases result with ⟨id, t'⟩
      rcases h.insert_ok hins with ⟨r, hr, hkeeps⟩
      have hgrows : t.Grows t' := SymbolTable.grows_insert hins
      refine ⟨t', ?_, hgrows⟩
      rw [hr]
      -- the snapshots are what they were; only the table behind the registry has grown
      refine ⟨hkeeps, fun f hf => ?_, h.growing⟩
      rcases h.taken f hf with ⟨before, hagrees, hbefore⟩
      exact ⟨before, hagrees, hbefore.trans hgrows⟩

theorem freeze (h : s.Holds t) : s.freeze.Holds t where
  registry := h.registry
  taken f hf := by
    rcases List.mem_append.1 hf with hf | hf
    · exact h.taken f hf
    · rw [List.mem_singleton.1 hf]
      exact ⟨t, h.registry.freeze, .refl t⟩
  growing := by
    -- earlier snapshots are of earlier tables, and the new one is of the table as it is now
    refine List.pairwise_append.2 ⟨h.growing, List.pairwise_singleton _ _, ?_⟩
    intro f hf last hlast
    rcases h.taken f hf with ⟨before, hagrees, hbefore⟩
    rw [List.mem_singleton.1 hlast, hagrees.names_eq, hagrees.classes_eq,
      h.registry.freeze.names_eq, h.registry.freeze.classes_eq]
    exact ⟨hbefore.names, hbefore.classes⟩

theorem use (h : s.Holds t) (u : Use) : ∃ t', (s.use u).Holds t' ∧ t.Grows t' := by
  cases u with
  | insert name cls => exact h.insert name cls
  | freeze => exact ⟨t, h.freeze, .refl t⟩

theorem run (h : s.Holds t) (uses : List Use) :
    ∃ t', (s.run uses).Holds t' ∧ t.Grows t' := by
  induction uses generalizing s t with
  | nil => exact ⟨t, h, .refl t⟩
  | cons u uses ih =>
      rcases h.use u with ⟨_, hnext, hgrows⟩
      rcases ih hnext with ⟨t', hs', hgrows'⟩
      exact ⟨t', hs', hgrows.trans hgrows'⟩

end Holds

theorem exists_holds (uses : List Use) : ∃ t, (after uses).Holds t := by
  rcases holds_empty.run uses with ⟨t, h, _⟩
  exact ⟨t, h⟩

theorem after_append (uses more : List Use) : after (uses ++ more) = (after uses).run more :=
  List.foldl_append ..

/-! ## Names -/

/-- The names of the insertions among the uses that succeed, in order. -/
def inserted (s : Session) : List Use → List String
  | [] => []
  | .insert name cls :: rest =>
      match s.insert name cls with
      | (.ok _, s') => name :: s'.inserted rest
      | (.error _, s') => s'.inserted rest
  | .freeze :: rest => s.freeze.inserted rest

theorem inserted_append (s : Session) (uses more : List Use) :
    s.inserted (uses ++ more) = s.inserted uses ++ (s.run uses).inserted more := by
  induction uses generalizing s with
  | nil => rfl
  | cons u uses ih =>
      cases u with
      | freeze => exact ih s.freeze
      | insert name cls =>
          have hrun : s.run (.insert name cls :: uses) = (s.insert name cls).2.run uses := rfl
          rw [hrun, List.cons_append, inserted, inserted]
          rcases s.insert name cls with ⟨_ | id, s'⟩
          · exact ih s'
          · exact congrArg (name :: ·) (ih s')

/-- A use `u` adds a name to `s.registry.names` only if it inserts it with success and it is new. -/
theorem Holds.names_use (h : s.Holds t) (u : Use) :
    (s.use u).registry.names =
      s.registry.names ++ (s.inserted [u]).filter (· ∉ s.registry.names) := by
  cases u with
  | freeze => simp [inserted, Session.use, Session.freeze]
  | insert name cls =>
      cases hins : t.insert name cls with
      | error e => simp [inserted, Session.use, h.insert_error hins]
      | ok result =>
          rcases result with ⟨id, t'⟩
          rcases h.insert_ok hins with ⟨r, hr, hkeeps⟩
          have hnames := SymbolTable.names_insert hins
          rw [← hkeeps.names_eq, ← h.registry.names_eq] at hnames
          -- only a name that is not there yet is put at the end
          by_cases hname : name ∈ s.registry.names
          · simp [inserted, Session.use, hr, hnames, hname]
          · simp [inserted, Session.use, hr, hnames, hname]

theorem inserted_singleton (s : Session) (u : Use) :
    s.inserted [u] = [] ∨ ∃ name, s.inserted [u] = [name] := by
  cases u with
  | freeze => exact Or.inl rfl
  | insert name cls =>
      rw [inserted]
      rcases s.insert name cls with ⟨_ | id, s'⟩
      · exact Or.inl rfl
      · exact Or.inr ⟨name, rfl⟩

theorem names_after (uses : List Use) :
    (after uses).registry.names = (inserted {} uses).eraseDups := by
  -- from the end, as an insertion adds its name behind those so far
  induction uses using List.reverseRecOn with
  | nil => rfl
  | append_singleton uses u ih =>
      rcases exists_holds uses with ⟨t, h⟩
      have hrun : after (uses ++ [u]) = (after uses).use u := after_append uses [u]
      rw [hrun, h.names_use, ih, inserted_append]
      change _ = (_ ++ (after uses).inserted [u]).eraseDups
      rcases inserted_singleton (after uses) u with hnone | ⟨name, hone⟩
      · simp [hnone]
      · rw [hone, Validation.eraseDups_concat]
        by_cases hname : name ∈ inserted {} uses
        · simp [hname]
        · simp [hname]

/-! ## Snapshots -/

theorem taken_use (s : Session) (u : Use) : s.taken <+: (s.use u).taken := by
  cases u with
  | insert name cls => exact List.prefix_refl _
  | freeze => exact List.prefix_append _ _

theorem taken_run (s : Session) (uses : List Use) : s.taken <+: (s.run uses).taken := by
  induction uses generalizing s with
  | nil => exact List.prefix_refl _
  | cons u uses ih => exact (taken_use s u).trans (ih (s.use u))

theorem length_taken_run (s : Session) (uses : List Use) :
    (s.run uses).taken.length = s.taken.length + uses.count .freeze := by
  induction uses generalizing s with
  | nil => rfl
  | cons u uses ih =>
      have hrun : s.run (u :: uses) = (s.use u).run uses := rfl
      rw [hrun, ih]
      cases u with
      | insert name cls => simp [Session.use, Session.insert]
      | freeze =>
          simp [Session.use, Session.freeze]
          omega

theorem length_taken (uses : List Use) : (after uses).taken.length = uses.count .freeze := by
  rw [after, length_taken_run]
  exact Nat.zero_add _

/-- The snapshot taken behind `uses` is number `uses.count .freeze` for good, and still has the
content of the registry behind `uses`. -/
theorem taken_kept (uses more : List Use) :
    (after (uses ++ .freeze :: more)).taken[uses.count .freeze]? =
      some (after uses).registry.freeze := by
  have hrun : after (uses ++ .freeze :: more) = (after uses).freeze.run more :=
    after_append uses (.freeze :: more)
  rcases taken_run (after uses).freeze more with ⟨later, hlater⟩
  -- its place is the number of the snapshots before it
  rw [hrun, ← hlater, ← length_taken uses]
  simp [Session.freeze]

/-! ## All of a run -/

/-- `lookup` of `name` in the registry gives `id` and `cls` and leaves it as it is. -/
def Knows (s : Session) (name : String) (id : SymbolId) (cls : SymbolClass) : Prop :=
  s.registry.answer (Registry.lookup name) = (.ok (some (id, cls)), s.registry)

/-- In a session `s`, ids and names are `Numbered`, a lookup gives what a snapshot would, and an
insertion either fails and changes nothing, or finds a known name, or adds one name at the end. -/
structure Sound (s : Session) : Prop where
  numbered : s.registry.freeze.Numbered
  knows_iff : ∀ name id cls, s.Knows name id cls ↔
    s.registry.freeze.idOf name = .ok id ∧ s.registry.freeze.classOf id = .ok cls
  not_knows : ∀ name, name ∉ s.registry.names →
    s.registry.answer (Registry.lookup name) = (.ok none, s.registry)
  insert_known : ∀ name id cls, s.Knows name id cls → s.insert name cls = (.ok id, s)
  insert_new : ∀ name cls, name ∉ s.registry.names → cls ≠ .empty →
    ∃ s', s.insert name cls = (.ok s.registry.names.length, s') ∧
      s'.registry.names = s.registry.names ++ [name] ∧
      s'.registry.classes = s.registry.classes ++ [cls] ∧ s'.taken = s.taken
  insert_empty : ∀ name, s.insert name .empty = (.error (.refused .notDeclarable), s)
  insert_other : ∀ name id existing cls, s.Knows name id existing → existing ≠ cls →
    cls ≠ .empty → s.insert name cls = (.error (.refused (.duplicate name existing cls)), s)
  insert_fails_iff : ∀ name cls, (∃ e, (s.insert name cls).1 = .error e) ↔
    cls = .empty ∨ ∃ id existing, s.Knows name id existing ∧ existing ≠ cls
  insert_failed : ∀ name cls e, (s.insert name cls).1 = .error e → (s.insert name cls).2 = s
  taken_numbered : ∀ f ∈ s.taken, f.Numbered
  growing : Growing s.taken

/-- Any sequence of `uses` leads to a `Sound` session. Its names are those of the insertions that
succeed, and its names, ids, classes and snapshots are still there behind `more` uses. -/
structure Orderly (uses : List Use) : Prop where
  sound : (after uses).Sound
  names_eq : (after uses).registry.names = (inserted {} uses).eraseDups
  knows_later : ∀ name id cls, (after uses).Knows name id cls →
    ∀ more, (after (uses ++ more)).Knows name id cls
  length_taken : (after uses).taken.length = uses.count .freeze
  taken_kept : ∀ more, (after (uses ++ .freeze :: more)).taken[uses.count .freeze]? =
    some (after uses).registry.freeze

theorem Holds.knows_iff (h : s.Holds t) :
    s.Knows name id cls ↔ t.lookup? name = some (id, cls) := by
  simp [Knows, h.registry.answer_lookup]

theorem Holds.insert_fails_iff (h : s.Holds t) :
    (∃ e, (s.insert name cls).1 = .error e) ↔ ∃ e, t.insert name cls = .error e := by
  cases hins : t.insert name cls with
  | error e => simp [h.insert_error hins]
  | ok result =>
      rcases result with ⟨id, t'⟩
      rcases h.insert_ok hins with ⟨r, hr, _⟩
      simp [hr]

theorem Holds.sound (h : s.Holds t) : s.Sound := by
  have hnames : s.registry.names = t.names := h.registry.names_eq
  have hview : s.registry.freeze.Agrees t := h.registry.freeze
  -- each field is what the table `t` does, carried over by `Keeps` and `Agrees`
  refine {
    numbered := hview.numbered
    knows_iff := fun name id cls => by
      rw [h.knows_iff, hview.idOf_eq, hview.classOf_eq, SymbolTable.lookup?_eq_some_iff_classOf]
    not_knows := ?not_knows
    insert_known := ?insert_known
    insert_new := ?insert_new
    insert_empty := fun name => h.insert_error (t.insert_empty name)
    insert_other := ?insert_other
    insert_fails_iff := ?insert_fails_iff
    insert_failed := ?insert_failed
    taken_numbered := ?taken_numbered
    growing := h.growing }
  case not_knows =>
    intro name hname
    rw [h.registry.answer_lookup, SymbolTable.lookup?_eq_none_iff.2 (hnames ▸ hname)]
  case insert_known =>
    intro name id cls hknows
    have hlookup := h.knows_iff.1 hknows
    have hcls : cls ≠ .empty := SymbolTable.ne_empty_of_lookup? hlookup
    simp only [Session.insert, h.registry.insert_of_lookup?_eq_some hlookup hcls, if_pos]
  case insert_new =>
    intro name cls hname hcls
    have hanswer := h.registry.insert_of_not_mem (hnames ▸ hname) hcls
    rw [← h.registry.length_names] at hanswer
    refine ⟨(s.insert name cls).2, ?_, ?_, ?_, rfl⟩
    · simp only [Session.insert, hanswer]
    · simp only [Session.insert, hanswer]
    · simp only [Session.insert, hanswer]
  case insert_other =>
    intro name id existing cls hknows hother hcls
    refine h.insert_error ?_
    rw [SymbolTable.insert_of_lookup?_eq_some (h.knows_iff.1 hknows) hcls, if_neg hother]
  case insert_fails_iff =>
    intro name cls
    rw [h.insert_fails_iff]
    simp only [h.knows_iff, SymbolTable.insert_fails_iff]
  case insert_failed =>
    intro name cls e he
    rcases h.insert_fails_iff.1 ⟨e, he⟩ with ⟨error, herror⟩
    rw [h.insert_error herror]
  case taken_numbered =>
    intro f hf
    rcases h.taken f hf with ⟨before, hagrees, _⟩
    exact hagrees.numbered

theorem orderly (uses : List Use) : Orderly uses := by
  rcases exists_holds uses with ⟨t, h⟩
  exact {
    sound := h.sound
    names_eq := names_after uses
    knows_later := fun name id cls hknows more => by
      rcases h.run more with ⟨t', h', hgrows⟩
      rw [after_append, h'.knows_iff]
      exact hgrows.lookup? (h.knows_iff.1 hknows)
    length_taken := length_taken uses
    taken_kept := taken_kept uses }

/-- Two insertions fail between the snapshot and the next id. -/
example :
    let s := after [.insert "a" .terminal, .freeze, .insert "a" .nonTerminal, .insert "x" .empty,
      .insert "b" .nonTerminal]
    s.registry.names = ["a", "b"] ∧ s.taken.map Snapshot.names = [["a"]] := by
  decide

end Session
end Lookahead
