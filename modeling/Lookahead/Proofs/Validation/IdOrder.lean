import Lookahead.Proofs.Chains
import Lookahead.Proofs.SymbolTable
import Lookahead.Validation

/-!
# IdOrder — the two sets of ids in the order of the table

A new name gets an id beyond all ids so far, so the declaring phases list the ids of both classes in
ascending order.

- `SymbolTable.mem_idsOfClass`, `SymbolTable.idsOfClass_insert`: the ids of a class.
- `SymbolTable.map_at?_idsOfClass`, `SymbolTable.mapM_nameOf_idsOfClass`: their declarations and
  names.
- `Validation.Progress.InOrder`: the state lists both classes as the table does.
- `Validation.declare_inOrder`: all three phases keep it so.
- `Grammar.InOrder`, `inOrder_of_accepted`: so a grammar lists both classes in ascending order.
-/

namespace Lookahead

/-! ## The ids of a class -/

namespace SymbolTable

variable {t t' : SymbolTable} {name : String} {cls : SymbolClass} {id : SymbolId}

theorem lt_size_of_hasClass (h : t.hasClass cls id = true) : 0 ≤ id ∧ id < t.size := by
  rcases hasClass_iff.1 h with ⟨name, hid⟩
  rcases exists_ofNat_of_at? hid with ⟨n, rfl, hn⟩
  have hlt : n < t.declarations.length := (List.getElem?_eq_some_iff.1 hn).1
  exact ⟨Int.natCast_nonneg n, Int.ofNat_lt.2 hlt⟩

theorem mem_idsOfClass : id ∈ t.idsOfClass cls ↔ t.hasClass cls id = true := by
  constructor
  · intro h
    exact (List.mem_filter.1 h).2
  · intro h
    refine List.mem_filter.2 ⟨?_, h⟩
    rcases lt_size_of_hasClass h with ⟨hpos, hlt⟩
    refine List.mem_map.2 ⟨id.toNat, ?_, Int.toNat_of_nonneg hpos⟩
    exact List.mem_range.2 ((Int.toNat_lt hpos).2 hlt)

theorem size_not_mem_idsOfClass (t : SymbolTable) (c : SymbolClass) :
    (t.size : SymbolId) ∉ t.idsOfClass c := by
  intro h
  exact absurd (lt_size_of_hasClass (mem_idsOfClass.1 h)).2 (Int.lt_irrefl _)

theorem hasClass_push (hname : name ∉ t.names) (hcls : cls ≠ .empty) (c : SymbolClass) :
    (t.push name cls hname hcls).hasClass c id = true ↔
      t.hasClass c id = true ∨ (id = t.size ∧ c = cls) :=
  Gains.hasClass_iff (fun _ _ => at?_push hname hcls)

/-- `push` puts the new id at the end of the ids of its class. -/
theorem idsOfClass_push (hname : name ∉ t.names) (hcls : cls ≠ .empty) (c : SymbolClass) :
    (t.push name cls hname hcls).idsOfClass c =
      t.idsOfClass c ++ if c = cls then [(t.size : SymbolId)] else [] := by
  have hold : ∀ id ∈ (List.range t.size).map Int.ofNat,
      (t.push name cls hname hcls).hasClass c id = t.hasClass c id := by
    intro id hid
    rcases List.mem_map.1 hid with ⟨n, hn, rfl⟩
    have hne : Int.ofNat n ≠ t.size := by
      intro heq
      exact Nat.ne_of_lt (List.mem_range.1 hn) (Int.ofNat_inj.1 heq)
    rw [Bool.eq_iff_iff, hasClass_push hname hcls]
    exact ⟨fun h => h.resolve_right fun hlast => hne hlast.1, Or.inl⟩
  have hnew : (t.push name cls hname hcls).hasClass c (Int.ofNat t.size) = true ↔ c = cls := by
    rw [hasClass_push hname hcls]
    constructor
    · rintro (h | ⟨_, h⟩)
      · exact absurd (mem_idsOfClass.2 h) (size_not_mem_idsOfClass t c)
      · exact h
    · intro h
      exact Or.inr ⟨rfl, h⟩
  -- the filter over all ids, split at the new one
  rw [idsOfClass, size_push, List.range_succ, List.map_append, List.filter_append,
    List.filter_congr hold, List.map_singleton]
  by_cases hc : c = cls
  · rw [List.filter_cons_of_pos (hnew.2 hc), if_pos hc]
    rfl
  · rw [List.filter_cons_of_neg fun h => hc (hnew.1 h), if_neg hc]
    rfl

/-- `insert` either finds `name` and leaves `t` as it is, or pushes it with the next id,
`t.size`. -/
theorem insert_cases (h : t.insert name cls = .ok (id, t')) :
    (t' = t ∧ t.hasClass cls id = true) ∨
      ∃ hname hcls, id = t.size ∧ t' = t.push name cls hname hcls := by
  by_cases hcls : cls = .empty
  · rw [hcls, insert_empty] at h
    cases h
  · cases hlookup : t.lookup? name with
    | none =>
        have hname : name ∉ t.names := lookup?_eq_none_iff.1 hlookup
        rw [insert_of_not_mem hname hcls] at h
        cases h
        exact Or.inr ⟨hname, hcls, rfl, rfl⟩
    | some found =>
        rcases found with ⟨id', existing⟩
        rw [insert_of_lookup?_eq_some hlookup hcls] at h
        split at h
        · next hsame =>
          cases h
          exact Or.inl ⟨rfl, hasClass_iff.2 ⟨name, hsame ▸ lookup?_eq_some_iff.1 hlookup⟩⟩
        · cases h

theorem idsOfClass_insert (h : t.insert name cls = .ok (id, t')) (c : SymbolClass) :
    t'.idsOfClass c = if c = cls then addId (t.idsOfClass c) id else t.idsOfClass c := by
  rcases insert_cases h with ⟨rfl, hid⟩ | ⟨hname, hcls, rfl, rfl⟩
  · split
    · next hc =>
      have hmem : id ∈ t'.idsOfClass c := mem_idsOfClass.2 (hc ▸ hid)
      rw [addId, if_pos hmem]
    · rfl
  · rw [idsOfClass_push]
    split
    · rw [addId, if_neg (size_not_mem_idsOfClass t c)]
    · exact List.append_nil _

/-- The declarations at `t.idsOfClass c` are those of the class `c`, in order. -/
theorem map_at?_idsOfClass (t : SymbolTable) (c : SymbolClass) :
    (t.idsOfClass c).map t.at? = (t.declarations.filter (·.cls == c)).map some := by
  have hall : (List.range t.size).map (fun n => t.declarations[n]?) = t.declarations.map some := by
    refine List.ext_getElem (by simp [size]) ?_
    intro n _ _
    simp
  calc
    (t.idsOfClass c).map t.at?
        = ((List.range t.size).map fun n => t.declarations[n]?).filter
            (Option.any (·.cls == c)) := by
          rw [idsOfClass, List.filter_map, List.map_map, List.filter_map]
          rfl
    _ = (t.declarations.map some).filter (Option.any (·.cls == c)) := by rw [hall]
    _ = (t.declarations.filter (·.cls == c)).map some := by
          rw [List.filter_map]
          rfl

theorem mapM_nameOf_idsOfClass (t : SymbolTable) (c : SymbolClass) :
    (t.idsOfClass c).mapM t.nameOf =
      .ok ((t.declarations.filter (·.cls == c)).map Declaration.name) := by
  have heq : List.Forall₂ (· = ·) ((t.idsOfClass c).map t.at?)
      ((t.declarations.filter (·.cls == c)).map some) := by
    rw [List.forall₂_eq_eq_eq]
    exact map_at?_idsOfClass t c
  have hall : List.Forall₂ (fun id e => t.at? id = some e) (t.idsOfClass c)
      (t.declarations.filter (·.cls == c)) :=
    List.forall₂_map_left_iff.1 (List.forall₂_map_right_iff.1 heq)
  refine mapM_of_forall₂ (List.forall₂_map_right_iff.2 (hall.imp ?_))
  intro id e hid
  exact nameOf_eq_ok hid

theorem inIdOrder_idsOfClass (t : SymbolTable) (c : SymbolClass) :
    inIdOrder (t.idsOfClass c) = t.idsOfClass c := by
  have hrange : ((List.range t.size).map Int.ofNat).Pairwise (· ≤ ·) := by
    refine List.pairwise_map.2 (List.pairwise_le_range.imp ?_)
    intro m n hmn
    exact Int.ofNat_le.2 hmn
  refine List.mergeSort_of_pairwise ((hrange.filter _).imp ?_)
  intro a b hab
  exact decide_eq_true hab

end SymbolTable

/-! ## The declaring phases -/

namespace Validation
namespace Progress

/-- Both lists of ids are those of `p.table`, in the same order. -/
structure InOrder (p : Progress) : Prop where
  terminals_eq : p.terminals = p.table.idsOfClass .terminal
  nonTerminals_eq : p.nonTerminals = p.table.idsOfClass .nonTerminal

variable {p p' : Progress} {table : SymbolTable} {name : String} {id : SymbolId}

theorem InOrder.report (hp : p.InOrder) (d : Defect) : (p.report d).InOrder where
  terminals_eq := hp.terminals_eq
  nonTerminals_eq := hp.nonTerminals_eq

theorem InOrder.addTerminal (hp : p.InOrder) (h : p.table.insert name .terminal = .ok (id, table)) :
    ({ p with table := table, terminals := addId p.terminals id } : Progress).InOrder where
  terminals_eq := by simp [SymbolTable.idsOfClass_insert h, hp.terminals_eq]
  nonTerminals_eq := by simp [SymbolTable.idsOfClass_insert h, hp.nonTerminals_eq]

theorem InOrder.addNonTerminal (hp : p.InOrder)
    (h : p.table.insert name .nonTerminal = .ok (id, table)) :
    ({ p with table := table, nonTerminals := addId p.nonTerminals id } : Progress).InOrder where
  terminals_eq := by simp [SymbolTable.idsOfClass_insert h, hp.terminals_eq]
  nonTerminals_eq := by simp [SymbolTable.idsOfClass_insert h, hp.nonTerminals_eq]

theorem InOrder.declareTerminal (hp : p.InOrder) (h : p.declareTerminal name = .ok p') :
    p'.InOrder := by
  unfold Progress.declareTerminal at h
  split at h
  · cases h
    exact hp.report _
  split at h
  · next hinsert =>
    cases h
    exact hp.addTerminal hinsert
  · cases h

theorem InOrder.declareNonTerminal (hp : p.InOrder) (h : p.declareNonTerminal name = .ok p') :
    p'.InOrder := by
  unfold Progress.declareNonTerminal at h
  split at h
  · cases h
    exact hp.report _
  split at h
  · next hinsert =>
    cases h
    exact hp.addNonTerminal hinsert
  · cases h
    exact hp.report _
  · cases h

theorem InOrder.declareStart {start? : Option SymbolId} (hp : p.InOrder)
    (h : p.declareStart name = .ok (p', start?)) : p'.InOrder := by
  unfold Progress.declareStart at h
  split at h
  · cases h
    exact hp.report _
  split at h
  · next hinsert =>
    cases h
    exact hp.addNonTerminal hinsert
  · cases h
    exact hp.report _
  · cases h

end Progress

theorem declare_inOrder {found : Diagnostics} {d : Description} {p : Progress}
    {start? : Option SymbolId} (h : declare found d = .ok (p, start?)) : p.InOrder := by
  rcases bind_eq_ok_iff.1 h with ⟨p₁, hterminals, h₁⟩
  rcases bind_eq_ok_iff.1 h₁ with ⟨p₂, hnonTerminals, hstart⟩
  have hinitial : ({ found := found } : Progress).InOrder := ⟨rfl, rfl⟩
  have hfirst : p₁.InOrder :=
    foldlM_preserves (fun _ _ _ _ hs hstep => hs.declareTerminal hstep) hinitial hterminals
  have hsecond : p₂.InOrder :=
    foldlM_preserves (fun _ _ _ _ hs hstep => hs.declareNonTerminal hstep) hfirst hnonTerminals
  exact hsecond.declareStart hstart

end Validation

/-! ## The grammar -/

/-- Both lists of ids are those of `g.symbols`, in the same order. -/
structure Grammar.InOrder (g : Grammar) : Prop where
  terminals_eq : g.terminals = g.symbols.idsOfClass .terminal
  nonTerminals_eq : g.nonTerminals = g.symbols.idsOfClass .nonTerminal

variable {found all : Diagnostics} {d : Description} {g : Grammar}

theorem Validation.Progress.InOrder.finish {p : Progress} {start? : Option SymbolId}
    {rules : List Rule} (hp : p.InOrder) (h : finish p start? rules = .ok g) : g.InOrder := by
  unfold Validation.finish at h
  split at h
  · cases h
  split at h
  · cases h
  · cases h
    exact ⟨hp.terminals_eq, hp.nonTerminals_eq⟩

theorem inOrder_of_accepted (h : validate found d = .ok (all, .accepted g)) : g.InOrder := by
  rcases bind_eq_ok_iff.1 h with ⟨⟨p, start?⟩, hdeclare, hrest⟩
  have hp : p.InOrder := Validation.declare_inOrder hdeclare
  simp only at hrest
  split at hrest
  · cases hrest
  split at hrest
  · rcases bind_eq_ok_iff.1 hrest with ⟨g', hfinish, hreturn⟩
    cases hreturn
    exact hp.finish hfinish
  · cases hrest

end Lookahead
