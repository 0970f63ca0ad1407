import Lookahead.Proofs.Validation.Findings

/-!
# Renaming — descriptions with other names

All that the validator asks of a name is whether it is one of the two reserved names and whether it
equals another. A change of names that keeps both is carried through from the description to the
findings.

- `Renaming`: a change of names; different names stay different, and reserved names stay as they
  are.
- `Description.rename`, `Defect.rename`: what it changes.
- `Diagnostic.Renames`: a finding, and the same finding about the other names.
- `Description.findings_rename`: the report of a renamed description.
- `Description.wellFormed_rename`: the verdict is the same.
-/

namespace Lookahead

open Validation

/-! ## Names -/

structure Renaming where
  toFun : String → String
  injective : Function.Injective toFun
  empty : toFun emptyName = emptyName
  endOfInput : toFun endName = endName

namespace Renaming

instance : CoeFun Renaming fun _ => String → String :=
  ⟨toFun⟩

variable (ρ : Renaming) {m n : String} {ns : List String}

@[simp]
theorem eq_iff : ρ m = ρ n ↔ m = n :=
  ρ.injective.eq_iff

@[simp]
theorem eq_emptyName_iff : ρ n = emptyName ↔ n = emptyName := by
  constructor
  · intro h
    exact ρ.injective (h.trans ρ.empty.symm)
  · rintro rfl
    exact ρ.empty

@[simp]
theorem eq_endName_iff : ρ n = endName ↔ n = endName := by
  constructor
  · intro h
    exact ρ.injective (h.trans ρ.endOfInput.symm)
  · rintro rfl
    exact ρ.endOfInput

@[simp]
theorem isEmptyName_apply : isEmptyName (ρ n) = isEmptyName n := by
  rw [Bool.eq_iff_iff]
  simp [isEmptyName]

@[simp]
theorem isReservedName_apply : isReservedName (ρ n) = isReservedName n := by
  rw [Bool.eq_iff_iff]
  simp [isReservedName]

@[simp]
theorem mem_map_iff : ρ n ∈ ns.map ρ ↔ n ∈ ns :=
  List.mem_map_of_injective ρ.injective

end Renaming

/-! ## Descriptions -/

def Production.rename (ρ : Renaming) (p : Production) : Production :=
  { p with head := ρ p.head, alternate := p.alternate.map ρ }

def Description.rename (ρ : Renaming) (d : Description) : Description where
  start := ρ d.start
  terminals := d.terminals.map ρ
  nonTerminals := d.nonTerminals.map ρ
  productions := d.productions.map (Production.rename ρ)

/-! ## Findings -/

def Defect.rename (ρ : Renaming) : Defect → Defect
  | .reservedDeclaration name role => .reservedDeclaration (ρ name) role
  | .conflictingDeclaration name => .conflictingDeclaration (ρ name)
  | .startSymbolConflict name => .startSymbolConflict (ρ name)
  | .emptyAsRuleHead head => .emptyAsRuleHead (ρ head)
  | .endAsRuleHead head => .endAsRuleHead (ρ head)
  | .undeclaredRuleHead head => .undeclaredRuleHead (ρ head)
  | .terminalUsedAsHead head => .terminalUsedAsHead (ρ head)
  | .undeclaredSymbol name => .undeclaredSymbol (ρ name)
  | .misplacedEmptySymbol head alternate => .misplacedEmptySymbol (ρ head) (alternate.map ρ)
  | .startSymbolHasNoRule start => .startSymbolHasNoRule (ρ start)

/-- `y` is `x` with the renamed name, and both messages have the same cause. -/
structure Diagnostic.Renames (ρ : Renaming) (x y : Diagnostic) : Prop where
  kind : y.kind = x.kind
  name : y.name = x.name.map ρ
  ruleIndex : y.ruleIndex = x.ruleIndex
  span : y.span = x.span
  cause : ∃ cause : Defect, x.kind = cause.kind ∧ x.name = some cause.name ∧
    x.message = cause.message ∧ y.message = (cause.rename ρ).message

namespace Defect

variable {ρ : Renaming} (x : Defect)

@[simp]
theorem kind_rename : (x.rename ρ).kind = x.kind := by
  cases x <;> rfl

@[simp]
theorem name_rename : (x.rename ρ).name = ρ x.name := by
  cases x <;> rfl

theorem renames_diagnostic : x.diagnostic.Renames ρ (x.rename ρ).diagnostic where
  kind := x.kind_rename
  name := congrArg some x.name_rename
  ruleIndex := rfl
  span := rfl
  cause := ⟨x, rfl, rfl, rfl, rfl⟩

theorem renames_diagnosticAt (index : Nat) (span : Option SourceSpan) :
    (x.diagnosticAt index span).Renames ρ ((x.rename ρ).diagnosticAt index span) where
  kind := x.kind_rename
  name := congrArg some x.name_rename
  ruleIndex := rfl
  span := rfl
  cause := ⟨x, rfl, rfl, rfl, rfl⟩

end Defect

namespace Validation

variable {ρ : Renaming} {terminals : List String} {name : String}

theorem conflict_rename (role : Role) : conflict role (ρ name) = (conflict role name).rename ρ := by
  cases role <;> rfl

theorem refusal?_rename (role : Role) :
    refusal? role (terminals.map ρ) (ρ name) =
      (refusal? role terminals name).map (Defect.rename ρ) := by
  simp only [refusal?, Renaming.isReservedName_apply, Renaming.mem_map_iff, conflict_rename]
  split
  · rfl
  · split <;> rfl

theorem declarationDefects_rename (ρ : Renaming) (d : Description) :
    declarationDefects (d.rename ρ) = (declarationDefects d).map (Defect.rename ρ) := by
  have hphase (role : Role) (terminals names : List String) :
      (names.map ρ).filterMap (refusal? role (terminals.map ρ)) =
        (names.filterMap (refusal? role terminals)).map (Defect.rename ρ) := by
    rw [List.filterMap_map, List.map_filterMap]
    exact List.filterMap_congr fun _ _ => refusal?_rename role
  have hstart : (refusal? .startSymbol (d.terminals.map ρ) (ρ d.start)).toList =
      (refusal? .startSymbol d.terminals d.start).toList.map (Defect.rename ρ) := by
    rw [refusal?_rename]
    cases refusal? .startSymbol d.terminals d.start <;> rfl
  simp only [declarationDefects, Description.rename, List.map_append, hstart, ← hphase]
  rfl

end Validation

namespace Description

variable {ρ : Renaming} {d : Description} {p : Production} {n : String}

@[simp]
theorem declares_rename : (d.rename ρ).Declares (ρ n) ↔ d.Declares n := by
  simp [Declares, rename]

@[simp]
theorem registers_rename : (d.rename ρ).Registers (ρ n) ↔ d.Registers n := by
  simp [Registers]

@[simp]
theorem stops_rename : (d.rename ρ).Stops (p.rename ρ) ↔ d.Stops p := by
  simp [Stops, Production.rename]

theorem undeclared_rename :
    ((p.alternate.map ρ).filter fun n => n ≠ emptyName ∧ ¬(d.rename ρ).Registers n).map
        Defect.undeclaredSymbol =
      ((p.alternate.filter fun n => n ≠ emptyName ∧ ¬d.Registers n).map
        Defect.undeclaredSymbol).map (Defect.rename ρ) := by
  rw [List.filter_map, List.map_map, List.map_map]
  simp [Function.comp_def, Defect.rename]

theorem ruleDefects_rename (ρ : Renaming) (d : Description) (p : Production) :
    (d.rename ρ).ruleDefects (p.rename ρ) = (d.ruleDefects p).map (Defect.rename ρ) := by
  have hterminal : (p.rename ρ).head ∈ (d.rename ρ).terminals ↔ p.head ∈ d.terminals :=
    ρ.mem_map_iff
  have hempty : (p.rename ρ).head = emptyName ↔ p.head = emptyName := ρ.eq_emptyName_iff
  have hend : (p.rename ρ).head = endName ↔ p.head = endName := ρ.eq_endName_iff
  have hmisplaced : emptyName ∈ (p.rename ρ).alternate ∧ (p.rename ρ).alternate ≠ [emptyName] ↔
      emptyName ∈ p.alternate ∧ p.alternate ≠ [emptyName] := by
    simp [Production.rename]
  simp only [ruleDefects, hempty, hend, stops_rename, hterminal, hmisplaced]
  -- by the head: the two reserved names, an undeclared one, and all others
  split
  · rfl
  split
  · rfl
  split
  · rfl
  · simp only [List.map_append, ← undeclared_rename, apply_ite (List.map (Defect.rename ρ))]
    rfl

theorem ruleFindings_rename (ρ : Renaming) (d : Description) (index : Nat) (ps : List Production) :
    List.Forall₂ (Diagnostic.Renames ρ) (d.ruleFindings index ps)
      ((d.rename ρ).ruleFindings index (ps.map (Production.rename ρ))) := by
  induction ps generalizing index with
  | nil => exact .nil
  | cons p ps ih =>
      rw [List.map_cons, ruleFindings_cons, ruleFindings_cons, ruleDefects_rename]
      refine List.rel_append ?_ ?_
      · rw [List.map_map, List.forall₂_map_left_iff, List.forall₂_map_right_iff]
        exact List.forall₂_same.2 fun x _ => x.renames_diagnosticAt index p.span
      · simp only [stops_rename]
        split
        · exact .nil
        · exact ih (index + 1)

theorem findings_rename (ρ : Renaming) (d : Description) :
    List.Forall₂ (Diagnostic.Renames ρ) d.findings (d.rename ρ).findings := by
  -- whether there is nothing to say of the start symbol
  have hsilent : (∃ p ∈ (d.rename ρ).productions, (d.rename ρ).Stops p ∨ p.head = ρ d.start) ↔
      ∃ p ∈ d.productions, d.Stops p ∨ p.head = d.start := by
    change (∃ q ∈ d.productions.map (Production.rename ρ), _) ↔ _
    simp only [List.mem_map, exists_exists_and_eq_and]
    exact exists_congr fun p => and_congr_right fun _ => or_congr stops_rename ρ.eq_iff
  refine List.rel_append (List.rel_append ?_ (ruleFindings_rename ρ d 0 d.productions)) ?_
  · rw [declarationDefects_rename, List.map_map, List.forall₂_map_left_iff,
      List.forall₂_map_right_iff]
    exact List.forall₂_same.2 fun x _ => x.renames_diagnostic
  · change List.Forall₂ _ _ (ite (∃ p ∈ (d.rename ρ).productions, _ ∨ p.head = ρ d.start) _ _)
    simp only [hsilent]
    split
    · exact .nil
    · exact .cons (Defect.startSymbolHasNoRule d.start).renames_diagnostic .nil

theorem findings_eq_nil_iff : d.findings = [] ↔ d.WellFormed := by
  by_cases hd : d.WellFormed
  · rcases validate_wellFormed [] hd with ⟨g, hg, _⟩
    have hnone : d.findings = [] := (findings_of_validate hg).symm
    simp [hd, hnone]
  · rcases validate_not_wellFormed [] hd with ⟨new, hsome, hnew⟩
    have hfindings : new = d.findings := findings_of_validate hnew
    simp [hd, ← hfindings, hsome]

@[simp]
theorem wellFormed_rename : (d.rename ρ).WellFormed ↔ d.WellFormed := by
  rw [← findings_eq_nil_iff, ← findings_eq_nil_iff, ← List.length_eq_zero_iff,
    ← List.length_eq_zero_iff, (findings_rename ρ d).length_eq]

theorem validate_findings (found : Diagnostics) (hd : ¬d.WellFormed) :
    validate found d = .ok (found ++ d.findings, .rejected d.findings.length) := by
  rcases validate_not_wellFormed found hd with ⟨new, _, hnew⟩
  have hfindings : new = d.findings := List.append_cancel_left (findings_of_validate hnew)
  exact hfindings ▸ hnew

end Description

end Lookahead
