/-
What the package offers by name.

A name is bound to an attribute of a module of the package when it is first asked
for, so that nothing is loaded before it is needed.

* `Package.exported` — the names that are offered;
* `Package.resolve` — what a name stands for.
-/
import TapLint.Text.Quoted

namespace TapLint.Package

/-- A name that is offered, and the attribute that it stands for. -/
structure Export where
  name : String
  /-- The module of the attribute, relative to the package. -/
  home : String
  target : String
  deriving Repr, DecidableEq

/-- All that is offered. -/
def exports : List Export := [
  ⟨"Config", ".config.config", "Config"⟩,
  ⟨"FormulaCopsConstants", ".config.constants", "FormulaCopsConstants"⟩,
  ⟨"FormulaLoader", ".core.loader", "FormulaLoader"⟩,
  ⟨"FormulaAuditor", ".core.auditor", "FormulaAuditor"⟩,
  ⟨"audit_file", ".core.auditor", "audit_file"⟩,
  ⟨"audit_paths", ".core.auditor", "audit_paths"⟩,
  ⟨"AuditPolicy", ".core.audit_policy", "AuditPolicy"⟩,
  ⟨"AuditResult", ".core.models", "AuditResult"⟩,
  ⟨"Diagnostic", ".core.models", "Diagnostic"⟩,
  ⟨"FormulaBody", ".core.models", "FormulaBody"⟩,
  ⟨"Report", ".core.models", "Report"⟩,
  ⟨"Severity", ".core.models", "Severity"⟩,
  ⟨"ProvidedByMacos", ".cops.uses_from_macos", "ProvidedByMacos"⟩,
  ⟨"UsesFromMacos", ".cops.uses_from_macos", "UsesFromMacos"⟩]

/-- The names that are offered, sorted. -/
def exported : List String := (exports.map (·.name)).mergeSort (· ≤ ·)

/-- A name that is not offered. -/
structure UnknownName where
  name : String
  deriving Repr, DecidableEq

/-- The wording of a complaint about a name. -/
def UnknownName.message (e : UnknownName) : String :=
  "module 'formula_cops' has no attribute " ++ Text.quoted e.name

/-- What a name stands for. -/
def resolve (name : String) : Except UnknownName Export :=
  match exports.find? (·.name == name) with
  | some e => .ok e
  | none => .error ⟨name⟩

/-- The names that stand for something are those that are offered. -/
theorem exists_resolve_iff {name : String} :
    (∃ e, resolve name = .ok e ∧ e.name = name) ↔ name ∈ exported := by
  rw [exported, List.mem_mergeSort, List.mem_map]
  constructor
  · rintro ⟨e, he, rfl⟩
    rw [resolve] at he
    split at he
    next found hfound =>
      cases he
      exact ⟨e, List.mem_of_find?_eq_some hfound, rfl⟩
    · cases he
  · rintro ⟨e, he, rfl⟩
    have hsome : (exports.find? (·.name == e.name)).isSome :=
      List.find?_isSome.mpr ⟨e, he, beq_self_eq_true _⟩
    obtain ⟨found, hfound⟩ := Option.isSome_iff_exists.mp hsome
    refine ⟨found, by rw [resolve, hfound], ?_⟩
    have hname := List.find?_some hfound
    exact eq_of_beq hname

end TapLint.Package
