/-
What the rule for formulae provided by macOS says of a body.

The rule walks over the body with a stack, and leaves the walk at the first call that claims
the formula to be provided by macOS if the formula is registered.  Here the rule is given by
the calls alone:

* `ClaimsMacos` — a `keg_only` which has the string or symbol `provided_by_macos` among its
  arguments, wherever it stands there;
* `claims` — those calls of a body, in the order of the recursive preorder.

The main statement is `value_evaluate_eq_claims`: nothing is said of a registered formula, and
of any other one the same is said for each of these calls.
-/
import TapLint.Proofs.Offenses
import TapLint.Proofs.Spellings

namespace TapLint.ProvidedByMacos

/-! ### The calls -/

/-- A call of `keg_only` with the string or symbol `provided_by_macos` as one of its
arguments. -/
def ClaimsMacos (call : Node) : Prop :=
  call.kind = .call ∧ call.name = some "keg_only" ∧
    ∃ a ∈ call.arguments,
      (a.kind = .string ∨ a.kind = .symbol) ∧ a.literal = some "provided_by_macos"

instance : DecidablePred ClaimsMacos :=
  fun _ => inferInstanceAs (Decidable (_ ∧ _ ∧ _))

/-- Those calls in an optional body, a call before the ones that stand below it. -/
def claims : Option Node → List Node
  | none => []
  | some body => body.preorder.filter fun (n : Node) => ClaimsMacos n

theorem accepts_iff {a : Node} :
    Pattern.accepts a (.literal ":provided_by_macos") ↔
      (a.kind = .string ∨ a.kind = .symbol) ∧ a.literal = some "provided_by_macos" := by
  have hpattern : Node.dropColon ":provided_by_macos" = "provided_by_macos" :=
    Node.dropColon_colon_append "provided_by_macos"
  have hliteral : a.isLiteral ↔ a.kind = .string ∨ a.kind = .symbol := by
    rw [Node.isLiteral]
    cases a.kind <;> simp [Kind.isLiteral]
  by_cases ha : a.isLiteral
  · rw [Node.accepts_literal_iff ha, hpattern, ← hliteral]
    exact ⟨fun h => ⟨ha, h⟩, And.right⟩
  · rw [Pattern.accepts, ← hliteral, Bool.eq_false_iff.mpr ha]
    simp

theorem isCallOf_and_fitsAll_iff {call : Node} :
    (call.isCallOf "keg_only" ∧ Node.fitsAll [.literal ":provided_by_macos"] call) ↔
      ClaimsMacos call := by
  rw [ClaimsMacos, ← and_assoc]
  refine and_congr ?_ ?_
  · rw [Node.isCallOf, Node.isCall, Bool.and_eq_true, beq_iff_eq, beq_iff_eq]
  · simp only [Node.fitsAll, List.all_cons, List.all_nil, Bool.and_true, List.any_eq_true,
      accepts_iff]

/-- The calls that the rule finds are the ones that make the claim. -/
theorem callsWith_eq_claims (body : Node) :
    Node.callsWith (some body) "keg_only" [.literal ":provided_by_macos"] =
      claims (some body) := by
  rw [Node.callsWith_eq, List.filter_filter, claims]
  refine List.filter_congr fun call _ => ?_
  rw [Bool.eq_iff_iff, decide_eq_true_eq, ← isCallOf_and_fitsAll_iff, Bool.and_eq_true,
    and_comm]

theorem isRegistered_iff {name : String} :
    Provided.isRegistered name ↔ name ∈ Provided.registered :=
  List.contains_iff_mem

/-! ### The diagnostics -/

/-- What a cop with this rule reports on a call. -/
def diagnosticOf (severity : Severity) (name : String) (call : Node) : Diagnostic :=
  { copName := "FormulaAudit/ProvidedByMacos"
    message := message
    location := call.location
    severity := severity
    formulaName := some name }

theorem value_evaluate (severity : Severity) (f : Formula) :
    ((Cop.mk rule severity).evaluate f).value =
      if f.name ∈ Provided.registered then []
      else (claims f.body).map (diagnosticOf severity f.name) := by
  cases hbody : f.body with
  | none =>
    rw [Cop.evaluate, hbody, claims, List.map_nil, ite_self]
    rfl
  | some body =>
    rw [Cop.value_evaluate hbody, value_offenses, callsWith_eq_claims]
    by_cases hname : f.name ∈ Provided.registered
    · rw [if_pos (isRegistered_iff.mpr hname), if_pos hname, List.map_nil]
    · rw [if_neg (mt isRegistered_iff.mp hname), if_neg hname, List.map_map]
      rfl

/-- **The rule is all or nothing.**  Of a registered formula nothing is reported.  Of any other
one there is one diagnostic for each call in the body that makes the claim, with the location of
the call, in preorder.  Nothing else in the body counts: two formulae of one name whose claims
have the same locations get the same diagnostics. -/
theorem value_evaluate_eq_claims (severity : Severity) (f : Formula) :
    (f.name ∈ Provided.registered → ((Cop.mk rule severity).evaluate f).value = []) ∧
      (f.name ∉ Provided.registered →
        ((Cop.mk rule severity).evaluate f).value =
          (claims f.body).map (diagnosticOf severity f.name)) ∧
      ∀ g : Formula, g.name = f.name →
        (claims g.body).map Node.location = (claims f.body).map Node.location →
        ((Cop.mk rule severity).evaluate g).value = ((Cop.mk rule severity).evaluate f).value := by
  refine ⟨fun hname => ?_, fun hname => ?_, fun g hname hlocations => ?_⟩
  · rw [value_evaluate, if_pos hname]
  · rw [value_evaluate, if_neg hname]
  · -- a diagnostic takes nothing but the location from its call
    have hmap : ∀ calls : List Node, calls.map (diagnosticOf severity f.name) =
        (calls.map Node.location).map fun l =>
          { copName := "FormulaAudit/ProvidedByMacos", message := message, location := l,
            severity := severity, formulaName := some f.name } := by
      intro calls
      rw [List.map_map]
      rfl
    rw [value_evaluate, value_evaluate, hname, hmap, hmap, hlocations]

/-! ### Claims among other reasons -/

/-- A `keg_only` at an offset with its reasons, symbols and strings. -/
def kegOnly (start : Nat) (reasons : List (Kind × String)) : Node :=
  .node
    { kind := .call, type := "call", location := { (default : Location) with start := start }
      text := "keg_only", name := some "keg_only", arguments := List.range reasons.length }
    (reasons.map fun reason =>
      .node { kind := reason.1, type := reason.1.name, location := default, text := reason.2,
              value := some reason.2 } [])

/-- Some statements. -/
def statements (nodes : List Node) : Node :=
  .node { kind := .block, type := "block", location := default, text := "" } nodes

/-- A second reason does not hide the claim, and calls with other reasons change nothing. -/
theorem value_evaluate_eq_claims_otherReasons :
    let claim := kegOnly 30 [(.string, "because"), (.symbol, "provided_by_macos")]
    let other := kegOnly 0 [(.symbol, "versioned_formula")]
    let f : Formula := { name := "a", body := some (statements [statements [claim]]) }
    let g : Formula := { name := "a", body := some (statements [other, statements [claim, other]]) }
    let zlib : Formula := { g with name := "zlib" }
    let cop : Cop := ⟨rule, .warning⟩
    "a" ∉ Provided.registered ∧ "zlib" ∈ Provided.registered ∧
      (claims g.body).map Node.location = (claims f.body).map Node.location ∧
      (cop.evaluate f).value.map (·.location.start) = [30] ∧
      (cop.evaluate g).value = (cop.evaluate f).value ∧ (cop.evaluate zlib).value = [] := by
  intro claim other f g zlib cop
  have hname : "a" ∉ Provided.registered := by decide +kernel
  have hzlib : "zlib" ∈ Provided.registered := by decide +kernel
  have hlocations : (claims g.body).map Node.location = (claims f.body).map Node.location := by
    decide +kernel
  refine ⟨hname, hzlib, hlocations, ?_, ?_, ?_⟩
  · rw [(value_evaluate_eq_claims .warning f).2.1 hname]
    decide +kernel
  · exact (value_evaluate_eq_claims .warning f).2.2 g rfl hlocations
  · exact (value_evaluate_eq_claims .warning zlib).1 hzlib

end TapLint.ProvidedByMacos
