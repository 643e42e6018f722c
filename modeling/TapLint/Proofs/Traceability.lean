/-
Every diagnostic can be traced to a call.

A diagnostic is put together from a cop, a policy, a formula and a node, and each of these
comes from another place.  Here it is followed back to all of them:

* `Formula.declaration?_eq_some_iff` — the class that defines a formula is the first, in
  preorder, that inherits from a formula base class;
* `Node.DefinesFormula.kind_body` — the body of that class is no call itself, so a call in it
  stands below it;
* `Rule.exists_call_of_mem_offenses`, `Cop.exists_offense_of_mem_evaluate` — what cops report
  are calls in the body;
* `Diagnostic.Traceable` — where a diagnostic comes from.

The main statement is `auditSource_traceable`.
-/
import TapLint.Proofs.DiagnosticOrder
import TapLint.Proofs.Loading
import TapLint.Proofs.Locations
import TapLint.Proofs.Views

namespace TapLint

/-! ### The class that defines a formula -/

/-- A class whose superclass is a formula base class, with or without `::` before it. -/
structure Node.DefinesFormula (n : Node) : Prop where
  kind_eq : n.kind = .classDecl
  superclass : ∃ s, n.superclass = some s ∧
    ∃ base ∈ Formula.baseClasses, s.text = base ∨ s.text = "::" ++ base

/-- The first node, in preorder, that defines a formula. -/
structure Node.FirstDefinition (root c : Node) : Prop where
  defines : c.DefinesFormula
  first : ∃ before after, root.preorder = before ++ c :: after ∧
    ∀ n : Node, n ∈ before → ¬n.DefinesFormula

theorem Node.FirstDefinition.mem_preorder {root c : Node} (h : root.FirstDefinition c) :
    c ∈ root.preorder := by
  obtain ⟨before, after, hsplit, -⟩ := h.first
  rw [hsplit]
  exact List.mem_append_right _ List.mem_cons_self

namespace Formula

theorem dropScope_mem_baseClasses_iff {s : String} :
    dropScope s ∈ baseClasses ↔ ∃ base ∈ baseClasses, s = base ∨ s = "::" ++ base := by
  constructor
  · intro h
    refine ⟨dropScope s, h, ?_⟩
    rw [dropScope]
    split
    next cs hs =>
      right
      simp [← String.toList_inj, hs]
    next => exact .inl rfl
  · rintro ⟨base, hbase, rfl | rfl⟩
    all_goals
      simp only [baseClasses, List.mem_cons, List.not_mem_nil, or_false] at hbase
      rcases hbase with rfl | rfl <;> decide +kernel

theorem isDeclaration_iff {n : Node} : isDeclaration n ↔ n.DefinesFormula := by
  rw [isDeclaration, Bool.and_eq_true, beq_iff_eq, Option.any_eq_true]
  simp only [List.contains_iff_mem, dropScope_mem_baseClasses_iff]
  exact ⟨fun h => ⟨h.1, h.2⟩, fun h => ⟨h.kind_eq, h.superclass⟩⟩

theorem declaration?_eq_some_iff {root c : Node} :
    declaration? (some root) = some c ↔ root.FirstDefinition c := by
  rw [declaration?, Node.walk?, Node.walk, Rose.walk_eq_preorder, List.find?_eq_some_iff_append]
  simp only [isDeclaration_iff, Bool.not_eq_true', ← Bool.not_eq_true]
  constructor
  · rintro ⟨hdefines, before, after, hsplit, hbefore⟩
    exact ⟨hdefines, before, after, hsplit, hbefore⟩
  · rintro ⟨hdefines, before, after, hsplit, hbefore⟩
    exact ⟨hdefines, before, after, hsplit, hbefore⟩

theorem declaration?_eq_none_iff {root : Node} :
    declaration? (some root) = none ↔ ∀ n : Node, n ∈ root.preorder → ¬n.DefinesFormula := by
  rw [declaration?, Node.walk?, Node.walk, Rose.walk_eq_preorder, List.find?_eq_none]
  simp only [isDeclaration_iff]

/-- The body of a formula is that of the first class that defines one. -/
theorem body_ofRoot_eq_some_iff {root body : Node} {path name : Option String} :
    (ofRoot root path name).value.body = some body ↔
      ∃ c, root.FirstDefinition c ∧ c.body = some body := by
  rw [body_ofRoot, Option.bind_eq_some_iff]
  simp only [declaration?_eq_some_iff]

theorem body_ofRoot_of_first {root c : Node} {path name : Option String}
    (h : root.FirstDefinition c) : (ofRoot root path name).value.body = c.body := by
  rw [body_ofRoot, declaration?_eq_some_iff.mpr h]
  rfl

theorem body_ofRoot_of_none {root : Node} {path name : Option String}
    (h : ∀ n : Node, n ∈ root.preorder → ¬n.DefinesFormula) :
    (ofRoot root path name).value.body = none := by
  rw [body_ofRoot, declaration?_eq_none_iff.mpr h]
  rfl

end Formula

/-! ### The body of a class -/

namespace Node

variable {src : Source}

theorem DefinesFormula.exists_class {t : Ruby.Tree} {c : Node} (h : c.DefinesFormula)
    (hc : c ∈ (ofTree src t).preorder) :
    ∃ s ∈ t.preorder, kindOf s.value.type = .classDecl ∧ c = ofTree src s := by
  have hkind := h.kind_eq
  cases origin_of_mem hc with
  | @concrete s hs =>
    rw [kind_ofTree] at hkind
    exact ⟨s, hs, hkind, rfl⟩
  | implied himplied _ => cases himplied <;> cases hkind

/-- The body of the class that defines a formula is no call. -/
theorem DefinesFormula.kind_body {t : Ruby.Tree} {c body : Node} (h : c.DefinesFormula)
    (hc : c ∈ (ofTree src t).preorder) (hbody : c.body = some body) : body.kind = .other := by
  obtain ⟨s, -, hkind, rfl⟩ := h.exists_class hc
  rw [body_ofTree_classDecl hkind] at hbody
  exact (type_bodyOf hbody).2

theorem mem_children_of_body {m n : Node} (h : n.body = some m) : m ∈ n.children := by
  obtain ⟨i, -, hi⟩ := Option.bind_eq_some_iff.mp h
  exact List.mem_of_getElem? hi

theorem mem_descendants_iff {m n : Node} : m ∈ n.preorder ↔ m = n ∨ m ∈ n.descendants := by
  rw [Rose.preorder_eq, Rose.descendants_eq, List.mem_cons]

theorem path_location_of_mem {t : Ruby.Tree} {n : Node} (h : n ∈ (ofTree src t).preorder) :
    n.location.path = src.path := by
  obtain ⟨_, _, _, _, hlocation, -⟩ := exists_stretch_of_mem h
  rw [hlocation]
  rfl

theorem mem_preorder_of_body {t : Ruby.Tree} {c body n : Node} (hc : c ∈ (ofTree src t).preorder)
    (hbody : c.body = some body) (hn : n ∈ body.preorder) : n ∈ (ofTree src t).preorder := by
  have hbelow := Rose.mem_preorder_of_mem_children (mem_children_of_body hbody)
  exact Rose.mem_preorder_trans hn (Rose.mem_preorder_trans hbelow hc)

end Node

/-! ### The calls that the rules speak of -/

/-- The rules, each with the method whose calls can offend against it. -/
def Rule.methods : List (String × String) :=
  [("FormulaAudit/ProvidedByMacos", "keg_only"), ("FormulaAudit/UsesFromMacos", "uses_from_macos")]

theorem Node.of_mem_callsWith {body call : Node} {method : String} {patterns : List Pattern}
    (h : call ∈ callsWith (some body) method patterns) :
    call ∈ body.preorder ∧ call.isCall ∧ call.name = some method := by
  obtain ⟨hmem, hcall, -⟩ := mem_callsWith_iff.mp h
  rw [isCallOf, Bool.and_eq_true, beq_iff_eq] at hcall
  exact ⟨hmem, hcall⟩

/-- An offense is a call, somewhere in the body, of the method that the rule is about. -/
theorem Rule.exists_call_of_mem_offenses {rule : Rule} (hrule : rule ∈ Rule.all) {f : Formula}
    {body : Node} {offense : String × Node} (h : offense ∈ (rule.offenses f body).value) :
    offense.2 ∈ body.preorder ∧ offense.2.isCall ∧
      ∃ method, (rule.name, method) ∈ Rule.methods ∧ offense.2.name = some method := by
  simp only [all, List.mem_cons, List.not_mem_nil, or_false] at hrule
  rcases hrule with rfl | rfl
  · rw [ProvidedByMacos.value_offenses] at h
    split at h
    · exact absurd h List.not_mem_nil
    · obtain ⟨call, hcall, rfl⟩ := List.mem_map.mp h
      obtain ⟨hmem, hiscall, hname⟩ := Node.of_mem_callsWith hcall
      exact ⟨hmem, hiscall, "keg_only", List.mem_cons_self, hname⟩
  · rw [UsesFromMacos.rule, UsesFromMacos.value_offenses] at h
    obtain ⟨call, hcall, hoffense⟩ := List.mem_flatMap.mp h
    rw [UsesFromMacos.snd_of_mem_examine hoffense]
    obtain ⟨hmem, hiscall, hname⟩ := Node.of_mem_callsWith hcall
    exact ⟨hmem, hiscall, "uses_from_macos", List.mem_cons_of_mem _ List.mem_cons_self, hname⟩

/-- A diagnostic of a cop is the problem that it has with an offense in the body. -/
theorem Cop.exists_offense_of_mem_evaluate {c : Cop} {f : Formula} {d : Diagnostic}
    (h : d ∈ (c.evaluate f).value) :
    ∃ body offense, f.body = some body ∧ offense ∈ (c.rule.offenses f body).value ∧
      d = c.problem f offense := by
  cases hbody : f.body with
  | none =>
    rw [evaluate, hbody] at h
    exact absurd h List.not_mem_nil
  | some body =>
    rw [value_evaluate hbody] at h
    obtain ⟨offense, hoffense, rfl⟩ := List.mem_map.mp h
    exact ⟨body, offense, rfl, hoffense, rfl⟩

/-! ### Audits of a text -/

/-- Where a diagnostic of a result comes from, under a policy, if the formula has this body. -/
structure Diagnostic.Traceable (p : Policy) (r : AuditResult) (body : Node) (d : Diagnostic) :
    Prop where
  cop_used : d.copName ∈ r.copsUsed
  severity_eq : d.severity = p.severityFor d.copName
  formulaName_eq : d.formulaName = r.formulaName
  path_eq : d.location.path = r.path
  /-- It has the place of a call below the body, of the method that its cop is about. -/
  call : ∃ call : Node, call ∈ body.descendants ∧ call.isCall ∧
    (∃ method, (d.copName, method) ∈ Rule.methods ∧ call.name = some method) ∧
    d.location = call.location

namespace Auditor

open Node (ofTree)

variable (a : Auditor)

theorem mem_diagnostics_audit_iff {f : Formula} {d : Diagnostic} :
    d ∈ (a.audit f).value.diagnostics ↔ ∃ c ∈ a.cops, d ∈ (c.evaluate f).value := by
  rw [value_audit, List.mem_mergeSort, List.mem_flatMap]

/-- A formula without a body has nothing to offend. -/
theorem diagnostics_audit_of_body_eq_none {f : Formula} (h : f.body = none) :
    (a.audit f).value.diagnostics = [] := by
  refine List.eq_nil_iff_forall_not_mem.mpr fun d hd => ?_
  obtain ⟨c, -, hd⟩ := a.mem_diagnostics_audit_iff.mp hd
  obtain ⟨body, _, hbody, -⟩ := Cop.exists_offense_of_mem_evaluate hd
  rw [h] at hbody
  cases hbody

/-- What a policy's cops find in a formula can be traced, if its body is no call and is all from
the file of the formula. -/
theorem traceable_of_mem_audit {p : Policy} {only : Option (List String)}
    (hcops : (p.select only).value = .ok a.cops) {f : Formula}
    (hkind : ∀ body, f.body = some body → body.kind = .other)
    (hpath : ∀ body, f.body = some body → ∀ n : Node, n ∈ body.preorder → n.location.path = f.path)
    {d : Diagnostic} (hd : d ∈ (a.audit f).value.diagnostics) :
    ∃ body, f.body = some body ∧ d.Traceable p (a.audit f).value body := by
  obtain ⟨c, hc, hd⟩ := a.mem_diagnostics_audit_iff.mp hd
  obtain ⟨rules, hsub, hrules⟩ := Policy.exists_rules_of_select hcops
  obtain ⟨rule, hrule, rfl⟩ := List.mem_map.mp (hrules ▸ hc)
  obtain ⟨body, offense, hbody, hoffense, rfl⟩ := Cop.exists_offense_of_mem_evaluate hd
  obtain ⟨hmem, hcall, hmethod⟩ := Rule.exists_call_of_mem_offenses (hsub.subset hrule) hoffense
  -- the rules look at the body too, so it has to be ruled out that it is the call
  have hbelow : offense.2 ∈ body.descendants := by
    rcases Node.mem_descendants_iff.mp hmem with heq | hbelow
    · rw [heq, Node.isCall, hkind body hbody] at hcall
      cases hcall
    · exact hbelow
  refine ⟨body, hbody, ?_⟩
  rw [value_audit]
  exact
    { cop_used := List.mem_map_of_mem hc
      severity_eq := rfl
      formulaName_eq := rfl
      path_eq := hpath body hbody _ hmem
      call := ⟨offense.2, hbelow, hcall, hmethod, rfl⟩ }

/-- **Every diagnostic can be traced.**  An audit by the cops that a policy selects fails on a
syntax error only.  Each diagnostic of its result is by one of these cops, with the severity that
the policy gives to it and with the formula and the path of the result; its place is that of a
call, of the method that the cop is about, below the body of the first class that defines a
formula.  So there are none if no class defines a formula, or if the first that does has no
statements, whatever else stands in the file. -/
theorem auditSource_traceable (p : Policy) (only : Option (List String)) (text : String)
    (path name : Option String) (hcops : (p.select only).value = .ok a.cops) :
    ((a.reader text).hasError →
        ∃ e, (a.auditSource text path name).value = .error e) ∧
      ((a.reader text).hasError = false →
        ∃ r, (a.auditSource text path name).value = .ok r ∧ r.path = path ∧
          (∀ d ∈ r.diagnostics, ∃ c body,
            (ofTree (.ofText path text) (a.reader text)).FirstDefinition c ∧
              c.body = some body ∧ d.Traceable p r body) ∧
          ((∀ n : Node, n ∈ (ofTree (.ofText path text) (a.reader text)).preorder →
            ¬n.DefinesFormula) → r.diagnostics = []) ∧
          ∀ s ∈ (a.reader text).preorder,
            (ofTree (.ofText path text) (a.reader text)).FirstDefinition
                (ofTree (.ofText path text) s) →
              Ruby.Tree.statements s = [] → r.diagnostics = []) := by
  constructor
  · intro herror
    rw [value_auditSource, Formula.ofSource, Node.parse, Node.parseTree, if_pos herror]
    exact ⟨_, rfl⟩
  · intro herror
    let src := Source.ofText path text
    let f := (Formula.ofRoot (ofTree src (a.reader text)) path name).value
    have hresult : (a.auditSource text path name).value = .ok (a.audit f).value :=
      a.value_auditSource_eq_ok herror
    have hpath : f.path = path := Formula.path_ofRoot
    have hkinds : ∀ body, f.body = some body → body.kind = .other := by
      intro body hbody
      obtain ⟨c, hfirst, hcbody⟩ := Formula.body_ofRoot_eq_some_iff.mp hbody
      exact hfirst.defines.kind_body hfirst.mem_preorder hcbody
    have hpaths : ∀ body, f.body = some body →
        ∀ n : Node, n ∈ body.preorder → n.location.path = f.path := by
      intro body hbody n hn
      obtain ⟨c, hfirst, hcbody⟩ := Formula.body_ofRoot_eq_some_iff.mp hbody
      rw [hpath]
      exact Node.path_location_of_mem (Node.mem_preorder_of_body hfirst.mem_preorder hcbody hn)
    refine ⟨_, hresult, ?_, fun d hd => ?_, fun hnone => ?_, fun s hs hfirst hempty => ?_⟩
    · rw [value_audit, hpath]
    · obtain ⟨body, hbody, htraceable⟩ := a.traceable_of_mem_audit hcops hkinds hpaths hd
      obtain ⟨c, hfirst, hcbody⟩ := Formula.body_ofRoot_eq_some_iff.mp hbody
      exact ⟨c, body, hfirst, hcbody, htraceable⟩
    · exact a.diagnostics_audit_of_body_eq_none (Formula.body_ofRoot_of_none hnone)
    · have hkind := hfirst.defines.kind_eq
      rw [Node.kind_ofTree] at hkind
      refine a.diagnostics_audit_of_body_eq_none ?_
      rw [Formula.body_ofRoot_of_first hfirst, Node.body_ofTree_classDecl hkind, hempty]
      rfl

/-! ### The sample -/

open Ruby.Tree (construct token)

/-- Two classes with the same calls, of which the second defines a formula. -/
def twoClassesText : String :=
  "class Q < B\n" ++
  "  keg_only :provided_by_macos\n" ++
  "  uses_from_macos \"q\"\n" ++
  "end\n" ++
  "class A < ::Formula\n" ++
  "  keg_only :provided_by_macos\n" ++
  "  uses_from_macos \"q\"\n" ++
  "end\n"

/-- One of the two classes, from an offset on, with the expression that it inherits from. -/
def classAt (start : Nat) (superclass : Ruby.Tree) : Ruby.Tree :=
  let line := superclass.value.stop + 1
  construct "class" start (line + 55) none [
    token "class" start,
    construct "constant" (start + 6) (start + 7) (some "name") [],
    construct "superclass" (start + 8) superclass.value.stop (some "superclass") [
      token "<" (start + 8), superclass],
    construct "body_statement" (line + 2) (line + 51) (some "body") [
      construct "call" (line + 2) (line + 29) none [
        construct "identifier" (line + 2) (line + 10) (some "method") [],
        construct "argument_list" (line + 11) (line + 29) (some "arguments") [
          construct "simple_symbol" (line + 11) (line + 29) none []]],
      construct "call" (line + 32) (line + 51) none [
        construct "identifier" (line + 32) (line + 47) (some "method") [],
        construct "argument_list" (line + 48) (line + 51) (some "arguments") [
          construct "string" (line + 48) (line + 51) none [
            token "\"" (line + 48),
            construct "string_content" (line + 49) (line + 50) none [],
            token "\"" (line + 50)]]]],
    token "end" (line + 52)]

/-- The concrete tree of `twoClassesText`. -/
def twoClasses : Ruby.Tree :=
  construct "program" 0 144 none [
    classAt 0 (construct "constant" 10 11 none []),
    classAt 68 (construct "scope_resolution" 78 87 none [
      token "::" 78,
      construct "constant" 80 87 (some "name") []])]

/-- Both rules are asked for, and the policy makes the second more serious. -/
theorem auditSource_traceable_twoClasses :
    let p : Policy := { settings := [("FormulaAudit/UsesFromMacos", { severity := .error })] }
    let only := some ["UsesFromMacos", "ProvidedByMacos"]
    let a : Auditor := { reader := fun _ => twoClasses, cops := Rule.all.map p.cop, now := default }
    (p.select only).value = .ok a.cops ∧
      ∃ r, (a.auditSource twoClassesText (some "a.rb") none).value = .ok r ∧
        (∀ d ∈ r.diagnostics, ∃ c body,
          (ofTree (.ofText (some "a.rb") twoClassesText) twoClasses).FirstDefinition c ∧
            c.body = some body ∧ d.Traceable p r body) ∧
        r.diagnostics.map (fun d => (d.copName, d.severity, d.location.line)) =
          [("FormulaAudit/ProvidedByMacos", .convention, 6),
            ("FormulaAudit/UsesFromMacos", .error, 7)] := by
  intro p only a
  have hcops : (p.select only).value = .ok a.cops := by
    have hunknown : Policy.unknown ["UsesFromMacos", "ProvidedByMacos"] = [] := by decide +kernel
    rw [Policy.select, hunknown]
    rfl
  obtain ⟨r, hr, -, htraceable, -, -⟩ :=
    (a.auditSource_traceable p only twoClassesText (some "a.rb") none hcops).2
      (by decide +kernel)
  refine ⟨hcops, r, hr, htraceable, ?_⟩
  rw [a.value_auditSource_eq_ok (by decide +kernel)] at hr
  cases hr
  let src := Source.ofText (some "a.rb") twoClassesText
  let f := (Formula.ofRoot (ofTree src twoClasses) (some "a.rb") none).value
  have hsorted : (a.cops.flatMap fun c => (c.evaluate f).value).Pairwise
      fun d e => Diagnostic.precedes d e := by decide +kernel
  rw [diagnostics_audit_of_sorted hsorted]
  decide +kernel

end Auditor

end TapLint
