/-
What the rules find, as lists over the calls of a body.

A rule goes through the calls of one method and says something of each.  Here each
rule is given by the calls that it looks at, which are met in the order of the
walk, and by what it says of one of them:

* `ProvidedByMacos.value_offenses`, `UsesFromMacos.value_offenses` — the offenses
  of the two rules;
* `UsesFromMacos.value_examine` — what the second says of one call.
-/
import TapLint.Cop.Catalogue
import TapLint.Proofs.Preorder

namespace TapLint

namespace Node

/-- The calls that a search finds, in the order of the recursive preorder. -/
theorem callsWith_eq (body : Node) (method : String) (patterns : List Pattern) :
    callsWith (some body) method patterns =
      (body.preorder.filter fun (n : Node) => n.isCallOf method).filter (fitsAll patterns) := by
  rw [callsWith, callsOf, walk?, walk, Rose.walk_eq_preorder]

/-- A search finds the calls of a method whose arguments fit, wherever they stand. -/
theorem mem_callsWith_iff {body call : Node} {method : String} {patterns : List Pattern} :
    call ∈ callsWith (some body) method patterns ↔
      call ∈ body.preorder ∧ call.isCallOf method ∧ fitsAll patterns call := by
  rw [callsWith_eq, List.mem_filter, List.mem_filter, and_assoc]

theorem callsWith_sublist (body : Node) (method : String) (patterns : List Pattern) :
    (callsWith (some body) method patterns).Sublist body.preorder := by
  rw [callsWith_eq]
  exact List.filter_sublist.trans List.filter_sublist

end Node

/-- The diagnostics of a cop are one for each offense that its rule finds. -/
theorem Cop.value_evaluate {c : Cop} {f : Formula} {body : Node} (h : f.body = some body) :
    (c.evaluate f).value = (c.rule.offenses f body).value.map (c.problem f) := by
  rw [Cop.evaluate, h]
  rfl

namespace ProvidedByMacos

/-- Nothing is said of a registered formula, since its first call ends the search; of any other
one is said the same for each call. -/
theorem report_eq (name : String) (calls : List Node) :
    report name calls =
      if Provided.isRegistered name then [] else calls.map fun call => (message, call) := by
  induction calls with
  | nil => rw [report, List.map_nil, ite_self]
  | cons call calls ih =>
    rw [report, ih]
    cases Provided.isRegistered name <;> rfl

theorem value_offenses (f : Formula) (body : Node) :
    (rule.offenses f body).value =
      if Provided.isRegistered f.name then []
      else (Node.callsWith (some body) "keg_only" [.literal ":provided_by_macos"]).map
        fun call => (message, call) :=
  report_eq f.name _

end ProvidedByMacos

namespace UsesFromMacos

theorem value_examine (requiresLinux : Bool) (call : Node) :
    (examine requiresLinux call).value =
      (if requiresLinux then [(linuxMessage, call)] else []) ++
        match call.dependency with
        | .ok dependency =>
          if Provided.byMacos dependency.name then []
          else [(notProvidedMessage dependency.name, call)]
        | .error _ => [] := by
  rw [examine]
  cases call.dependency with
  | error why => simp
  | ok dependency =>
    simp only
    split <;> simp

/-- All that is said of a call is said about that call. -/
theorem snd_of_mem_examine {requiresLinux : Bool} {call : Node} {offense : String × Node}
    (h : offense ∈ (examine requiresLinux call).value) : offense.2 = call := by
  rw [value_examine] at h
  rcases List.mem_append.mp h with h | h
  · split at h <;> simp_all
  · split at h
    · split at h <;> simp_all
    · exact absurd h List.not_mem_nil

theorem value_offenses (hasDependency : Formula → Logged (String → Bool))
    (f : Formula) (body : Node) :
    ((ruleWith hasDependency).offenses f body).value =
      (Node.callsWith (some body) "uses_from_macos" [.quotedString]).flatMap fun call =>
        (examine ((hasDependency f).value "linux") call).value := by
  simp [ruleWith, offenses, List.flatMap_def]

end UsesFromMacos

end TapLint
