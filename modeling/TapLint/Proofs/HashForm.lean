/-
The two forms of a dependency.

`uses_from_macos "q"` and `uses_from_macos "q" => :build` name one dependency.  The rule
comes to the two by different ways: a call is chosen by the text of its arguments, and the
name is read off the first key, of which the hash around the pairs knows only through its
first child.  What joins them is that the text of the hash goes on from that of the key:

* `OpensQuoted.append` — what opens with a quoted string still does when it goes on;
* `Node.OpensRun.text_implicitHash` — the text of the hash begins with that of the key;
* `Node.head?_keys_implicitHash` — the first key of the hash is that of the first pair.

The main statement is `same_verdict_of_bare_and_hash`.
-/
import TapLint.Proofs.Folding
import TapLint.Proofs.Spellings
import TapLint.Proofs.UsesFromMacos
import TapLint.Proofs.Views

namespace TapLint

open Ruby (Tree)
open Ruby.Tree (construct token)

theorem OpensQuoted.append {s : String} (h : OpensQuoted s) (t : String) :
    OpensQuoted (s ++ t) := by
  obtain ⟨inside, rest, hne, hbreak, hs⟩ := h
  refine ⟨inside, rest ++ t.toList, hne, hbreak, ?_⟩
  simp [hs]

namespace Node

/-! ### The hash around a run of pairs -/

theorem head?_keys_implicitHash {src : Source} {first s : Node} {more : List Node}
    (hpair : first.kind = .pair) (hkey : first.key = some s) :
    (implicitHash src first more).keys.head? = some s := by
  rw [head?_keys, firstKey]
  show ((first :: more).find? _).bind key = some s
  rw [List.find?_cons_of_pos (by rw [hpair, hkey]; rfl), Option.bind_some, hkey]

/-- A quoted string that opens a run of pairs in a text: it is the key of the first of them, and
its own text is what stands there. -/
structure OpensRun (path : Option String) (text : String) (s first : Node) (more : List Node) :
    Prop where
  kind_eq : s.kind = .string
  text_eq : s.text = (Source.ofText path text).slice s.location.start s.location.stop
  quoted : OpensQuoted s.text
  pair : first.kind = .pair
  key : first.key = some s
  begins : first.location.start = s.location.start
  /-- The run does not end before its first key does. -/
  ends : s.location.stop ≤ (more.getLastD first).location.stop
  start_valid : String.Pos.Raw.IsValid text ⟨s.location.start⟩
  stop_valid : String.Pos.Raw.IsValid text ⟨s.location.stop⟩
  end_valid : String.Pos.Raw.IsValid text ⟨(more.getLastD first).location.stop⟩

/-- In a converted tree it is enough to look at the concrete key and the concrete pairs. -/
theorem opensRun_ofTree {path : Option String} {text : String} {k p : Tree} (ps : List Tree)
    (hkind : kindOf k.value.type = .string)
    (hquoted : OpensQuoted (textOf (.ofText path text) k.value))
    (hpair : kindOf p.value.type = .pair) (hkey : p.field? "key" = some k)
    (hbegins : p.value.start = k.value.start)
    (hends : k.value.stop ≤ (ps.getLastD p).value.stop)
    (hstart : String.Pos.Raw.IsValid text ⟨k.value.start⟩)
    (hstop : String.Pos.Raw.IsValid text ⟨k.value.stop⟩)
    (hend : String.Pos.Raw.IsValid text ⟨(ps.getLastD p).value.stop⟩) :
    let src := Source.ofText path text
    OpensRun path text (ofTree src k) (ofTree src p) (ps.map (ofTree src)) := by
  intro src
  have hlast : ((ps.map (ofTree src)).getLastD (ofTree src p)).location.stop =
      (ps.getLastD p).value.stop := by
    rw [List.getLastD_eq_getLast?, List.getLast?_map, Option.getD_map,
      ← List.getLastD_eq_getLast?, location_ofTree]
    rfl
  constructor
  case kind_eq => rw [kind_ofTree, hkind]
  case text_eq =>
    rw [text_ofTree, location_ofTree]
    rfl
  case quoted => rwa [text_ofTree]
  case pair => rw [kind_ofTree, hpair]
  case key => rw [key_ofTree_pair hpair, hkey, Option.map_some]
  case end_valid => rwa [hlast]
  case ends =>
    rw [hlast, location_ofTree]
    exact hends
  all_goals simpa only [location_ofTree]

namespace OpensRun

variable {path : Option String} {text : String} {s first : Node} {more : List Node}

theorem start_le_stop (h : OpensRun path text s first more) :
    s.location.start ≤ s.location.stop := by
  by_contra hlt
  -- a stretch that ends before it begins has no text, but the key has one
  have hempty : s.text = "" := by
    rw [h.text_eq, Source.slice_ofText, List.extract_eq_take_drop, Nat.sub_eq_zero_of_le (by omega)]
    rfl
  obtain ⟨inside, rest, -, -, hquoted⟩ := h.quoted
  rw [hempty] at hquoted
  cases hquoted

/-- The text of the hash is that of the key, and what follows it in the run. -/
theorem text_implicitHash (h : OpensRun path text s first more) :
    ∃ rest, (implicitHash (.ofText path text) first more).text = s.text ++ rest := by
  refine ⟨(Source.ofText path text).slice s.location.stop (more.getLastD first).location.stop, ?_⟩
  show (Source.ofText path text).slice first.location.start (more.getLastD first).location.stop = _
  rw [h.begins, h.text_eq]
  exact Source.slice_append path h.start_valid h.stop_valid h.end_valid h.start_le_stop h.ends

theorem opensQuoted_implicitHash (h : OpensRun path text s first more) :
    OpensQuoted (implicitHash (.ofText path text) first more).text := by
  obtain ⟨rest, htext⟩ := h.text_implicitHash
  rw [htext]
  exact h.quoted.append rest

theorem isLiteral (h : OpensRun path text s first more) : s.isLiteral := by
  rw [Node.isLiteral, h.kind_eq]
  rfl

theorem dependencyName_implicitHash (h : OpensRun path text s first more) :
    (implicitHash (.ofText path text) first more).dependencyName = .ok s.content :=
  dependencyName_of_head?_keys rfl (head?_keys_implicitHash h.pair h.key) h.isLiteral

end OpensRun

/-! ### Calls -/

theorem dependency_of_arguments {call a : Node} {rest : List Node} {name : String}
    (harguments : call.arguments = a :: rest) (hname : a.dependencyName = .ok name) :
    call.dependency = .ok ⟨name, a.kind == .hash, a⟩ := by
  rw [dependency, harguments]
  simp only [List.head?_cons, dependencyName?, hname]
  rfl

end Node

namespace UsesFromMacos

open Node (OpensRun implicitHash ofTree callsWith)

variable {path : Option String} {text : String} {s first : Node} {more rest : List Node}

theorem mem_callsWith_of_opensQuoted {call a : Node} (hcall : call.isCallOf "uses_from_macos")
    (harguments : call.arguments = a :: rest) (ha : OpensQuoted a.text) {body : Node}
    (hmem : call ∈ body.walk) :
    call ∈ callsWith (some body) "uses_from_macos" [.quotedString] := by
  have hquoted : ∃ b ∈ call.arguments, OpensQuoted b.text :=
    ⟨a, harguments ▸ List.mem_cons_self, ha⟩
  rw [Node.walk, Rose.walk_eq_preorder] at hmem
  exact Node.mem_callsWith_iff.mpr ⟨hmem, hcall, fitsAll_quotedString.mpr hquoted⟩

/-- The messages for a call that names a dependency. -/
def messagesFor (requiresLinux : Bool) (name : String) : List String :=
  (if requiresLinux then [linuxMessage] else []) ++
    if Provided.byMacos name then [] else [notProvidedMessage name]

theorem value_examine_of_dependency {call : Node} {d : Dependency}
    (h : call.dependency = .ok d) (requiresLinux : Bool) :
    (examine requiresLinux call).value =
      (messagesFor requiresLinux d.name).map fun message => (message, call) := by
  rw [value_examine, h, messagesFor, List.map_append]
  congr 1
  · split <;> rfl
  · show (if Provided.byMacos d.name then [] else _) = _
    split <;> rfl

/-- **The bare form and the hash form get the same verdict.**  Let a quoted string open a run of
pairs, whatever their values and the further pairs are, and let one call of `uses_from_macos` be
given the string, and another the hash around the run, both followed by the same arguments.
Then both calls are chosen wherever they stand, name the same dependency, and get the same
messages in the same order, whatever the formula depends on.  So do the bodies of two formulas
that differ in such a call, if they depend on Linux both or neither. -/
theorem same_verdict_of_bare_and_hash {bare hashed : Node} (h : OpensRun path text s first more)
    (hbare : bare.isCallOf "uses_from_macos") (hhashed : hashed.isCallOf "uses_from_macos")
    (hbareArguments : bare.arguments = s :: rest)
    (hhashedArguments : hashed.arguments = implicitHash (.ofText path text) first more :: rest) :
    (∀ body : Node, bare ∈ body.walk →
        bare ∈ callsWith (some body) "uses_from_macos" [.quotedString]) ∧
      (∀ body : Node, hashed ∈ body.walk →
        hashed ∈ callsWith (some body) "uses_from_macos" [.quotedString]) ∧
      (∃ name, bare.dependency = .ok ⟨name, false, s⟩ ∧
        hashed.dependency = .ok ⟨name, true, implicitHash (.ofText path text) first more⟩ ∧
        ∀ requiresLinux,
          (examine requiresLinux bare).value =
              (messagesFor requiresLinux name).map (fun message => (message, bare)) ∧
            (examine requiresLinux hashed).value =
              (messagesFor requiresLinux name).map fun message => (message, hashed)) ∧
      ∀ (hasDependency : Formula → Logged (String → Bool)) (f f' : Formula) (body body' : Node)
        (before after : List Node),
        (hasDependency f).value "linux" = (hasDependency f').value "linux" →
        callsWith (some body) "uses_from_macos" [.quotedString] = before ++ bare :: after →
        callsWith (some body') "uses_from_macos" [.quotedString] = before ++ hashed :: after →
        ((ruleWith hasDependency).offenses f body).value.map Prod.fst =
          ((ruleWith hasDependency).offenses f' body').value.map Prod.fst := by
  have hnamed : bare.dependency = .ok ⟨s.content, false, s⟩ := by
    have hname := Node.dependencyName_of_isLiteral h.isLiteral
    rw [Node.dependency_of_arguments hbareArguments hname, h.kind_eq]
    rfl
  have hnamed' : hashed.dependency =
      .ok ⟨s.content, true, implicitHash (.ofText path text) first more⟩ :=
    Node.dependency_of_arguments hhashedArguments h.dependencyName_implicitHash
  refine ⟨fun body => mem_callsWith_of_opensQuoted hbare hbareArguments h.quoted,
    fun body => mem_callsWith_of_opensQuoted hhashed hhashedArguments h.opensQuoted_implicitHash,
    ⟨s.content, hnamed, hnamed', fun requiresLinux => ?_⟩, ?_⟩
  · exact ⟨value_examine_of_dependency hnamed requiresLinux,
      value_examine_of_dependency hnamed' requiresLinux⟩
  · intro hasDependency f f' body body' before after hlinux hcalls hcalls'
    rw [value_offenses, value_offenses, hcalls, hcalls', hlinux]
    simp only [List.flatMap_append, List.flatMap_cons, List.map_append]
    rw [value_examine_of_dependency hnamed, value_examine_of_dependency hnamed']
    simp only [List.map_map, Function.comp_def]

/-! ### A call with a hash -/

/-- A call with two pairs, the first with a key that is not ASCII, and a block. -/
def builtWithText : String := "uses_from_macos \"é\" => :build, \"r\" => :test, &b"

/-- The key of the first pair. -/
def builtWithKey : Tree :=
  construct "string" 16 20 (some "key") [
    token "\"" 16, construct "string_content" 17 19 none [], token "\"" 19]

/-- The first pair. -/
def builtWith : Tree :=
  construct "pair" 16 30 none [
    builtWithKey, token "=>" 21, construct "simple_symbol" 24 30 (some "value") []]

/-- The second pair. -/
def testedWith : Tree :=
  construct "pair" 32 44 none [
    construct "string" 32 35 (some "key") [
      token "\"" 32, construct "string_content" 33 34 none [], token "\"" 34],
    token "=>" 36, construct "simple_symbol" 39 44 (some "value") []]

/-- The block. -/
def builtWithBlock : Tree :=
  construct "block_argument" 46 48 none [token "&" 46, construct "identifier" 47 48 none []]

/-- A call of the text, with some arguments and the block. -/
def callGiven (arguments : List Tree) : Tree :=
  construct "call" 0 48 none [
    construct "identifier" 0 15 (some "method") [],
    construct "argument_list" 16 48 (some "arguments") (arguments ++ [builtWithBlock])]

/-- The name comes from the key, and macOS does not provide it in either form. -/
theorem same_verdict_of_bare_and_hash_builtWith :
    let src := Source.ofText none builtWithText
    let s := ofTree src builtWithKey
    let hash := implicitHash src (ofTree src builtWith) [ofTree src testedWith]
    let bare := ofTree src (callGiven [builtWithKey])
    let hashed := ofTree src (callGiven [builtWith, testedWith])
    OpensRun none builtWithText s (ofTree src builtWith) [ofTree src testedWith] ∧
      bare.isCallOf "uses_from_macos" ∧ hashed.isCallOf "uses_from_macos" ∧
      bare.arguments = [s, ofTree src builtWithBlock] ∧
      hashed.arguments = [hash, ofTree src builtWithBlock] ∧
      hashed ∈ callsWith (some hashed) "uses_from_macos" [.quotedString] ∧
      bare.dependency = .ok ⟨"é", false, s⟩ ∧ hashed.dependency = .ok ⟨"é", true, hash⟩ ∧
      (examine true bare).value =
        [(linuxMessage, bare), (notProvidedMessage "é", bare)] ∧
      (examine true hashed).value =
        [(linuxMessage, hashed), (notProvidedMessage "é", hashed)] := by
  intro src s hash bare hashed
  have hrun : OpensRun none builtWithText s (ofTree src builtWith) [ofTree src testedWith] :=
    Node.opensRun_ofTree [testedWith] rfl (by decide +kernel) rfl rfl rfl (by decide +kernel)
      (by decide +kernel) (by decide +kernel) (by decide +kernel)
  have hbare : bare.isCallOf "uses_from_macos" := by decide +kernel
  have hhashed : hashed.isCallOf "uses_from_macos" := by decide +kernel
  have hs : s.isPair = false := by decide +kernel
  have hblock : (ofTree src builtWithBlock).isPair = false := by decide +kernel
  have hfirst : (ofTree src builtWith).isPair := by decide +kernel
  have hsecond : (ofTree src testedWith).isPair := by decide +kernel
  have hbareArguments : bare.arguments = [s, ofTree src builtWithBlock] := by
    rw [Node.arguments_ofTree_call rfl]
    show Node.foldPairs src [s, ofTree src builtWithBlock] = _
    simp [Node.foldPairs_eq_foldRuns, Node.foldRuns, hs, hblock]
  have hhashedArguments : hashed.arguments = [hash, ofTree src builtWithBlock] := by
    rw [Node.arguments_ofTree_call rfl]
    show Node.foldPairs src [ofTree src builtWith, ofTree src testedWith, _] = _
    simp [Node.foldPairs_eq_foldRuns, Node.foldRuns, hfirst, hsecond, hblock, hash]
  obtain ⟨-, hchosen, ⟨name, hname, hname', hsaid⟩, -⟩ :=
    same_verdict_of_bare_and_hash hrun hbare hhashed hbareArguments hhashedArguments
  have hcontent : s.content = "é" := by decide +kernel
  have hnamed := Node.dependency_of_arguments hbareArguments
    (Node.dependencyName_of_isLiteral hrun.isLiteral)
  rw [hname, hcontent] at hnamed
  cases (Except.ok.inj hnamed : Dependency.mk name false s = ⟨"é", _, s⟩)
  have hmessages : messagesFor true "é" = [linuxMessage, notProvidedMessage "é"] := by
    decide +kernel
  have hsaid := hsaid true
  rw [hmessages] at hsaid
  refine ⟨hrun, hbare, hhashed, hbareArguments, hhashedArguments, hchosen hashed ?_, hname, hname',
    hsaid.1, hsaid.2⟩
  rw [Node.walk, Rose.walk_eq_preorder]
  exact Rose.self_mem_preorder hashed

end UsesFromMacos

end TapLint
