/-
Comments are invisible.

The conversion leaves comments out wherever it takes children by being constructs, and meets
none where it takes them by field.  So a tree and the same tree without its comments come out
the same:

* `Ruby.Tree.withoutComments` — the tree that is left when all comments are taken out;
* `Node.assemble_filter` — one node is made of its converted children as if no comment stood
  among them;
* `Node.convert_withoutComments` — hence, by recursion, so is the whole tree;
* `Node.parseTree_withoutComments` — and it is accepted or rejected alike, if the comments
  themselves could be read.

The main statement is `comments_invisible`.
-/
import Mathlib.Data.List.Find
import TapLint.Proofs.Folding
import TapLint.Proofs.Loading
import TapLint.Proofs.SyntaxErrors

namespace TapLint

open Ruby (Label Tree)

/-! ### Lists whose ends pass a test -/

section Ends

variable {α : Type} {p : α → Bool} {l : List α}

theorem head?_filter_of_head? (h : ∀ a ∈ l.head?, p a) : (l.filter p).head? = l.head? := by
  cases l with
  | nil => rfl
  | cons a l => rw [List.filter_cons_of_pos (h a rfl), List.head?_cons, List.head?_cons]

theorem getLast?_filter_of_getLast? (h : ∀ a ∈ l.getLast?, p a) :
    (l.filter p).getLast? = l.getLast? := by
  rw [← List.head?_reverse, ← List.filter_reverse, ← List.head?_reverse]
  refine head?_filter_of_head? fun a ha => h a ?_
  rwa [List.head?_reverse] at ha

/-- Two ends that are apart stay apart. -/
theorem two_le_length_filter_iff (hfirst : ∀ a ∈ l.head?, p a) (hlast : ∀ a ∈ l.getLast?, p a) :
    2 ≤ (l.filter p).length ↔ 2 ≤ l.length := by
  cases l with
  | nil => exact Iff.rfl
  | cons a l =>
    rw [List.filter_cons_of_pos (hfirst a rfl)]
    cases l with
    | nil => exact Iff.rfl
    | cons b l =>
      -- the last member is kept beside the first
      have hmem : (b :: l).getLast (List.cons_ne_nil b l) ∈ (b :: l).filter p := by
        refine List.mem_filter.mpr ⟨List.getLast_mem _, hlast _ ?_⟩
        rw [List.getLast?_cons_cons]
        exact List.getLast?_eq_some_getLast _
      have hpos := List.length_pos_of_mem hmem
      simp only [List.length_cons]
      omega

end Ends

namespace Ruby

/-- Whether a node is none of the comments. -/
def Label.isVisible (l : Label) : Bool :=
  !l.isComment

theorem Label.isVisible_of_isPart {l : Label} (h : l.isPart) : l.isVisible := by
  rw [isPart, Bool.and_eq_true] at h
  exact h.2

namespace Tree

/-! ### Taking comments out -/

/-- A tree without the comments below its root and all that stands in them. -/
def withoutComments (t : Tree) : Tree :=
  t.fold fun l below => .node l (below.filter (·.value.isVisible))

@[simp] theorem value_withoutComments (t : Tree) : t.withoutComments.value = t.value := by
  cases t with
  | node l cs => rfl

theorem children_withoutComments (t : Tree) :
    t.withoutComments.children =
      (t.children.filter (·.value.isVisible)).map withoutComments := by
  cases t with
  | node l cs =>
    rw [withoutComments, Rose.fold_node, Rose.children_node, List.filter_map]
    exact congrArg (List.map _) (List.filter_congr fun c _ => by
      show (withoutComments c).value.isVisible = c.value.isVisible
      rw [value_withoutComments])

/-- What is left below the root is no comment. -/
theorem isVisible_of_mem_withoutComments {s t : Tree} (h : s ∈ t.withoutComments.preorder) :
    s = t.withoutComments ∨ s.value.isVisible := by
  induction t using Rose.induct with
  | node l cs ih =>
    rcases Rose.mem_preorder_iff.mp h with rfl | ⟨d, hd, hs⟩
    · exact .inl rfl
    · rw [children_withoutComments] at hd
      obtain ⟨c, hc, rfl⟩ := List.mem_map.mp hd
      obtain ⟨hc, hvisible⟩ := List.mem_filter.mp hc
      rcases ih c hc hs with rfl | hs
      · rw [value_withoutComments]
        exact .inr hvisible
      · exact .inr hs

/-- What the grammar promises about comments: none fills a field, and a literal with delimiters
neither begins nor ends with one. -/
@[mk_iff]
structure CommentsApart (t : Tree) : Prop where
  field : t.value.isComment → t.value.field = none
  ends : t.value.type = "string" ∨ t.value.type = "delimited_symbol" →
    (∀ c ∈ t.children.head?, c.value.isVisible) ∧ ∀ c ∈ t.children.getLast?, c.value.isVisible

instance (t : Tree) : Decidable t.CommentsApart :=
  decidable_of_iff' _ (commentsApart_iff t)

end Tree

end Ruby

namespace Node

variable {src : Source}

/-! ### One node -/

section Children

variable {cs : List Converted}

theorem fieldOf_filter (h : ∀ c ∈ cs, c.label.isComment → c.label.field = none) (name : String) :
    fieldOf name (cs.filter (·.label.isVisible)) = fieldOf name cs := by
  rw [fieldOf, fieldOf, List.find?_filter]
  refine List.find?_congr fun c hc => Bool.eq_iff_iff.mpr ?_
  cases hcomment : c.label.isComment with
  | true => simp [h c hc hcomment]
  | false => simp [Label.isVisible, hcomment]

/-- Comments are no parts. -/
theorem filter_isPart_filter (cs : List Converted) (q : Converted → Bool) :
    (cs.filter (·.label.isVisible)).filter (fun c => c.label.isPart && q c) =
      cs.filter fun c => c.label.isPart && q c := by
  rw [List.filter_filter]
  refine List.filter_congr fun c _ => ?_
  cases hpart : c.label.isPart with
  | true => simp [Label.isVisible_of_isPart hpart]
  | false => simp

theorem statementsOf_filter (h : ∀ c ∈ cs, c.label.isComment → c.label.field = none) :
    statementsOf (cs.filter (·.label.isVisible)) = statementsOf cs := by
  rw [statementsOf, statementsOf, fieldOf_filter h, fieldOf_filter h]
  simp only [Bool.and_assoc]
  exact filter_isPart_filter cs _

theorem delimitedContent_filter (l : Label)
    (hends : (∀ c ∈ cs.head?, c.label.isVisible) ∧ ∀ c ∈ cs.getLast?, c.label.isVisible) :
    delimitedContent src l (cs.filter (·.label.isVisible)) = delimitedContent src l cs := by
  rw [delimitedContent, delimitedContent, head?_filter_of_head? hends.1,
    getLast?_filter_of_getLast? hends.2]
  simp only [two_le_length_filter_iff hends.1 hends.2]

end Children

theorem kindOf_eq_string {type : String} : kindOf type = .string ↔ type = "string" := by
  unfold kindOf
  grind

/-- A node is made of its converted children as if no comment stood among them. -/
theorem assemble_filter (src : Source) (l : Label) {cs : List Converted}
    (hfield : ∀ c ∈ cs, c.label.isComment → c.label.field = none)
    (hends : l.type = "string" ∨ l.type = "delimited_symbol" →
      (∀ c ∈ cs.head?, c.label.isVisible) ∧ ∀ c ∈ cs.getLast?, c.label.isVisible) :
    assemble src l (cs.filter (·.label.isVisible)) = assemble src l cs := by
  have hparts : (cs.filter (·.label.isVisible)).filter (·.label.isPart) =
      cs.filter (·.label.isPart) := by
    simpa using filter_isPart_filter cs fun _ => true
  have hnode : ∀ parts, assembleNode src l (cs.filter (·.label.isVisible)) parts =
      assembleNode src l cs parts := by
    intro parts
    rw [assembleNode, assembleNode]
    cases hkind : (factsOf src l).kind with
    | call => simp only [ofCall, fieldOf_filter hfield]
    | pair => simp only [ofPair, fieldOf_filter hfield]
    | classDecl => simp only [ofClass, fieldOf_filter hfield, statementsOf_filter hfield]
    | string =>
      have htype : l.type = "string" := kindOf_eq_string.mp hkind
      simp only [delimitedContent_filter l (hends (.inl htype))]
    | symbol =>
      simp only [symbolContent]
      split
      next htype => rw [delimitedContent_filter l (hends (.inr (eq_of_beq htype)))]
      next => rfl
    | hash | array | constant | block | other => rfl
  rw [assemble, assemble, hparts, hnode]

/-! ### The whole tree -/

/-- The conversion does not see comments. -/
theorem convert_withoutComments (src : Source) {t : Tree}
    (h : t.Everywhere Ruby.Tree.CommentsApart) :
    convert src t.withoutComments = convert src t := by
  induction t using Rose.induct with
  | node l cs ih =>
    have hchildren : (Ruby.Tree.withoutComments (.node l cs)).children.map (convert src) =
        (cs.map (convert src)).filter (·.label.isVisible) := by
      rw [Ruby.Tree.children_withoutComments, List.map_map, List.filter_map]
      simp only [Function.comp_def, label_convert]
      refine List.map_congr_left fun c hc => ?_
      have hc : c ∈ cs := List.mem_of_mem_filter hc
      exact ih c hc (h.child hc)
    rw [convert_eq, hchildren, Ruby.Tree.value_withoutComments, convert_eq src (.node l cs)]
    refine assemble_filter src l ?_ ?_
    · intro c hc hcomment
      obtain ⟨d, hd, rfl⟩ := List.mem_map.mp hc
      rw [label_convert] at hcomment ⊢
      exact (h.child hd).self.field hcomment
    · intro htype
      have hmapped : ∀ o : Option Tree, (∀ c ∈ o, c.value.isVisible) →
          ∀ c ∈ o.map (convert src), c.label.isVisible := by
        intro o hvisible c hc
        obtain ⟨d, hd, rfl⟩ := Option.map_eq_some_iff.mp hc
        rw [label_convert]
        exact hvisible d hd
      obtain ⟨hfirst, hlast⟩ := h.self.ends htype
      rw [List.head?_map, List.getLast?_map]
      exact ⟨hmapped _ hfirst, hmapped _ hlast⟩

theorem ofTree_withoutComments (src : Source) {t : Tree}
    (h : t.Everywhere Ruby.Tree.CommentsApart) :
    ofTree src t.withoutComments = ofTree src t := by
  rw [ofTree, convert_withoutComments src h, ofTree]

/-- No comment gets into the converted tree. -/
theorem type_ne_comment_of_mem {src : Source} {t : Tree} {n : Node}
    (hroot : t.value.isComment = false) (h : t.Everywhere Ruby.Tree.CommentsApart)
    (hn : n ∈ (ofTree src t).walk) : n.type ≠ Ruby.Tree.commentType := by
  -- every node comes from the tree without comments, where only the root could be one
  rw [walk, Rose.walk_eq_preorder, ← ofTree_withoutComments src h] at hn
  cases origin_of_mem hn with
  | @concrete s hs =>
    have hvisible : s.value.isComment = false := by
      rcases Ruby.Tree.isVisible_of_mem_withoutComments hs with rfl | hvisible
      · rw [Ruby.Tree.value_withoutComments]
        exact hroot
      · rwa [Label.isVisible, Bool.not_eq_true'] at hvisible
    rw [type_ofTree]
    rwa [Label.isComment, beq_eq_false_iff_ne] at hvisible
  | implied himplied _ =>
    cases himplied with
    | hash _ =>
      show "hash" ≠ Ruby.Tree.commentType
      decide
    | body =>
      show bodyType ≠ Ruby.Tree.commentType
      decide

end Node

/-! ### Errors -/

namespace Ruby.Tree

/-- If the tree is a comment, then it could be read. -/
def CommentRead (t : Tree) : Prop :=
  t.value.isComment → t.hasError = false

instance (t : Tree) : Decidable t.CommentRead :=
  inferInstanceAs (Decidable (_ → _))

theorem commentRead_of_not_hasError {t : Tree} (h : t.hasError = false) :
    t.Everywhere CommentRead :=
  fun _ hs _ => hasError_eq_false_of_mem h hs

theorem hasError_withoutComments {t : Tree} (h : t.Everywhere CommentRead) :
    t.withoutComments.hasError = t.hasError := by
  induction t using Rose.induct with
  | node l cs ih =>
    have hbelow : (Rose.children (withoutComments (.node l cs))).any hasError =
        cs.any hasError := by
      rw [children_withoutComments, List.any_map, List.any_filter, Bool.eq_iff_iff,
        List.any_eq_true, List.any_eq_true]
      refine exists_congr fun c => and_congr_right fun hc => ?_
      rw [Bool.and_eq_true, Function.comp_apply, ih c hc (h.child hc)]
      refine and_iff_right_of_imp fun herror => ?_
      cases hcomment : c.value.isComment with
      | false =>
        rw [Label.isVisible, hcomment]
        rfl
      | true =>
        rw [(h.child hc).self hcomment] at herror
        exact absurd herror Bool.false_ne_true
    rw [hasError_eq, hbelow, value_withoutComments, hasError_eq (.node l cs)]
    rfl

/-- What the nodes carry that are errors by themselves, in reading order. -/
def errors (t : Tree) : List Label :=
  (t.preorder.map Rose.value).filter Label.isError

theorem errors_eq (t : Tree) :
    t.errors = [t.value].filter Label.isError ++ t.children.flatMap errors := by
  rw [errors, Rose.preorder_eq, List.map_cons, ← List.singleton_append, List.filter_append,
    List.map_flatMap, List.filter_flatMap]
  rfl

theorem map_value_firstError? (t : Tree) : t.firstError?.map Rose.value = t.errors.head? := by
  rw [firstError?_eq, errors, List.head?_filter, List.find?_map]
  rfl

theorem errors_eq_nil {t : Tree} (h : t.hasError = false) : t.errors = [] := by
  refine List.filter_eq_nil_iff.mpr fun l hl => ?_
  obtain ⟨s, hs, rfl⟩ := List.mem_map.mp hl
  rw [isError_eq_false_of_mem h hs]
  exact Bool.false_ne_true

theorem errors_withoutComments {t : Tree} (h : t.Everywhere CommentRead) :
    t.withoutComments.errors = t.errors := by
  induction t using Rose.induct with
  | node l cs ih =>
    have hvisible : ∀ c ∈ cs.filter (·.value.isVisible), errors (withoutComments c) = errors c :=
      fun c hc => ih c (List.mem_of_mem_filter hc) (h.child (List.mem_of_mem_filter hc))
    have hbelow : (Rose.children (withoutComments (.node l cs))).flatMap errors =
        cs.flatMap errors := by
      rw [children_withoutComments, List.flatMap_map, Rose.children_node,
        List.flatMap_congr hvisible]
      refine flatMap_filter_eq fun c hc hcomment => errors_eq_nil ((h.child hc).self ?_)
      rwa [Label.isVisible, Bool.not_eq_false'] at hcomment
    rw [errors_eq, hbelow, value_withoutComments, errors_eq (.node l cs), Rose.children_node]

end Ruby.Tree

namespace Node

/-- A tree is accepted or rejected as it would be without its comments. -/
theorem parseTree_withoutComments (src : Source) {t : Tree}
    (h : t.Everywhere Ruby.Tree.CommentsApart) (hread : t.Everywhere Ruby.Tree.CommentRead) :
    parseTree src t.withoutComments = parseTree src t := by
  have hculprit : (t.withoutComments.firstError?.getD t.withoutComments).value =
      (t.firstError?.getD t).value := by
    have hvalue : ∀ s : Tree, (s.firstError?.getD s).value = s.errors.head?.getD s.value := by
      intro s
      rw [← Ruby.Tree.map_value_firstError?]
      cases s.firstError? <;> rfl
    rw [hvalue, hvalue, Ruby.Tree.errors_withoutComments hread, Ruby.Tree.value_withoutComments]
  simp only [parseTree, Ruby.Tree.hasError_withoutComments hread, hculprit,
    ofTree_withoutComments src h]

end Node

/-! ### Audits -/

/-- The reader that leaves comments out of its trees. -/
def TreeReader.withoutComments (reader : TreeReader) : TreeReader :=
  fun text => (reader text).withoutComments

/-- The auditor who does not get to see any comments. -/
def Auditor.withoutComments (a : Auditor) : Auditor :=
  { a with reader := a.reader.withoutComments }

theorem Formula.ofSource_withoutComments {reader : TreeReader} {text : String}
    (h : (reader text).Everywhere Ruby.Tree.CommentsApart)
    (hread : (reader text).Everywhere Ruby.Tree.CommentRead) (path name : Option String) :
    ofSource reader.withoutComments text path name = ofSource reader text path name := by
  have hparse : Node.parse reader.withoutComments path text = Node.parse reader path text :=
    Node.parseTree_withoutComments (.ofText path text) h hread
  rw [ofSource, hparse, ofSource]

theorem Auditor.auditSource_withoutComments {a : Auditor} {text : String}
    (h : (a.reader text).Everywhere Ruby.Tree.CommentsApart)
    (hread : (a.reader text).Everywhere Ruby.Tree.CommentRead) (path name : Option String) :
    a.withoutComments.auditSource text path name = a.auditSource text path name := by
  have hsource : Formula.ofSource a.withoutComments.reader text path name =
      Formula.ofSource a.reader text path name :=
    Formula.ofSource_withoutComments h hread path name
  rw [auditSource, hsource, auditSource]
  rfl

/-- **Comments are invisible.**  If no comment fills a field and no literal with delimiters begins
or ends with one, then a tree comes out as it does without its comments, and no node of the result
is a comment.  So the formula has the same body, with the same dependencies and the same
diagnostics.  And a text gives the same formula or error, the same audit and the same log,
whether the comments of its tree are there or not, as long as they are none of its errors. -/
theorem comments_invisible (src : Source) (t : Tree) (hroot : t.value.isComment = false)
    (h : t.Everywhere Ruby.Tree.CommentsApart) :
    Node.ofTree src t.withoutComments = Node.ofTree src t ∧
      (∀ n ∈ (Node.ofTree src t).walk, n.type ≠ Ruby.Tree.commentType) ∧
      (∀ (a : Auditor) (path name : Option String),
        let f := (Formula.ofRoot (Node.ofTree src t) path name).value
        let f' := (Formula.ofRoot (Node.ofTree src t.withoutComments) path name).value
        f'.body = f.body ∧ Dependencies.collect f'.body = Dependencies.collect f.body ∧
          (a.audit f').value.diagnostics = (a.audit f).value.diagnostics) ∧
      ∀ (a : Auditor) (text : String) (path name : Option String), a.reader text = t →
        t.hasError = false ∨ t.Everywhere Ruby.Tree.CommentRead →
        Formula.ofSource a.withoutComments.reader text path name =
            Formula.ofSource a.reader text path name ∧
          a.withoutComments.auditSource text path name = a.auditSource text path name := by
  have htree : Node.ofTree src t.withoutComments = Node.ofTree src t :=
    Node.ofTree_withoutComments src h
  refine ⟨htree, fun n => Node.type_ne_comment_of_mem hroot h, ?_, ?_⟩
  · intro a path name
    rw [htree]
    exact ⟨rfl, rfl, rfl⟩
  · rintro a text path name rfl herrors
    have hread : (a.reader text).Everywhere Ruby.Tree.CommentRead := by
      rcases herrors with hnone | hread
      · exact Ruby.Tree.commentRead_of_not_hasError hnone
      · exact hread
    exact ⟨Formula.ofSource_withoutComments h hread path name,
      Auditor.auditSource_withoutComments h hread path name⟩

/-! ### A class full of comments -/

open Ruby.Tree (construct token)

/-- A class with comments before it, after the sign of its superclass, before its statements and
between two pairs. -/
def commentedText : String :=
  "# z\nclass A < # b\n  Formula\n  # c\n" ++
    "  uses_from_macos \"q\" => :build, # d\n    \"b\" => :test\nend\n"

/-- The concrete tree of `commentedText`. -/
def commented : Tree :=
  construct "program" 0 92 none [
    construct "comment" 0 3 none [],
    construct "class" 4 91 none [
      token "class" 4,
      construct "constant" 10 11 (some "name") [],
      construct "superclass" 12 27 (some "superclass") [
        token "<" 12,
        construct "comment" 14 17 none [],
        construct "constant" 20 27 none []],
      construct "comment" 30 33 none [],
      construct "body_statement" 36 87 (some "body") [
        construct "call" 36 87 none [
          construct "identifier" 36 51 (some "method") [],
          construct "argument_list" 52 87 (some "arguments") [
            construct "pair" 52 65 none [
              construct "string" 52 55 (some "key") [token "\"" 52, token "\"" 54],
              token "=>" 56,
              construct "simple_symbol" 59 65 (some "value") []],
            token "," 65,
            construct "comment" 67 70 none [],
            construct "pair" 75 87 none [
              construct "string" 75 78 (some "key") [token "\"" 75, token "\"" 77],
              token "=>" 79,
              construct "simple_symbol" 82 87 (some "value") []]]]],
      token "end" 88]]

/-- An auditor who reads every text as `commented`. -/
def commentReader : Auditor :=
  { reader := fun _ => commented, cops := Rule.all.map (Policy.cop {}), now := default }

/-- Without its comments the text has the same call with one argument and the same offense. -/
theorem comments_invisible_commented :
    let src := Source.ofText (some "a.rb") commentedText
    commented.Everywhere Ruby.Tree.CommentsApart ∧
      commented.withoutComments.preorder.length + 4 = commented.preorder.length ∧
      Node.ofTree src commented.withoutComments = Node.ofTree src commented ∧
      (Node.callsOf (some (Node.ofTree src commented)) "uses_from_macos").map
          (·.arguments.map Node.kind) = [[.hash]] ∧
      ∃ r, (commentReader.auditSource commentedText (some "a.rb") none).value = .ok r ∧
        (commentReader.withoutComments.auditSource commentedText (some "a.rb") none).value = .ok r ∧
        r.diagnostics.map (fun d => (d.message, d.location.line)) =
          [(UsesFromMacos.notProvidedMessage "q", 5)] := by
  intro src
  have happart : commented.Everywhere Ruby.Tree.CommentsApart := by decide +kernel
  have hclean : commented.hasError = false := by decide +kernel
  obtain ⟨htree, -, -, haudit⟩ := comments_invisible src commented (by decide) happart
  obtain ⟨-, haudit⟩ := haudit commentReader commentedText (some "a.rb") none rfl (.inl hclean)
  refine ⟨happart, by decide +kernel, htree, by decide +kernel, ?_⟩
  let f := (Formula.ofRoot (Node.ofTree src commented) (some "a.rb") none).value
  have hresult : (commentReader.auditSource commentedText (some "a.rb") none).value =
      .ok (commentReader.audit f).value := Auditor.value_auditSource_eq_ok commentReader hclean
  refine ⟨_, hresult, by rw [haudit]; exact hresult, ?_⟩
  have hsorted : (commentReader.cops.flatMap fun c => (c.evaluate f).value).Pairwise
      fun d e => Diagnostic.precedes d e := by decide +kernel
  rw [Auditor.diagnostics_audit_of_sorted hsorted]
  decide +kernel

end TapLint
