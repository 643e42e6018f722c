/-
Auditing a file is auditing its text.

A file is audited by way of its bytes and a text is audited as it is, and each way makes up the
name of the formula for itself.  They come to the same:

* `readText_of_text`, `exists_readText_eq_error_iff` — what is read from a file, and which files
  cannot be read;
* `ofSource_default` — a formula that is given no name has the one that its file would give it,
  though it is taken from the printed path.

The main statement is `auditFile_eq_auditSource`.
-/
import TapLint.Proofs.ConcreteParts
import TapLint.Proofs.Decoding
import TapLint.Proofs.DiagnosticOrder
import TapLint.Proofs.LineEnds
import TapLint.Proofs.PrintedPaths

namespace TapLint

open Utf8 (bytes)
open Text (SameLines withLineFeeds)

/-- Whether a path leads to a file that holds some bytes. -/
def Files.Holds (files : Files) (path : Path) (bs : List UInt8) : Prop :=
  files.entry? path = some (.file bs)

theorem Files.bytes?_eq_some_iff {files : Files} {path : Path} {bs : List UInt8} :
    files.bytes? path = some bs ↔ files.Holds path bs := by
  rw [bytes?, Option.bind_eq_some_iff, Holds]
  constructor
  · rintro ⟨e, he, hbytes⟩
    cases e with
    | file contents =>
      cases hbytes
      exact he
    | directory entries => cases hbytes
  · intro h
    exact ⟨.file bs, h, rfl⟩

namespace Formula

variable {files : Files} {path : Path} {limit : Int} {bs : List UInt8}

/-! ### Reading a file -/

theorem readText_of_not_holds (h : ¬∃ bs, files.Holds path bs) :
    readText files limit path = .error (.missing path.shown) := by
  have hnone : files.bytes? path = none := by
    refine Option.eq_none_iff_forall_ne_some.mpr fun bs hbs => ?_
    exact h ⟨bs, Files.bytes?_eq_some_iff.mp hbs⟩
  rw [readText, hnone]

theorem readText_of_large (h : files.Holds path bs) (hsize : limit * 1024 < bs.length) :
    readText files limit path = .error (.tooLarge bs.length path.shown) := by
  rw [readText, Files.bytes?_eq_some_iff.mpr h]
  exact if_pos hsize

/-- A file within the limit is read as its bytes are. -/
theorem readText_of_small (h : files.Holds path bs) (hsize : bs.length ≤ limit * 1024) :
    readText files limit path =
      match Text.ofFileBytes bs with
      | .error why => .error (.undecodable path.shown why)
      | .ok text => .ok text := by
  rw [readText, Files.bytes?_eq_some_iff.mpr h]
  exact if_neg (by omega)

theorem exists_readText_of_malformed (h : files.Holds path bs) (hsize : bs.length ≤ limit * 1024)
    (hmalformed : ¬∃ t, bs = bytes t) :
    ∃ why, readText files limit path = .error (.undecodable path.shown why) := by
  rw [readText_of_small h hsize, Text.ofFileBytes]
  cases hstrict : Utf8.strict bs with
  | error why => exact ⟨why, rfl⟩
  | ok t => exact absurd ⟨t, Utf8.strict_eq_ok_iff.mp hstrict⟩ hmalformed

theorem readText_of_text {t : String} (h : files.Holds path (bytes t))
    (hsize : (bytes t).length ≤ limit * 1024) :
    readText files limit path = .ok (withLineFeeds t) := by
  rw [readText_of_small h hsize, Text.ofFileBytes, Utf8.strict_eq_ok_iff.mpr rfl,
    ← Text.unifyLineEnds_eq]
  rfl

/-- A file cannot be read if it is not there, if it is too large and if its bytes are not those
of a text, and for no other reason. -/
theorem exists_readText_eq_error_iff :
    (∃ why, readText files limit path = .error why) ↔
      (¬∃ bs, files.Holds path bs) ∨
        ∃ bs, files.Holds path bs ∧ (limit * 1024 < bs.length ∨ ¬∃ t, bs = bytes t) := by
  by_cases hholds : ∃ bs, files.Holds path bs
  · obtain ⟨bs, h⟩ := hholds
    have hone : ∀ other, files.Holds path other → other = bs := by
      intro other hother
      rw [Files.Holds, h] at hother
      cases hother
      rfl
    by_cases hsize : limit * 1024 < bs.length
    · exact iff_of_true ⟨_, readText_of_large h hsize⟩ (.inr ⟨bs, h, .inl hsize⟩)
    have hsmall : bs.length ≤ limit * 1024 := by omega
    by_cases htext : ∃ t, bs = bytes t
    · obtain ⟨t, rfl⟩ := htext
      rw [readText_of_text h hsmall]
      refine iff_of_false ?_ ?_
      · rintro ⟨why, ⟨⟩⟩
      · rintro (hnone | ⟨other, hother, hbad⟩)
        · exact hnone ⟨_, h⟩
        · rw [hone other hother] at hbad
          rcases hbad with hlarge | hmalformed
          · exact hsize hlarge
          · exact hmalformed ⟨t, rfl⟩
    · obtain ⟨why, hwhy⟩ := exists_readText_of_malformed h hsmall htext
      exact iff_of_true ⟨_, hwhy⟩ (.inr ⟨bs, h, .inr htext⟩)
  · exact iff_of_true ⟨_, readText_of_not_holds hholds⟩ (.inl hholds)

/-! ### Reading a formula -/

variable {reader : TreeReader}

theorem path_ofRoot {root : Node} {path name : Option String} :
    (ofRoot root path name).value.path = path := by
  rw [ofRoot]
  split <;> rfl

theorem body_ofRoot {root : Node} {path name : Option String} :
    (ofRoot root path name).value.body = (declaration? (some root)).bind Node.body := by
  rw [ofRoot]
  split <;> rfl

/-- A text without syntax errors is the formula that its tree defines. -/
theorem value_ofSource {text : String} {path name : Option String}
    (h : (reader text).hasError = false) :
    (ofSource reader text path name).value =
      .ok (ofRoot (Node.ofTree (.ofText path text) (reader text)) path name).value := by
  rw [ofSource, Node.parse, Node.parseTree, if_neg (Bool.eq_false_iff.mp h)]
  rfl

theorem exists_ofFile_eq_unreadable_iff :
    (∃ why, (ofFile reader files limit path).value = .error (.unreadable why)) ↔
      ∃ why, readText files limit path = .error why := by
  rw [ofFile]
  cases readText files limit path with
  | error why => exact iff_of_true ⟨why, rfl⟩ ⟨why, rfl⟩
  | ok text =>
    refine iff_of_false ?_ (by rintro ⟨why, ⟨⟩⟩)
    rintro ⟨why, h⟩
    rw [Logged.value_bind] at h
    cases hsource : (ofSource reader text (some path.shown) (some path.stem)).value <;>
      rw [hsource] at h <;> cases h

/-- A formula from a file that can be read is the formula from its text. -/
theorem value_ofFile {text : String} (h : readText files limit path = .ok text) :
    (ofFile reader files limit path).value =
      (ofSource reader text (some path.shown) (some path.stem)).value.mapError .malformed := by
  rw [ofFile, h]
  dsimp only
  rw [Logged.value_bind]
  cases (ofSource reader text (some path.shown) (some path.stem)).value <;> rfl

/-- A formula that is given no name is called like the file that its path names. -/
theorem ofSource_default {path : Path} (h : path.IsPlain) (text : String) :
    ofSource reader text (some path.shown) none =
      ofSource reader text (some path.shown) (some path.stem) := by
  have hroot : ∀ root, ofRoot root (some path.shown) none =
      ofRoot root (some path.shown) (some path.stem) := by
    intro root
    simp only [ofRoot, defaultName, Path.ofString_shown h, Option.getD_none, Option.getD_some]
  rw [ofSource, ofSource]
  simp only [hroot]

end Formula

namespace Auditor

variable (a : Auditor)

theorem value_auditSource (text : String) (path name : Option String) :
    (a.auditSource text path name).value =
      (Formula.ofSource a.reader text path name).value.map fun f => (a.audit f).value := by
  rw [auditSource, Logged.value_bind]
  cases (Formula.ofSource a.reader text path name).value <;> rfl

/-- A text without syntax errors is audited as the formula that its tree defines. -/
theorem value_auditSource_eq_ok {text : String} {path name : Option String}
    (h : (a.reader text).hasError = false) :
    (a.auditSource text path name).value = .ok (a.audit (Formula.ofRoot
      (Node.ofTree (.ofText path text) (a.reader text)) path name).value).value := by
  rw [value_auditSource, Formula.value_ofSource h]
  rfl

theorem value_auditFileAs (files : Files) (path : Path) (name : String) :
    (a.auditFileAs files path name).value =
      (Formula.ofFile a.reader files a.limit path).value.map fun f => (a.audit f).value := by
  rw [auditFileAs, Logged.value_bind]
  cases (Formula.ofFile a.reader files a.limit path).value with
  | error why => rfl
  | ok f =>
    dsimp only
    split <;> rfl

/-- The audit of a file that holds a text is the audit of the text with line feeds for its line
ends, under the printed path of the file. -/
theorem value_auditFile {files : Files} {path t : String}
    (h : files.Holds (.ofString path) (bytes t)) (hsize : (bytes t).length ≤ a.limit * 1024) :
    (a.auditFile files path).value =
      (a.auditSource (withLineFeeds t) (some (Path.ofString path).shown) none).value.mapError
        .malformed := by
  rw [auditFile, value_auditFileAs, Formula.value_ofFile (Formula.readText_of_text h hsize),
    value_auditSource, Formula.ofSource_default (Path.isPlain_ofString path)]
  cases (Formula.ofSource a.reader (withLineFeeds t) _ _).value <;> rfl

/-- **Auditing a file is auditing its text.**  A file cannot be loaded just if it is not there,
if it is over the limit, or if its bytes are not those of a text.  Any other file is audited as
its text is, with line feeds for its line ends and under the printed path: with the same result,
or with the same syntax error.  So what lines end with does not show in an audit. -/
theorem auditFile_eq_auditSource (files : Files) (path : String) :
    ((∃ why, (Formula.ofFile a.reader files a.limit (.ofString path)).value =
          .error (.unreadable why)) ↔
        (¬∃ bs, files.Holds (.ofString path) bs) ∨
          ∃ bs, files.Holds (.ofString path) bs ∧
            (a.limit * 1024 < bs.length ∨ ¬∃ t, bs = bytes t)) ∧
      (∀ t, files.Holds (.ofString path) (bytes t) → (bytes t).length ≤ a.limit * 1024 →
        (a.auditFile files path).value =
          (a.auditSource (withLineFeeds t) (some (Path.ofString path).shown) none).value.mapError
            .malformed) ∧
      ∀ files' t t', files.Holds (.ofString path) (bytes t) →
        files'.Holds (.ofString path) (bytes t') →
        (bytes t).length ≤ a.limit * 1024 → (bytes t').length ≤ a.limit * 1024 →
        SameLines t.toList t'.toList →
        (a.auditFile files path).value = (a.auditFile files' path).value := by
  refine ⟨?_, fun t h hsize => value_auditFile a h hsize, ?_⟩
  · rw [Formula.exists_ofFile_eq_unreadable_iff, Formula.exists_readText_eq_error_iff]
  · intro files' t t' h h' hsize hsize' hlines
    have hread : withLineFeeds t = withLineFeeds t' := by
      rw [← Text.unifyLineEnds_eq, ← Text.unifyLineEnds_eq, Text.unifyLineEnds_eq_iff.mpr hlines]
    rw [value_auditFile a h hsize, value_auditFile a h' hsize', hread]

/-! ### The sample -/

open Ruby.Tree (construct token)

/-- A formula with one call. -/
def shortText : String := "class A < Formula\n  keg_only :provided_by_macos\nend\n"

/-- The concrete tree of `shortText`. -/
def shortTree : Ruby.Tree :=
  construct "program" 0 52 none [
    construct "class" 0 51 none [
      token "class" 0,
      construct "constant" 6 7 (some "name") [],
      construct "superclass" 8 17 (some "superclass") [
        token "<" 8,
        construct "constant" 10 17 none []],
      construct "body_statement" 20 47 (some "body") [
        construct "call" 20 47 none [
          construct "identifier" 20 28 (some "method") [],
          construct "argument_list" 29 47 (some "arguments") [
            construct "simple_symbol" 29 47 none []]]],
      token "end" 48]]

/-- An auditor who can read one text only. -/
def strictAuditor : Auditor :=
  { reader := fun text =>
      if text = shortText then shortTree
      else .node { (default : Ruby.Label) with flagged := true } []
    cops := Rule.all.map (Policy.cop {})
    now := default }

/-- A directory with one file. -/
def oneFile (contents : List UInt8) : Files :=
  { root := .directory [("a.rb", .file contents)], here := [] }

/-- The text that the auditor can read, with other line ends. -/
def shortEndingWith (e : List Char) : String :=
  String.ofList (Text.endingWith e shortText.toList)

/-- The text is read with either line end, and a byte that no character begins with is not. -/
theorem auditFile_eq_auditSource_short :
    (∃ r, (strictAuditor.auditFile (oneFile (bytes (shortEndingWith ['\r', '\n'])))
          "./a.rb").value = .ok r ∧
        (strictAuditor.auditFile (oneFile (bytes (shortEndingWith ['\r']))) "./a.rb").value =
          .ok r ∧
        r.path = some "a.rb" ∧ r.formulaName = some "a" ∧
        r.diagnostics.map (fun d => (d.copName, d.location.line)) =
          [("FormulaAudit/ProvidedByMacos", 2)]) ∧
      ∃ why, (Formula.ofFile strictAuditor.reader (oneFile [0xFF]) strictAuditor.limit
        (.ofString "./a.rb")).value = .error (.unreadable why) := by
  have hholds : ∀ bs, (oneFile bs).Holds (.ofString "./a.rb") bs := fun bs => by rfl
  constructor
  · obtain ⟨-, htext, hlines⟩ := auditFile_eq_auditSource strictAuditor
      (oneFile (bytes (shortEndingWith ['\r', '\n']))) "./a.rb"
    have hsize : (bytes (shortEndingWith ['\r', '\n'])).length ≤ strictAuditor.limit * 1024 := by
      decide +kernel
    have hsize' : (bytes (shortEndingWith ['\r'])).length ≤ strictAuditor.limit * 1024 := by
      decide +kernel
    have hplain : '\r' ∉ shortText.toList := by decide +kernel
    have hsame : SameLines (shortEndingWith ['\r', '\n']).toList
        (shortEndingWith ['\r']).toList := by
      rw [shortEndingWith, shortEndingWith, String.toList_ofList, String.toList_ofList]
      exact Text.sameLines_endingWith (by decide) (by decide) hplain
    have hread : withLineFeeds (shortEndingWith ['\r', '\n']) = shortText :=
      Text.withLineFeeds_endingWith (by decide) hplain
    let f := (Formula.ofRoot (Node.ofTree (.ofText (some "a.rb") shortText) shortTree)
      (some "a.rb") none).value
    have hresult : (strictAuditor.auditFile (oneFile (bytes (shortEndingWith ['\r', '\n'])))
        "./a.rb").value = .ok (strictAuditor.audit f).value := by
      rw [htext _ (hholds _) hsize, hread, value_auditSource_eq_ok _ (by decide +kernel)]
      rfl
    refine ⟨_, hresult, ?_, by decide +kernel, by decide +kernel, ?_⟩
    · rw [← hlines _ _ _ (hholds _) (hholds _) hsize hsize' hsame]
      exact hresult
    · have hsorted : (strictAuditor.cops.flatMap fun c => (c.evaluate f).value).Pairwise
          fun d e => Diagnostic.precedes d e := by decide +kernel
      rw [diagnostics_audit_of_sorted hsorted]
      decide +kernel
  · refine (auditFile_eq_auditSource strictAuditor (oneFile [0xFF]) "./a.rb").1.mpr
      (.inr ⟨[0xFF], hholds _, .inr ?_⟩)
    rintro ⟨t, ht⟩
    have hread := Utf8.strict_eq_ok_iff.mpr ht
    have hbad : (Utf8.strict [0xFF]).toOption = none := by decide +kernel
    rw [hread] at hbad
    cases hbad

end Auditor

end TapLint
