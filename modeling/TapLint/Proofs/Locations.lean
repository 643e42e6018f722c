/-
Locations and texts agree with the bytes of the source.

A concrete node has offsets only.  Lines, columns and texts are read off the source when
it is converted, and the nodes that the concrete tree lacks take theirs from the first
and the last of the nodes that they are put around.  Either way the stretch of a
converted node goes from where one concrete node begins to where another ends
(`exists_stretch_of_mem`), and

* `Position.after_take` — a position counts line feeds, and the bytes after the last one;
* `Node.faithful_of_mem_walk` — so do the two ends of every node, whose text is what the
  source has between them, exactly so if they lie between characters.
-/
import TapLint.Proofs.Conversion
import TapLint.Proofs.Utf8

namespace TapLint

open Ruby (Label Tree)
open Ruby.Tree (construct token)
open Utf8 (bytes lossy strict)

/-! ### Positions -/

namespace Position

/-- The position of an offset, counted: the line feeds before it, and the bytes before it
back to the last line feed. -/
def counted (data : List UInt8) (i : Nat) : Position where
  line := 1 + (data.take i).count lineFeed
  column := 1 + ((data.take i).reverse.takeWhile (· != lineFeed)).length

theorem after_concat (bs : List UInt8) (b : UInt8) :
    after (bs ++ [b]) = (after bs).advance b := by
  rw [after, afterFrom, List.foldl_append, List.foldl_cons, List.foldl_nil]
  rfl

theorem after_eq (bs : List UInt8) :
    after bs =
      ⟨1 + bs.count lineFeed, 1 + (bs.reverse.takeWhile (· != lineFeed)).length⟩ := by
  -- the induction adds bytes at the end, so it goes over the reversed list
  rw [← List.reverse_reverse bs]
  induction bs.reverse with
  | nil => rfl
  | cons b bs ih =>
    rw [List.reverse_cons, after_concat, ih, advance]
    by_cases hb : b = lineFeed
    · simp [hb, Nat.add_assoc]
    · simp [hb, Nat.add_comm]

theorem after_take (data : List UInt8) (i : Nat) : after (data.take i) = counted data i :=
  after_eq (data.take i)

end Position

namespace Source

theorem position_ofBytes (path : Option String) {data : Array UInt8} {i : Nat}
    (h : i ≤ data.size) : (ofBytes path data).position i = .counted data.toList i := by
  have hi : (Position.table data.toList)[i]? = some (Position.after (data.toList.take i)) :=
    Position.table_getElem? data.toList i (by rwa [Array.length_toList])
  show (Position.table data.toList)[i]?.getD (Position.after data.toList) = _
  rw [hi, Option.getD_some, Position.after_take]

theorem position_ofText (path : Option String) {text : String} {i : Nat}
    (h : i ≤ text.utf8ByteSize) :
    (ofText path text).position i = .counted (bytes text) i :=
  position_ofBytes path (by rwa [← Array.length_toList, ← bytes, Utf8.length_bytes])

theorem slice_ofText (path : Option String) (text : String) (i j : Nat) :
    (ofText path text).slice i j = lossy ((bytes text).extract i j) := by
  show lossy (text.toUTF8.data.extract i j).toList = _
  rw [Array.toList_extract, bytes]

/-- A slice can be cut between characters. -/
theorem slice_append (path : Option String) {text : String} {i j k : Nat}
    (hi : String.Pos.Raw.IsValid text ⟨i⟩) (hj : String.Pos.Raw.IsValid text ⟨j⟩)
    (hk : String.Pos.Raw.IsValid text ⟨k⟩) (hij : i ≤ j) (hjk : j ≤ k) :
    (ofText path text).slice i k =
      (ofText path text).slice i j ++ (ofText path text).slice j k := by
  obtain ⟨cs, hcs⟩ := Utf8.exists_extract_eq_encode hi hj
  obtain ⟨ds, hds⟩ := Utf8.exists_extract_eq_encode hj hk
  have hjoined : (bytes text).extract i k = Utf8.encode (cs ++ ds) := by
    have hlength : k - i = (j - i) + (k - j) := by omega
    rw [Utf8.encode, List.flatMap_append, ← Utf8.encode, ← Utf8.encode, ← hcs, ← hds]
    rw [List.extract_eq_take_drop, hlength, List.take_add, List.drop_drop, Nat.add_sub_cancel' hij]
  rw [slice_ofText, slice_ofText, slice_ofText, hjoined, hcs, hds]
  rw [Utf8.lossy_encode, Utf8.lossy_encode, Utf8.lossy_encode, String.ofList_append]

end Source

namespace Node

/-! ### Stretches -/

/-- A node of a converted tree goes from where one concrete node begins to where another
ends, and its text is what the source has there. -/
theorem exists_stretch_of_mem {src : Source} {t : Tree} {n : Node}
    (h : n ∈ (ofTree src t).preorder) :
    ∃ r ∈ t.preorder, ∃ s ∈ t.preorder,
      n.location = .span src.path (locate src r.value) (locate src s.value) ∧
        n.text = src.slice r.value.start s.value.stop := by
  cases origin_of_mem h with
  | @concrete s hs => exact ⟨s, hs, s, hs, location_ofTree src s, text_ofTree src s⟩
  | @implied kind type first more _ hfrom =>
    obtain ⟨r, hr, hfirst⟩ := hfrom first List.mem_cons_self
    obtain ⟨s, hs, hlast⟩ := hfrom (more.getLastD first) List.getLastD_mem_cons
    have hstart : first.location = locate src r.value := by rw [hfirst, location_ofTree]
    have hstop : (more.getLastD first).location = locate src s.value := by
      rw [hlast, location_ofTree]
    refine ⟨r, hr, s, hs, ?_, ?_⟩
    · show Location.span src.path first.location (more.getLastD first).location = _
      rw [hstart, hstop]
    · show src.slice first.location.start (more.getLastD first).location.stop = _
      rw [hstart, hstop, locate, locate]

/-! ### Nodes and bytes -/

/-- A node that stands in a text where its location says and has the text that is there. -/
structure Faithful (path : Option String) (text : String) (n : Node) : Prop where
  path_eq : n.location.path = path
  begins_at : ⟨n.location.line, n.location.column⟩ = Position.counted (bytes text) n.location.start
  ends_at : ⟨n.location.endLine, n.location.endColumn⟩ =
    Position.counted (bytes text) n.location.stop
  /-- What is ill-formed between the two offsets is replaced. -/
  text_eq : n.text = lossy ((bytes text).extract n.location.start n.location.stop)
  /-- Nothing is if both lie between characters. -/
  exact : String.Pos.Raw.IsValid text ⟨n.location.start⟩ →
    String.Pos.Raw.IsValid text ⟨n.location.stop⟩ →
    strict ((bytes text).extract n.location.start n.location.stop) = .ok n.text ∧
      bytes n.text = (bytes text).extract n.location.start n.location.stop

/-- **Locations and texts agree with the source.**  If the offsets of a concrete tree lie
within the text, every node of the converted tree, those that the concrete tree lacks
included, has the lines and columns of its two offsets and the text between them; if both
lie between characters, that text is written with just the bytes between them. -/
theorem faithful_of_mem_walk (path : Option String) (text : String) (t : Tree)
    (h : ∀ s ∈ t.preorder, s.value.start ≤ text.utf8ByteSize ∧ s.value.stop ≤ text.utf8ByteSize) :
    ∀ n ∈ (ofTree (.ofText path text) t).walk, n.Faithful path text := by
  intro n hn
  rw [walk, Rose.walk_eq_preorder] at hn
  obtain ⟨r, hr, s, hs, hlocation, htext⟩ := exists_stretch_of_mem hn
  have hstart := Source.position_ofText path (h r hr).1
  have hstop := Source.position_ofText path (h s hs).2
  rw [Source.slice_ofText] at htext
  have hexact : String.Pos.Raw.IsValid text ⟨r.value.start⟩ →
      String.Pos.Raw.IsValid text ⟨s.value.stop⟩ →
      strict ((bytes text).extract r.value.start s.value.stop) = .ok n.text ∧
        bytes n.text = (bytes text).extract r.value.start s.value.stop := by
    intro hi hj
    obtain ⟨u, hstrict, hlossy, hbytes⟩ := Utf8.exists_strict_extract hi hj
    rw [htext, hlossy]
    exact ⟨hstrict, hbytes⟩
  constructor <;> simp only [hlocation, Location.span, locate]
  · rfl
  · exact hstart
  · exact hstop
  · exact htext
  · exact hexact

/-! ### A tree with letters of two bytes -/

/-- A call over two lines with two pairs, whose keys are not ASCII. -/
def accentedText : String := "f é: 1,\n  ü: 2"

/-- The concrete tree of `accentedText`. -/
def accented : Tree :=
  construct "call" 0 16 none [
    construct "identifier" 0 1 (some "method") [],
    construct "argument_list" 2 16 (some "arguments") [
      construct "pair" 2 7 none [
        construct "hash_key_symbol" 2 4 (some "key") [],
        token ":" 4,
        construct "integer" 6 7 (some "value") []],
      token "," 7,
      construct "pair" 11 16 none [
        construct "hash_key_symbol" 11 13 (some "key") [],
        token ":" 13,
        construct "integer" 15 16 (some "value") []]]]

/-- The hash around the two pairs begins in the first line and ends in the second, and
lies between characters. -/
theorem faithful_of_mem_walk_accented :
    (∀ s ∈ accented.preorder, s.value.start ≤ accentedText.utf8ByteSize ∧
      s.value.stop ≤ accentedText.utf8ByteSize) ∧
    ∃ n ∈ (ofTree (.ofText (some "a.rb") accentedText) accented).walk,
      n.kind = .hash ∧ n.location = ⟨some "a.rb", 1, 3, 2, 8, 2, 16⟩ ∧
      n.Faithful (some "a.rb") accentedText ∧
      strict ((bytes accentedText).extract 2 16) = .ok n.text := by
  have hoffsets : ∀ s ∈ accented.preorder, s.value.start ≤ accentedText.utf8ByteSize ∧
      s.value.stop ≤ accentedText.utf8ByteSize := by decide +kernel
  have hhash : ∃ n ∈ (ofTree (.ofText (some "a.rb") accentedText) accented).walk,
      n.kind = .hash ∧ n.location = ⟨some "a.rb", 1, 3, 2, 8, 2, 16⟩ := by decide +kernel
  obtain ⟨n, hn, hkind, hlocation⟩ := hhash
  have hfaithful := faithful_of_mem_walk (some "a.rb") accentedText accented hoffsets n hn
  have hexact := hfaithful.exact
  rw [hlocation] at hexact
  exact ⟨hoffsets, n, hn, hkind, hlocation, hfaithful,
    (hexact (by decide +kernel) (by decide +kernel)).1⟩

end Node

end TapLint
