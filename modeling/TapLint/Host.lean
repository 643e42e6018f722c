/-
What a program runs on.

A host bounds how deep calls may be nested, and it may refuse to look at a path or
to take a text.

* `Host.callsFor` — how deep the calls may be nested in an audit;
* `Host.firstRefusal?` — whether some paths can be looked at, one after the other.
-/
import TapLint.Files.Tree

namespace TapLint

/-- What a host lets a program do. -/
structure Host where
  /-- How many calls may be nested in the conversion of a tree. -/
  calls : Nat
  /-- How many there may be if a worker of a pool makes the conversion. -/
  callsInPool : Nat := calls
  /-- How many values may be nested in a value that is shown. -/
  levels : Nat := calls
  /-- What it says of a path that it does not let a program look at. -/
  refusal? : Path → Option String := fun _ => none
  /-- What it says of a text that no file can hold. -/
  unwritable? : String → Option String := fun _ => none
  /-- What it says of a text that cannot be printed. -/
  unprintable? : String → Option String := fun _ => none

namespace Host

/-- How many calls may be nested when some workers audit so many files. -/
def callsFor (host : Host) (workers : Int) (count : Nat) : Nat :=
  if 1 < workers ∧ 1 < count then host.callsInPool else host.calls

/-- What a host says of the first path that it does not let be looked at, unless a path
before it leads nowhere. -/
def firstRefusal? (host : Host) (files : Files) (paths : List String) : Option String :=
  ((paths.map Path.ofString).find? fun p => (host.refusal? p).isSome || !files.has p).bind
    host.refusal?

end Host

end TapLint
