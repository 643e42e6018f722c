/-
Spans of time.
-/
import TapLint.Data.Binary64

namespace TapLint

/-- A span of time in seconds. -/
inductive Duration where
  | whole (seconds : Int)
  | fraction (seconds : Binary64)
  deriving Repr, DecidableEq

namespace Duration

/-- The whole milliseconds of a span.  The product is rounded before its fraction
is dropped. -/
def milliseconds : Duration → Int
  | whole n => n * 1000
  | fraction x => (x.times 1000).truncate

end Duration

end TapLint
