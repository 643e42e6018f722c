/-
Readers of YAML.

Reading a policy file as YAML is the work of a `YamlReader`, which gives a value
for a text or says why there is none.  A text in which a value would be a part of
itself has none here: values are finite.
-/
import TapLint.Data.Value

namespace TapLint

/-- What is wrong with a scalar that does not exist as a value. -/
inductive ScalarError where
  /-- An escape for a character that does not exist. -/
  | characterCode
  /-- A date or a time that does not exist. -/
  | moment (why : MomentError)
  /-- A number without digits. -/
  | emptyNumber
  | tooManyDigits (count : Nat)
  | notInteger (base : Nat) (text : String)
  | notNumber (text : String)
  | notTruthWord (text : String)
  | notTimestamp
  deriving Repr, DecidableEq

/-- The wording of an error. -/
def ScalarError.message : ScalarError → String
  | characterCode => "chr() arg not in range(0x110000)"
  | moment why => why.message
  | emptyNumber => "string index out of range"
  | tooManyDigits count => "Exceeds the limit (" ++ toString Text.maxDigits ++
      " digits) for integer string conversion: value has " ++ toString count ++
      " digits; use sys.set_int_max_str_digits() to increase the limit"
  | notInteger base text =>
    "invalid literal for int() with base " ++ toString base ++ ": " ++ Text.quoted text
  | notNumber text => "could not convert string to float: " ++ Text.quoted text
  | notTruthWord text => Text.quoted text
  | notTimestamp => "'NoneType' object has no attribute 'groupdict'"

/-- Why a text gives no value. -/
inductive YamlError where
  /-- The text is not YAML, or its nodes do not fit their tags; the complaint may
  have several lines. -/
  | malformed (complaint : String)
  | unreadable (why : ScalarError)
  deriving Repr, DecidableEq

/-- A way to read YAML. -/
abbrev YamlReader := String → Except YamlError Value

end TapLint
