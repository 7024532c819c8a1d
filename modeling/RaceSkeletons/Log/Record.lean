import RaceSkeletons.Log.Level

/-!
# Log records

A record of the log has a level, a message, and fields that programs can
read without parsing the message.
-/

namespace RaceSkeletons

/-- The value of a field. -/
inductive LogValue where
  | text (value : String)
  | number (value : Nat)
  | flag (value : Bool)
  deriving Repr, DecidableEq

/-- One record of the log. -/
structure LogRecord where
  level : LogLevel
  message : String
  fields : List (String × LogValue) := []
  deriving Repr, DecidableEq

end RaceSkeletons
