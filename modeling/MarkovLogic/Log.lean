/-
**Log records.**

Main definitions:

* `LogLevel` — how much is recorded: nothing, warnings, information, or everything;
* `LogLevel.name` — its name;
* `LogRecord` — a level and a text;
* `LogLevel.admits` — a record of one level is kept at another.
-/

set_option autoImplicit false

namespace MarkovLogic

/-- How much is recorded; each level includes those before it. -/
inductive LogLevel where
  | off
  | warn
  | info
  | debug
deriving DecidableEq

/-- The place of the level in the order from silent to talkative. -/
def LogLevel.rank : LogLevel → Nat
  | .off => 0
  | .warn => 1
  | .info => 2
  | .debug => 3

/-- The name of the level. -/
def LogLevel.name : LogLevel → String
  | .off => "off"
  | .warn => "warn"
  | .info => "info"
  | .debug => "debug"

/-- A record of level `level` is kept when records up to `limit` are. -/
def LogLevel.admits (limit level : LogLevel) : Bool := level.rank ≤ limit.rank

@[simp] theorem LogLevel.admits_debug (level : LogLevel) : LogLevel.debug.admits level = true := by
  cases level <;> rfl

/-- One record. -/
structure LogRecord where
  level : LogLevel
  text : String
deriving DecidableEq

end MarkovLogic
