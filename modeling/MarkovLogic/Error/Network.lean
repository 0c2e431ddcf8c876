/-
**What a network may fail to answer.**

Main definitions:

* `NetworkError` — an unknown formula, a failed grounding, a failed look-up of evidence;
* `NetworkError.message` — its text.
-/

set_option autoImplicit false

namespace MarkovLogic

/-- A failure of the network that holds the formulas and the evidence. -/
inductive NetworkError where
  /-- There is no formula at this index. -/
  | unknownFormula (index formulas : Nat)
  /-- The groundings of a formula cannot be listed. -/
  | grounding (formula : Nat) (text : String)
  /-- The truth of a ground formula cannot be looked up. -/
  | evidence (text : String)
deriving DecidableEq

/-- The text of the failure. -/
def NetworkError.message : NetworkError → String
  | .unknownFormula index formulas => s!"Unknown formula F#{index}: model has {formulas} formulas"
  | .grounding formula text => s!"Grounding F#{formula} failed: {text}"
  | .evidence text => s!"Evidence lookup failed: {text}"

end MarkovLogic
