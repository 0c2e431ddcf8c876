/-
**Options of a learning run.**

Options are set one by one from a key and a text.  A text that does not read as a value of the key's
kind is refused with the key and the text as given; a value that reads but is out of range is
refused as the maximisation refuses it.

Main definitions:

* `LearnOptions` — the options;
* `OptionKey`, `OptionKey.ofName?` — the keys;
* `LearnOptions.set` — set one option.
-/
import MarkovLogic.Error.Learning
import MarkovLogic.Solver.Settings
import MarkovLogic.Text.Reading

set_option autoImplicit false

namespace MarkovLogic

/-- The options of a run: whether it starts from the network's weights or from zero, and the
settings of the maximisation. -/
structure LearnOptions where
  useInitialWeights : Bool
  settings : Settings

/-- The options of a caller who sets none. -/
def LearnOptions.standard : LearnOptions := ⟨false, Settings.standard⟩

/-- What a key may set. -/
inductive OptionKey where
  | initialWeights
  | gradientTolerance
  | costTolerance
  | iterationCap
  | lineSearch
  | memory
  | verbose
deriving DecidableEq

/-- The key of a name. -/
def OptionKey.ofName? : String → Option OptionKey
  | "initial_weights" => some initialWeights
  | "gtol" => some gradientTolerance
  | "ftol" => some costTolerance
  | "maxiter" => some iterationCap
  | "line_search" => some lineSearch
  | "lbfgs_mem" => some memory
  | "verbose" => some verbose
  | _ => none

namespace LearnOptions

/-- Read a value among white space. -/
def readValue {α : Type} (read? : String → Option α) (name text : String) :
    Except (LearningError Float) α :=
  match read? (Text.trim text) with
  | some value => .ok value
  | none => .error (.invalidOption name text "value could not be parsed")

/-- The options with other tolerances, if these are in range. -/
def withTolerances (o : LearnOptions) (gradient cost : Option Float) (iterations : Option Nat) :
    Except (LearningError Float) LearnOptions := do
  let tolerances ← (Tolerances.make gradient cost iterations).mapError .optimization
  return { o with settings := { o.settings with tolerances := tolerances } }

/-- Set the option of a key. -/
def setKey (o : LearnOptions) (name text : String) :
    OptionKey → Except (LearningError Float) LearnOptions
  | .initialWeights => do
    return { o with useInitialWeights := ← readValue Text.truth? name text }
  | .gradientTolerance => do
    let tolerance ← readValue Decimal.read? name text
    o.withTolerances (some tolerance) o.settings.tolerances.cost o.settings.tolerances.iterations
  | .costTolerance => do
    let tolerance ← readValue Decimal.read? name text
    o.withTolerances o.settings.tolerances.gradient (some tolerance)
      o.settings.tolerances.iterations
  | .iterationCap => do
    let cap ← readValue Text.count? name text
    o.withTolerances o.settings.tolerances.gradient o.settings.tolerances.cost (some cap)
  | .lineSearch => do
    let lineSearch ← (LineSearch.ofName text).mapError .optimization
    return { o with settings := { o.settings with lineSearch := lineSearch } }
  | .memory => do
    let memory ← readValue Text.count? name text
    let settings ← (Settings.make o.settings.tolerances o.settings.lineSearch o.settings.verbose
      (some memory)).mapError .optimization
    return { o with settings := settings }
  | .verbose => do
    let verbose ← readValue Text.truth? name text
    return { o with settings := { o.settings with verbose := verbose } }

/-- Set the option of a name. -/
def set (o : LearnOptions) (name text : String) : Except (LearningError Float) LearnOptions :=
  match OptionKey.ofName? name with
  | some key => o.setKey name text key
  | none => .error (.invalidOption name text "unknown option")

/-- Set options one after the other; the first that is refused is the error. -/
def setAll (o : LearnOptions) : List (String × String) → Except (LearningError Float) LearnOptions
  | [] => .ok o
  | (name, text) :: rest => do (← o.set name text).setAll rest

end LearnOptions

end MarkovLogic
