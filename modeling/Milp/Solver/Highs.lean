import Milp.Solver.Problem
import Milp.Solver.Outcome

/-!
The solver library as the backend sees it. The backend asks it four things: the kind of an
option (none for a name it does not know), whether a scratch instance takes a value for an
option, whether it refuses a problem when the problem is handed over, and what a solve of a problem
under a list of options reports (nothing when the solve cannot run). The library is a parameter
of everything that solves; `Highs.Lawful` names the facts about it that the backend relies on.

An option is checked against the library before the backend keeps it (`Highs.checkOption`).
-/
namespace Milp

/-- What the backend uses of the solver library. -/
structure Highs where
  optionKind : String → Option OptionKind
  accepts : String → OptionValue → Bool
  refuses : Problem → Bool
  solve : Problem → List (String × OptionValue) → Option Report

/-- The output switches set before the buffered options: both on for a console log, both off
otherwise. -/
def outputSwitches (console : Bool) : List (String × OptionValue) :=
  [("output_flag", .bool console), ("log_to_console", .bool console)]

/-- The library's documented options that the backend sets on its own: the output switches are
bool options that take either value. -/
structure Highs.Lawful (h : Highs) : Prop where
  switches : ∀ console, ∀ p ∈ outputSwitches console,
    h.optionKind p.1 = some .bool ∧ h.accepts p.1 p.2 = true

/-- Whether a value can be handed to the library at all: a string holding a NUL cannot. -/
def OptionValue.passable : OptionValue → Bool
  | .str s => !s.contains '\x00'
  | _ => true

/-- Checks an option against the library. A name that is empty, holds a NUL or is not an option
is refused as a name; then an integer for a double option is widened, and a value of another kind,
one that cannot be handed over or one the library rejects is refused as a value. The accepted
value is returned. -/
def Highs.checkOption (h : Highs) (name : String) (v : OptionValue) :
    Except OptionRefusal OptionValue :=
  if name.contains '\x00' ∨ name.isEmpty then .error .name
  else
    match h.optionKind name with
    | none => .error .name
    | some k =>
      let w := v.widen k
      if w.kind = k ∧ w.passable ∧ h.accepts name w then .ok w
      else .error (.value k w)

end Milp
