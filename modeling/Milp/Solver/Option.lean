import Milp.Num.Text
import Milp.Text.Quoted

/-!
Solver option values. Every option has a name and a kind; an integer given to a double option is
first widened to a double. A value is refused as a name (the option does not exist) or as a value
(of another kind, or one the solver rejects).
-/
namespace Milp

/-- A value given for an option. -/
inductive OptionValue where
  | bool (b : Bool)
  | int (i : Int)
  | float (x : Float)
  | str (s : String)

/-- The kind of value an option holds. -/
inductive OptionKind where
  | bool
  | int
  | double
  | string
deriving DecidableEq, Repr

/-- The name of a kind, as messages use it. -/
def OptionKind.name : OptionKind → String
  | .bool => "bool"
  | .int => "int"
  | .double => "double"
  | .string => "string"

namespace OptionValue

/-- The kind of a value. -/
def kind : OptionValue → OptionKind
  | .bool _ => .bool
  | .int _ => .int
  | .float _ => .double
  | .str _ => .string

/-- The diagnostic text of a value: `Bool(true)`, `Int(3)`, `Float(10.0)`, `Str("off")`. -/
def debugText : OptionValue → String
  | .bool b => "Bool(" ++ (if b then "true" else "false") ++ ")"
  | .int i => "Int(" ++ toString i ++ ")"
  | .float x => "Float(" ++ Num.Layout.standard.render x ++ ")"
  | .str s => "Str(" ++ Text.quoted s ++ ")"

/-- The value an option of kind `k` receives: an integer for a double option is widened. -/
def widen (k : OptionKind) : OptionValue → OptionValue
  | .int i => if k = .double then .float (Float.ofInt i) else .int i
  | v => v

end OptionValue

/-- Why an option was refused. -/
inductive OptionRefusal where
  | name
  | value (expected : OptionKind) (given : OptionValue)

end Milp
