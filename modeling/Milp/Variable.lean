import Milp.Scalar

/-!
Variables and their attributes. A variable is a handle that holds only its id; its cost,
bounds and category live in the model. `VarOptions` are the attributes a new variable starts
with, set directly or through a chain of builder steps.
-/
namespace Milp

/-- A variable, identified by its id in the model. Two handles are equal when their ids are. -/
structure Variable where
  id : Nat
deriving DecidableEq, Repr

/-- The text of a handle, `Variable{id:7}`. -/
def Variable.debugText (v : Variable) : String := "Variable" ++ "\x7bid:" ++ toString v.id ++ "\x7d"

/-- The kind of values a variable may take. -/
inductive Category where
  | continuous
  | integer
  | binary
deriving DecidableEq, Repr, Inhabited

/-- The name of a category, as it appears in answers and logs. -/
def Category.name : Category → String
  | .continuous => "Continuous"
  | .integer => "Integer"
  | .binary => "Binary"

/-- The category with a given name. -/
def Category.ofName? : String → Option Category
  | "Continuous" => some .continuous
  | "Integer" => some .integer
  | "Binary" => some .binary
  | _ => none

/-- The attributes of a variable: objective coefficient, bounds and category. -/
structure VarOptions (α : Type) where
  objCoef : α
  lowerBound : α
  upperBound : α
  category : Category
deriving Repr

/-- The attributes a variable has unless told otherwise: no cost, bounds `[0, ∞)`, continuous. -/
def VarOptions.default {α : Type} [MachineScalar α] : VarOptions α :=
  ⟨Scalar.zero, Scalar.zero, MachineScalar.infinity, .continuous⟩

instance {α : Type} [MachineScalar α] : Inhabited (VarOptions α) := ⟨.default⟩

/-- One step of the attribute builder. -/
inductive VarStep where
  | objCoef (c : Float)
  | lowerBound (b : Float)
  | upperBound (b : Float)
  | bounds (lower upper : Float)
  /-- Both bounds infinite. -/
  | free
  | category (c : Category)

/-- Applies one builder step; every other attribute is kept. -/
def VarOptions.step (o : VarOptions Float) : VarStep → VarOptions Float
  | .objCoef c => { o with objCoef := c }
  | .lowerBound b => { o with lowerBound := b }
  | .upperBound b => { o with upperBound := b }
  | .bounds l u => { o with lowerBound := l, upperBound := u }
  | .free => { o with lowerBound := -(1 / 0), upperBound := 1 / 0 }
  | .category c => { o with category := c }

/-- The attributes built by a chain of steps from the defaults. -/
def VarOptions.build (steps : List VarStep) : VarOptions Float := steps.foldl VarOptions.step .default

/-- A variable attribute. -/
inductive Attribute where
  | objCoef
  | lowerBound
  | upperBound
  | category
deriving DecidableEq, Repr

/-- A value of a variable attribute. -/
inductive AttributeValue (α : Type) where
  | objCoef (c : α)
  | lowerBound (b : α)
  | upperBound (b : α)
  | category (c : Category)

/-- The attribute a value is for. -/
def AttributeValue.attribute {α : Type} : AttributeValue α → Attribute
  | .objCoef _ => .objCoef
  | .lowerBound _ => .lowerBound
  | .upperBound _ => .upperBound
  | .category _ => .category

/-- The value of an attribute in a set of options. -/
def VarOptions.get {α : Type} (o : VarOptions α) : Attribute → AttributeValue α
  | .objCoef => .objCoef o.objCoef
  | .lowerBound => .lowerBound o.lowerBound
  | .upperBound => .upperBound o.upperBound
  | .category => .category o.category

end Milp
