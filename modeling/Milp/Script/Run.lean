import Milp.Script.Request
import Milp.Solver.Dummy
import Milp.Solver.Backend
import Milp.Lp.Library
import Milp.Report.Json

/-!
Carrying out requests and writing their answers. A model session runs its steps in order on one
fresh model; every step gets an answer, and a step that ends in a fault ends the session. A
refused or unreadable step does not. When asked for, the answer also lists the events logged
while the request ran.
-/
namespace Milp

namespace Json

/-- The answer to a request that cannot be carried out. -/
def badInput (msg : String) : Json := .obj [("error", .str "bad_input"), ("message", .str msg)]

/-- The answer to a fault. -/
def fault (f : Fault) : Json := .obj [("error", .str "panic"), ("message", .str f.message)]

/-- The answer to a stop. -/
def stop : Stop → Json
  | .refused r => badInput r.message
  | .fault f => fault f

/-- A refusal of a model operation. -/
def modelError (e : ModelError) : Json :=
  .obj [("error", .str e.kind), ("code", .str e.code), ("message", .str e.message)]

/-- A refusal of the solver hand-off. -/
def solverError (e : SolverError) : Json :=
  .obj [("error", .str e.kind), ("code", .str e.code), ("message", .str e.message)]

/-- A scalar, widened to a double. -/
def scalar {α : Type} [MachineScalar α] (x : α) : Json := float (MachineScalar.toFloat x)

/-- A list of doubles. -/
def floats (xs : List Float) : Json := .arr (xs.map float)

/-- A list of naturals. -/
def nats (xs : List Nat) : Json := .arr (xs.map nat)

/-- The fields that describe a term list: ids, coefficients and pairs. -/
def termFields {α : Type} [MachineScalar α] (ts : List (Nat × α)) : List (String × Json) :=
  [("variables", nats (ts.map Prod.fst)), ("coefficients", .arr (ts.map fun p => scalar p.2)),
   ("terms", .arr (ts.map fun p => .arr [nat p.1, scalar p.2]))]

/-- A logged event. -/
def event (e : Event) : Json :=
  let value : FieldValue → Json
    | .text s => .str s
    | .nat n => nat n
    | .float x => float x
  .obj [("level", .str e.level.name), ("target", .str e.target),
        ("fields", .obj (e.fields.map fun p => (p.1, value p.2)))]

/-- An object with one more field. -/
def withField (j : Json) (k : String) (v : Json) : Json :=
  match j with
  | .obj fields => .obj (fields ++ [(k, v)])
  | other => other

end Json

/-- The constraint a bound form gives over an expression. -/
def BoundForm.toConstraint {α : Type} [MachineScalar α] (e : Expr α) : BoundForm → Constraint α
  | .bound b => Constraint.ofBound e (b.map MachineScalar.ofFloat)
  | .chain first steps =>
    Constraint.chain e (first.map (·.map MachineScalar.ofFloat)) (steps.map (·.map MachineScalar.ofFloat))

/-- The answer to an expression request: terms, constant, stored length and, given a point, the
value there. -/
def exprAnswer {α : Type} [MachineScalar α] (s : Scope α) (f : ExprForm)
    (values : Option (List Float)) : Json :=
  match f.toExpr s with
  | .error st => Json.stop st
  | .ok e =>
    match e.terms.toExcept with
    | .error flt => Json.fault flt
    | .ok ts =>
      let base := Json.termFields ts ++
        [("constant", Json.scalar e.constant), ("len", Json.nat ts.length),
         ("is_empty", .bool ts.isEmpty)]
      match values with
      | none => .obj base
      | some vs =>
        match e.evaluate (vs.map MachineScalar.ofFloat).toArray with
        | .error flt => Json.fault flt
        | .ok v => .obj (base ++ [("value", Json.scalar v)])

/-- The answer to a constraint request: terms, stored sides and the expression's constant. -/
def constraintAnswer {α : Type} [MachineScalar α] (s : Scope α) (f : ExprForm) (b : BoundForm) :
    Json :=
  match f.toExpr s with
  | .error st => Json.stop st
  | .ok e =>
    let c := b.toConstraint e
    match c.terms.toExcept with
    | .error flt => Json.fault flt
    | .ok ts =>
      .obj (Json.termFields ts ++
        [("lower", Json.scalar c.lower), ("upper", Json.scalar c.upper),
         ("expr_constant", Json.scalar e.constant)])

/-- Variable attributes as an answer. -/
def VarOptions.toJson (o : VarOptions Float) : Json :=
  .obj [("obj_coef", .float o.objCoef), ("lower_bound", .float o.lowerBound),
        ("upper_bound", .float o.upperBound), ("var_type", .str o.category.name)]

/-- A stored row as an answer. -/
def ConstraintView.toJson (v : ConstraintView Float) : Json :=
  .obj [("id", .nat v.id), ("variables", Json.nats v.subj.toList),
        ("coefficients", Json.floats v.cof.toList), ("lower", .float v.lower),
        ("upper", .float v.upper), ("len", .nat v.subj.size), ("is_empty", .bool v.subj.isEmpty)]

/-- Stored rows as an answer, or the fault met making their views. -/
def ConstraintView.listJson (vs : List (Except Fault (ConstraintView Float))) : Except Fault Json :=
  (fun views => .arr (views.map ConstraintView.toJson)) <$> vs.mapM fun r => r

/-- The objective as an answer: its ids and its coefficients, each read on its own, and its
constant. -/
def ObjectiveView.toJson (o : ObjectiveView Float) : Json :=
  .obj [("variables", Json.nats o.varIds.items), ("coefficients", Json.floats o.coefficients),
        ("constant", .float o.constant)]

/-- The copy of a model's data as an answer, or the fault met reading its rows. -/
def Snapshot.toJson (s : Snapshot) : Except Fault Json := do
  let rows ← (List.range s.numRows).mapM s.row
  return .obj [("num_cols", .nat s.numCols), ("num_rows", .nat s.numRows), ("sense", .str s.sense.name),
        ("c", Json.floats s.costs.toList), ("c_fix", .float s.offset),
        ("col_lb", Json.floats s.lower.toList), ("col_ub", Json.floats s.upper.toList),
        ("col_types", .arr (s.categories.toList.map fun c => .str c.name)),
        ("row_lb", Json.floats s.rowLower.toList), ("row_ub", Json.floats s.rowUpper.toList),
        ("rows", .arr (rows.map fun r => .arr [Json.nats r.1.toList, Json.floats r.2.toList])),
        ("ptr", Json.nats s.ptr), ("subj", Json.nats s.subj.toList), ("cof", Json.floats s.cof.toList)]

/-- A parameter value as listed. -/
def OptionValue.toJson : OptionValue → Json
  | .bool b => .bool b
  | .int i => .num (toString i)
  | .float x => .float x
  | .str s => .str s

/-- An attribute value as an answer. -/
def AttributeValue.toJson : AttributeValue Float → Json
  | .objCoef c => .float c
  | .lowerBound b => .float b
  | .upperBound b => .float b
  | .category c => .str c.name

/-- One attribute of every variable, by id, as an answer. -/
def Model.attributeJson (m : Model Float) : Attribute → Json
  | .objCoef => Json.floats m.varObj.toList
  | .lowerBound => Json.floats m.varLb.toList
  | .upperBound => Json.floats m.varUb.toList
  | .category => .arr (m.varType.toList.map fun c => .str c.name)

/-- The state of a model session. -/
structure Session where
  model : Model Float := .new
  blocks : Array Block := #[]
  log : Array Event := #[]

/-- What a step did: its answer, the session after it, and whether it ended in a fault. -/
structure Turn where
  answer : Json
  session : Session
  stops : Bool := false

namespace Session

/-- What expression forms may read in this session. -/
def scope (s : Session) : Scope Float :=
  { blocks := some s.blocks, objective := some s.model.objective.materialize }

/-- Logs events. -/
def note (s : Session) (evs : List Event) : Session := { s with log := s.log ++ evs.toArray }

/-- The turn of a step that goes on. -/
def goOn (s : Session) (j : Json) : Turn := ⟨j, s, false⟩

/-- The turn of a step that ends in a fault. -/
def halt (s : Session) (f : Fault) : Turn := ⟨Json.fault f, s, true⟩

/-- The turn of a model operation: a refusal is answered by a checked form and is a fault of the
plain form. -/
def settle {β : Type} (s : Session) (checked : Bool) (st : Step Float β) (ok : β → Json) : Turn :=
  let s := { s.note st.log with model := st.model }
  match st.result with
  | .ok v => s.goOn (ok v)
  | .error e => if checked then s.goOn (Json.modelError e) else s.halt ⟨e.message⟩

/-- The turn of a call that reads the model, as `settle`. -/
def answer {β : Type} (s : Session) (checked : Bool) (r : Reply β) (ok : β → Json) : Turn :=
  s.settle checked ⟨r.result, s.model, r.log⟩ ok

/-- Adds an expression to the objective as the plain operation does, a given number of times,
until a fault. -/
def addObjTimes (s : Session) (e : Expr Float) : Nat → Session × Option Fault
  | 0 => (s, none)
  | n + 1 =>
    match s.model.tryAddObj e with
    | .error f => (s, some f)
    | .ok st =>
      let s := { s.note st.log with model := st.model }
      match st.result with
      | .ok () => s.addObjTimes e n
      | .error err => (s, some ⟨err.message⟩)

/-- Runs operations on the data-only backend until one ends in a fault. -/
def runSnapshot (s : Session) (snap : Snapshot) :
    List SnapshotOp → Session × Snapshot × Except Fault (List Json)
  | [] => (s, snap, .ok [])
  | op :: rest =>
    let (s, snap, j) : Session × Snapshot × Except Fault Json := match op with
      | .setParameter name v => (s, snap.setParameter name v, .ok (.obj [("ok", .bool true)]))
      | .optimize =>
        let (code, ev) := snap.optimize
        (s.note [ev], snap,
          .ok (.obj [("return_code", .str code.name), ("is_success", .bool code.isSuccess)]))
      | .solution => (s, snap, .ok (.obj [("solution", Json.floats snap.solution.toList)]))
      | .objectiveValue => (s, snap, .ok (.obj [("objective_value", .float (0 / 0))]))
      | .parameters =>
        (s, snap, .ok (.obj [("parameters", .arr (snap.parameters.toList.map fun p =>
          .arr [.str p.1, .str p.2.kindName, p.2.toJson]))]))
      | .data => (s, snap, snap.toJson)
    match j with
    | .error f => (s, snap, .error f)
    | .ok j =>
      let (s, snap, js) := runSnapshot s snap rest
      (s, snap, (j :: ·) <$> js)

/-- One operation on the solving backend: its answer, or the fault that ends it. -/
def backendOp (s : Session) (h : Highs) (b : Backend) :
    BackendOp → Session × Except Fault (Backend × Json)
  | .setParameter name v plain =>
    let (r, ev) := b.trySetParameter h name v
    let s := s.note [ev]
    match r with
    | .ok b => (s, .ok (b, .obj [("ok", .bool true)]))
    | .error e =>
      if plain then (s, .error ⟨"Failed to set parameter " ++ name ++ ": " ++ e.message⟩)
      else (s, .ok (b, Json.solverError e))
  | .setLogToConsole on => (s, .ok ({ b with console := on }, .obj [("ok", .bool true)]))
  | .optimize =>
    let eff := b.optimize h
    let s := s.note eff.log
    match eff.result with
    | .error f => (s, .error f)
    | .ok (code, b) =>
      (s, .ok (b, .obj [("return_code", .str code.name), ("is_success", .bool code.isSuccess)]))
  | .status =>
    (s, .ok (b, .obj [("status", match b.status with | some c => .str c.name | none => .null)]))
  | .numCols => (s, .ok (b, .obj [("value", .nat b.numCols)]))
  | .numRows => (s, .ok (b, .obj [("value", .nat b.numRows)]))
  | .trySolution =>
    (s, .ok (b, match b.trySolution with
      | .ok xs => .obj [("solution", Json.floats xs.toList)]
      | .error e => Json.solverError e))
  | .tryObjectiveValue =>
    (s, .ok (b, match b.tryObjectiveValue with
      | .ok v => .obj [("objective_value", .float v)]
      | .error e => Json.solverError e))
  | .solution => (s, .ok (b, .obj [("solution", Json.floats b.solution.toList)]))
  | .objectiveValue => (s, .ok (b, .obj [("objective_value", .float b.objectiveValue)]))
  | .debug => (s, .ok (b, .obj [("debug", .str b.debugText)]))

/-- Runs operations on the solving backend until one ends in a fault. -/
def runBackend (s : Session) (h : Highs) (b : Backend) :
    List BackendOp → Session × Except Fault (List Json)
  | [] => (s, .ok [])
  | op :: rest =>
    match s.backendOp h b op with
    | (s, .error f) => (s, .error f)
    | (s, .ok (b, j)) =>
      match runBackend s h b rest with
      | (s, .error f) => (s, .error f)
      | (s, .ok js) => (s, .ok (j :: js))

/-- The turn of a step, solving with the library `h`. -/
def step (s : Session) (h : Highs) : StepForm → Turn
  | .addVar spec =>
    let (v, m, ev) := s.model.addVar spec.options
    { s.note [ev] with model := m }.goOn (.obj [("id", .nat v.id)])
  | .addVars count table =>
    match s.model.tryAddVars count table.toArray with
    | .error f => s.halt f
    | .ok (blk, m, ev) =>
      { s.note [ev] with model := m, blocks := s.blocks.push blk }.goOn
        (.obj [("block", .nat s.blocks.size)])
  | .access b indices =>
    match s.blocks[b]? with
    | none => s.goOn (Json.badInput (Refusal.noBlock b).message)
    | some blk =>
      match indices.mapM blk.access with
      | .error f => s.halt f
      | .ok ids => s.goOn (.obj [("ids", Json.nats ids)])
  | .addObj f checked =>
    match f.toExpr s.scope with
    | .error (.refused r) => s.goOn (Json.badInput r.message)
    | .error (.fault flt) => s.halt flt
    | .ok e =>
      match s.model.tryAddObj e with
      | .error flt => s.halt flt
      | .ok st => s.settle checked st fun _ => .obj [("ok", .bool true)]
  | .addObjRepeated f times =>
    match f.toExpr s.scope with
    | .error (.refused r) => s.goOn (Json.badInput r.message)
    | .error (.fault flt) => s.halt flt
    | .ok e =>
      match s.addObjTimes e times with
      | (s, some flt) => s.halt flt
      | (s, none) => s.goOn (.obj [("ok", .bool true)])
  | .addConstraint f b checked =>
    match f.toExpr s.scope with
    | .error (.refused r) => s.goOn (Json.badInput r.message)
    | .error (.fault flt) => s.halt flt
    | .ok e =>
      match s.model.tryAddConstraint (b.toConstraint e) with
      | .error flt => s.halt flt
      | .ok st => s.settle checked st fun id => .obj [("id", .nat id)]
  | .copyConstraint id =>
    match s.model.tryConstraint id with
    | .error flt => s.halt flt
    | .ok (.error e) => s.goOn (Json.modelError e)
    | .ok (.ok v) =>
      match s.model.tryAddConstraint ⟨.linear ⟨v.terms, 0⟩, v.lower, v.upper⟩ with
      | .error flt => s.halt flt
      | .ok st => s.settle true st fun id => .obj [("id", .nat id)]
  | .constraint id checked =>
    match s.model.tryConstraint id with
    | .error flt => s.halt flt
    | .ok (.ok v) => s.goOn v.toJson
    | .ok (.error e) => if checked then s.goOn (Json.modelError e) else s.halt ⟨e.message⟩
  | .constraints =>
    match ConstraintView.listJson s.model.constraints with
    | .error flt => s.halt flt
    | .ok rows => s.goOn (.obj [("constraints", rows)])
  | .objective => s.goOn s.model.objective.toJson
  | .objectiveConstant => s.goOn (.obj [("value", .float s.model.objConstant)])
  | .sense => s.goOn (.obj [("sense", .str s.model.sense.name)])
  | .setSense sense =>
    let (m, ev) := s.model.setSense sense
    { s.note [ev] with model := m }.goOn (.obj [("ok", .bool true)])
  | .nbVariables => s.goOn (.obj [("value", .nat s.model.nbVariables)])
  | .nbConstraints => s.goOn (.obj [("value", .nat s.model.nbConstraints)])
  | .nbEntries => s.goOn (.obj [("value", .nat s.model.nbEntries)])
  | .attribute a var checked =>
    match s.model.tryGet a ⟨var⟩ with
    | .error flt => s.halt flt
    | .ok r => s.answer checked r fun x => .obj [("value", x.toJson)]
  | .setAttribute a var checked =>
    match s.model.trySet a ⟨var⟩ with
    | .error flt => s.halt flt
    | .ok st => s.settle checked st fun _ => .obj [("ok", .bool true)]
  | .attributes a => s.goOn (.obj [("value", s.model.attributeJson a)])
  | .evaluate f xs =>
    match f.toExpr s.scope with
    | .error (.refused r) => s.goOn (Json.badInput r.message)
    | .error (.fault flt) => s.halt flt
    | .ok e =>
      match s.model.evaluate e xs.toArray with
      | .error flt => s.halt flt
      | .ok r => s.answer true r fun v => .obj [("value", .float v)]
  | .dump =>
    let m := s.model
    match ConstraintView.listJson m.constraints with
    | .error flt => s.halt flt
    | .ok rows =>
      s.goOn (.obj [("nb_variables", .nat m.nbVariables), ("nb_constraints", .nat m.nbConstraints),
        ("nb_entries", .nat m.nbEntries), ("sense", .str m.sense.name),
        ("objective_constant", .float m.objConstant),
        ("objective_coefficients", m.attributeJson .objCoef),
        ("lower_bounds", m.attributeJson .lowerBound),
        ("upper_bounds", m.attributeJson .upperBound),
        ("var_types", m.attributeJson .category),
        ("objective", m.objective.toJson), ("constraints", rows)])
  | .snapshot ops =>
    let s := s.note [s.model.buildEvent]
    match Snapshot.ofModel s.model with
    | .error flt => s.halt flt
    | .ok snap =>
      match s.runSnapshot snap ops with
      | (s, _, .error flt) => s.halt flt
      | (s, snap, .ok js) =>
        match snap.toJson with
        | .error flt => s.halt flt
        | .ok data => s.goOn (.obj [("solver", data), ("results", .arr js)])
  | .solve ops =>
    let s := s.note [s.model.buildEvent]
    match Backend.ofModel s.model with
    | .error flt => s.halt flt
    | .ok (.error (e, ev)) => (s.note [ev]).goOn (Json.solverError e)
    | .ok (.ok (b, ev)) =>
      match (s.note [ev]).runBackend h b ops with
      | (s, .error f) => s.halt f
      | (s, .ok js) => s.goOn (.obj [("results", .arr js)])

end Session

/-- Runs the steps of a session in order, stopping after a fault; unreadable steps are answered
as bad input. Returns the answers and the events logged. -/
def Session.run (s : Session) (h : Highs) : List (Except String StepForm) → List Json × Array Event
  | [] => ([], s.log)
  | st :: rest =>
    let t : Turn := match st with
      | .error msg => s.goOn (Json.badInput msg)
      | .ok form => s.step h form
    if t.stops then ([t.answer], t.session.log)
    else let (js, log) := t.session.run h rest; (t.answer :: js, log)

/-- The answer to a request, with the events it logged when asked for; models are solved with
the library `Highs.lp`. -/
def Request.answer (r : Request) (withLog : Bool) : Json :=
  let (j, log) : Json × Array Event := match r with
    | .expr f vs single =>
      if single then (exprAnswer ({} : Scope Float32) f vs, #[])
      else (exprAnswer ({ blocks := some #[] } : Scope Float) f vs, #[])
    | .constraint f b single =>
      if single then (constraintAnswer ({} : Scope Float32) f b, #[])
      else (constraintAnswer ({ blocks := some #[] } : Scope Float) f b, #[])
    | .varOptions spec => (spec.options.toJson, #[])
    | .varDebug id other =>
      (.obj ([("debug", .str (Variable.debugText ⟨id⟩))] ++
        (match other with | some m => [("eq", .bool (id == m))] | none => [])), #[])
    | .model steps =>
      let (js, log) := ({} : Session).run Highs.lp steps
      (.obj [("steps", .arr js)], log)
  if withLog then j.withField "log" (.arr (log.toList.map Json.event)) else j

end Milp
