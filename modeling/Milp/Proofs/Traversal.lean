import Milp.Proofs.WellFormed

/-!
# An expression's two readings pair up

An expression is read twice over, once for its ids and once for its coefficients, and its terms
pair the two by position; the pairing faults when one side ends before the other. Every
constructor keeps the two readings in step (`Reading.Fits`): the ids never run past the
coefficients, and they have as many unless a block look-up stopped them. So the pairing never
faults on its own (`Expr.terms_eq`), and the terms obey one equation per constructor, in written
order, which rest on pairing an appended or mapped reading (`Reading.zipEq_append`,
`Reading.zipEq_map`). The objective view filters its ids and its coefficients by one test, and a
stored row's two slices have one length, so they pair up as well. A stored copy or an extension
succeeds exactly when the reading ends without a fault (`Expr.materialize_eq_ok_iff`,
`Linear.extend_eq_ok_iff`).

A reference to an expression reads as the expression itself, and an operator reads as the
combinator it stands for, so neither has an equation of its own.
-/
namespace Milp

/-- Pairing a list with a longer one only reads the longer one's prefix. -/
theorem zip_append_of_le {β γ : Type} {xs : List β} {ys : List γ} (short : xs.length ≤ ys.length)
    (zs : List γ) : xs.zip (ys ++ zs) = xs.zip ys := by
  induction xs generalizing ys with
  | nil => rfl
  | cons x rest ih =>
    cases ys with
    | nil => simp at short
    | cons y ys =>
      have tail : rest.length ≤ ys.length := by simpa using short
      simp [ih tail]

namespace Reading

variable {β γ : Type}

/-- A reading keeps step with a list: it never runs past it, and it has as many items unless a
fault stopped it. -/
structure Fits (t : Reading β) (cs : List γ) : Prop where
  le : t.items.length ≤ cs.length
  eq : t.fault = none → t.items.length = cs.length

/-- Sides that keep step pair up as their zip, and the fault met is the reading's own. -/
theorem pairUp_of_fits {stop : Option Fault} {bs : List β} {cs : List γ} (le : bs.length ≤ cs.length)
    (eq : stop = none → bs.length = cs.length) : pairUp stop bs cs = ⟨bs.zip cs, stop⟩ := by
  induction bs generalizing cs with
  | nil =>
    cases cs with
    | nil => rfl
    | cons c rest =>
      -- the coefficients go on, so the ids were stopped by a fault
      cases stop with
      | none => simp at eq
      | some f => rfl
  | cons b rest ih =>
    cases cs with
    | nil => simp at le
    | cons c cs =>
      have later : pairUp stop rest cs = ⟨rest.zip cs, stop⟩ :=
        ih (by simpa using le) (fun none => by simpa using eq none)
      simp [pairUp, later]

theorem Fits.zipEq {t : Reading β} {cs : List γ} (fits : t.Fits cs) : t.zipEq cs = ⟨t.items.zip cs, t.fault⟩ :=
  pairUp_of_fits fits.le fits.eq

/-- A fault stops the pairing where it stands, whatever the other side holds past that point. -/
theorem zipEq_of_fault {t : Reading β} {cs : List γ} {f : Fault} (stopped : t.fault = some f)
    (le : t.items.length ≤ cs.length) (ds : List γ) : t.zipEq (cs ++ ds) = t.zipEq cs := by
  have whole : t.Fits (cs ++ ds) := ⟨by simp; omega, by simp [stopped]⟩
  have part : t.Fits cs := ⟨le, by simp [stopped]⟩
  rw [whole.zipEq, part.zipEq, zip_append_of_le le]

/-- A part that ends in a fault is all that is read. -/
theorem append_of_fault {t : Reading β} {f : Fault} (stopped : t.fault = some f) (u : Reading β) :
    t.append u = t := by
  simp [Reading.append, stopped]

/-- After a part that ends without a fault, the second part is read in full. -/
theorem append_of_fault_none {t : Reading β} (whole : t.fault = none) (u : Reading β) :
    t.append u = ⟨t.items ++ u.items, u.fault⟩ := by
  simp [Reading.append, whole]

/-- An appended reading ends without a fault exactly when both parts do. -/
theorem fault_append_eq_none {t u : Reading β} : (t.append u).fault = none ↔ t.fault = none ∧ u.fault = none := by
  cases stopped : t.fault <;> simp [Reading.append, stopped]

theorem Fits.append {t u : Reading β} {cs ds : List γ} (first : t.Fits cs) (second : u.Fits ds) :
    (t.append u).Fits (cs ++ ds) := by
  cases stopped : t.fault with
  | some f =>
    rw [append_of_fault stopped]
    exact ⟨Nat.le_trans first.le (by simp), fun none => by simp [stopped] at none⟩
  | none =>
    have same := first.eq stopped
    have shorter := second.le
    rw [append_of_fault_none stopped]
    refine ⟨?_, fun none => ?_⟩
    · simp only [List.length_append]
      omega
    · simp only [List.length_append, same, second.eq none]

theorem Fits.map {t : Reading β} {cs : List γ} (fits : t.Fits cs) {δ : Type} (f : γ → δ) :
    t.Fits (cs.map f) :=
  ⟨by simpa using fits.le, fun none => by simpa using fits.eq none⟩

/-- Pairing an appended reading with appended lists is pairing each part: the second part is never
read when the first one faulted. -/
theorem zipEq_append {t u : Reading β} {cs ds : List γ} (first : t.Fits cs) (second : u.Fits ds) :
    (t.append u).zipEq (cs ++ ds) = (t.zipEq cs).append (u.zipEq ds) := by
  cases stopped : t.fault with
  | some f =>
    have early : (t.zipEq cs).fault = some f := by rw [first.zipEq, stopped]
    rw [append_of_fault stopped, zipEq_of_fault stopped first.le ds, append_of_fault early]
  | none =>
    have whole : (t.append u).Fits (cs ++ ds) := first.append second
    have early : (t.zipEq cs).fault = none := by rw [first.zipEq, stopped]
    rw [whole.zipEq, append_of_fault_none stopped, append_of_fault_none early, first.zipEq, second.zipEq,
      List.zip_append (first.eq stopped)]

end Reading

namespace Terms

variable {α : Type}

/-- A reading gives all its terms exactly when no fault stopped it; otherwise it gives its fault. -/
theorem toExcept_of_fault {t : Terms α} {f : Fault} (stopped : t.fault = some f) :
    t.toExcept = .error f := by
  simp [Terms.toExcept, stopped]

theorem toExcept_of_whole {t : Terms α} (whole : t.fault = none) : t.toExcept = .ok t.items := by
  simp [Terms.toExcept, whole]

theorem zipEq_map (t : Reading Nat) (cs : List α) (f : α → α) :
    t.zipEq (cs.map f) = mapCoef f (t.zipEq cs) := by
  unfold Reading.zipEq
  generalize t.items = bs
  induction bs generalizing cs with
  | nil => cases cs <;> rfl
  | cons b rest ih =>
    cases cs with
    | nil => rfl
    | cons c cs =>
      simp only [List.map_cons, Reading.pairUp, ih cs]
      rfl

end Terms

/-- A look-up succeeds exactly when the offset lies inside the block, and gives the id that far
from the block's first one, as a machine word adds them. -/
theorem Block.access_eq_ok {b : Block} {i j : Nat} :
    b.access i = .ok j ↔ b.offset i < b.count ∧ j = wordAdd b.first (b.offset i) := by
  by_cases inside : b.offset i < b.count <;> simp [Block.access, inside, eq_comm]

/-- A block's look-ups keep step with a list as long as the logical indices. -/
theorem Block.lookup_fits {α : Type} (b : Block) (indices : List Nat) (cs : List α)
    (lengths : indices.length = cs.length) : (b.lookup indices).Fits cs := by
  induction indices generalizing cs with
  | nil =>
    cases cs with
    | nil => exact ⟨Nat.le_refl _, fun _ => rfl⟩
    | cons c rest => simp at lengths
  | cons i rest ih =>
    cases cs with
    | nil => simp at lengths
    | cons c cs =>
      have later := ih cs (by simpa using lengths)
      unfold Block.lookup
      cases found : b.access i with
      | error f => exact ⟨by simp, by simp⟩
      | ok j => exact ⟨by simpa using later.le, fun none => by simpa using later.eq none⟩

namespace Expr

variable {α : Type} [Scalar α]

/-- The ids of every expression keep step with its coefficients: induction on the expression,
each combinator appending or mapping its operands' readings. -/
theorem fits (e : Expr α) : e.varIds.Fits e.coefficients := by
  induction e with
  | const c => exact ⟨Nat.le_refl _, fun _ => rfl⟩
  | var j => exact ⟨Nat.le_refl _, fun _ => rfl⟩
  | linear l => exact ⟨by simp [varIds, coefficients], fun _ => by simp [varIds, coefficients]⟩
  | add l r ihl ihr => exact ihl.append ihr
  | sub l r ihl ihr => exact ihl.append (ihr.map _)
  | neg e ih => exact ih.map _
  | shift e c ih => exact ih
  | rsub c e ih => exact ih.map _
  | scale c e ih => exact ih.map _
  | blockSum b items => exact b.lookup_fits _ _ (by simp [coefficients])

/-- The terms are the ids zipped with the coefficients, and the only fault met is a look-up's. -/
theorem terms_eq (e : Expr α) : e.terms = ⟨e.varIds.items.zip e.coefficients, e.varIds.fault⟩ :=
  e.fits.zipEq

theorem terms_add (l r : Expr α) : (add l r).terms = l.terms.append r.terms :=
  Reading.zipEq_append l.fits r.fits

theorem terms_sub (l r : Expr α) : (sub l r).terms = l.terms.append (r.terms.mapCoef (- ·)) := by
  rw [terms, varIds, coefficients, Reading.zipEq_append l.fits (r.fits.map _), Terms.zipEq_map]
  rfl

theorem terms_neg (e : Expr α) : (neg e).terms = e.terms.mapCoef (- ·) :=
  Terms.zipEq_map e.varIds e.coefficients _

theorem terms_rsub (c : α) (e : Expr α) : (rsub c e).terms = e.terms.mapCoef (- ·) :=
  Terms.zipEq_map e.varIds e.coefficients _

theorem terms_scale (c : α) (e : Expr α) : (scale c e).terms = e.terms.mapCoef (c * ·) :=
  Terms.zipEq_map e.varIds e.coefficients _

/-- A block sum's terms: each item's id looked up in turn with the item's coefficient, until a
look-up fails. -/
theorem terms_blockSum_cons (b : Block) (i : Nat) (c : α) (rest : List (Nat × α)) :
    (blockSum b ((i, c) :: rest)).terms =
      match b.access i with
      | .error f => ⟨[], some f⟩
      | .ok j => ⟨(j, c) :: (blockSum b rest).terms.items, (blockSum b rest).terms.fault⟩ := by
  cases found : b.access i with
  | error f => simp [terms, varIds, coefficients, Block.lookup, found, Reading.zipEq, Reading.pairUp]
  | ok j => simp [terms, varIds, coefficients, Block.lookup, found, Reading.zipEq, Reading.pairUp]

theorem terms_linear (l : Linear α) : (linear l).terms = ⟨l.terms, none⟩ := by
  rw [terms_eq]
  simp only [varIds, coefficients]
  rw [← List.zip_of_prod rfl rfl]

/-- The stored copy of an expression exists exactly when its reading does not fault, and then it
holds the expression's terms and constant. -/
theorem materialize_eq_ok_iff (e : Expr α) (l : Linear α) :
    e.materialize = .ok l ↔ e.terms.fault = none ∧ l = ⟨e.terms.items, e.constant⟩ := by
  unfold materialize Terms.toLinear
  cases stopped : e.terms.fault with
  | some f => simp [Terms.toExcept_of_fault stopped]
  | none => simp [Terms.toExcept_of_whole stopped, eq_comm]

/-- The stored copy of an expression holds its terms. -/
theorem terms_of_materialize {e : Expr α} {l : Linear α} (stored : e.materialize = .ok l) :
    (linear l).terms = e.terms := by
  obtain ⟨whole, rfl⟩ := (materialize_eq_ok_iff e l).mp stored
  rw [terms_linear, ← whole]

end Expr

namespace Linear

variable {α : Type} [Scalar α]

/-- A stored expression made from ids and coefficients of one length pairs them. -/
theorem terms_of_ofLists {ids : List Nat} {cs : List α} {c : α} {l : Linear α}
    (made : ofLists ids cs c = .ok l) : ids.length = cs.length ∧ (Expr.linear l).terms = ⟨ids.zip cs, none⟩ := by
  unfold ofLists at made
  split at made
  case isTrue lengths =>
    cases made
    exact ⟨lengths, Expr.terms_linear _⟩
  case isFalse => cases made

theorem terms_push (l : Linear α) (j : Nat) (c : α) :
    (Expr.linear (l.push j c)).terms = ⟨l.terms ++ [(j, c)], none⟩ :=
  Expr.terms_linear _

/-- Extending appends the expression's terms and adds its constant, unless its reading faults. -/
theorem extend_eq_ok_iff (l l' : Linear α) (e : Expr α) :
    l.extend e = .ok l' ↔ e.terms.fault = none ∧ l' = ⟨l.terms ++ e.terms.items, l.constant + e.constant⟩ := by
  unfold extend
  cases stopped : e.terms.fault with
  | some f => simp [Terms.toExcept_of_fault stopped]
  | none => simp [Terms.toExcept_of_whole stopped, eq_comm]

/-- Extending a stored expression appends all terms of the expression. -/
theorem terms_of_extend {l l' : Linear α} {e : Expr α} (grown : l.extend e = .ok l') :
    (Expr.linear l').terms = ⟨l.terms ++ e.terms.items, none⟩ := by
  obtain ⟨-, rfl⟩ := (extend_eq_ok_iff l l' e).mp grown
  exact Expr.terms_linear _

end Linear

/-! ## The objective view and stored rows -/

namespace ObjectiveView

variable {α : Type} [Scalar α] [BEq α]

/-- The objective's coefficients are those of its listed ids: one test filters both readings. -/
theorem coefficients_eq (o : ObjectiveView α) :
    o.coefficients = (o.cof.toList.zipIdx.filter fun p => p.1 != Scalar.zero).map Prod.fst := by
  rw [coefficients]
  conv => lhs; rw [← List.zipIdx_map_fst 0 o.cof.toList]
  rw [List.filter_map]
  rfl

theorem fits (o : ObjectiveView α) : o.varIds.Fits o.coefficients :=
  ⟨by simp [varIds, coefficients_eq], fun _ => by simp [varIds, coefficients_eq]⟩

/-- The objective's terms are the entries whose coefficient is not `0`, in increasing id order. -/
theorem terms_eq (o : ObjectiveView α) :
    o.terms = ⟨(o.cof.toList.zipIdx.filter fun p => p.1 != Scalar.zero).map fun p => (p.2, p.1), none⟩ := by
  rw [terms, o.fits.zipEq, coefficients_eq]
  simp only [varIds, List.zip_map']

end ObjectiveView

/-- The two slices of a stored row of a reachable model have one length, so pairing them never
faults and gives the row's terms. -/
theorem ConstraintView.zipEq_of_reachable {α : Type} [MachineScalar α] {m : Model α} (reach : m.Reachable)
    {i : Nat} {v : ConstraintView α} (read : m.tryConstraint i = .ok (.ok v)) :
    v.subj.size = v.cof.size ∧ Reading.zipEq ⟨v.subj.toList, none⟩ v.cof.toList = ⟨v.terms, none⟩ := by
  obtain ⟨R, stored⟩ := reach.stored
  have inside : i < R.length := by
    apply Nat.lt_of_not_le
    intro outside
    rw [stored.tryConstraint_of_ge outside] at read
    cases read
  rw [stored.tryConstraint inside] at read
  cases read
  have lengths : (R[i].viewAt i).subj.size = (R[i].viewAt i).cof.size := by
    simp [Row.viewAt, Row.ids, Row.coefs]
  refine ⟨lengths, ?_⟩
  have fits : (⟨(R[i].viewAt i).subj.toList, none⟩ : Reading Nat).Fits (R[i].viewAt i).cof.toList :=
    ⟨by simp [lengths], fun _ => by simp [lengths]⟩
  rw [fits.zipEq]
  rfl

/-! ## Every expression's terms -/

/-- Every expression's two readings pair up, faulting only where a block look-up fails, and its terms
follow the written order: those of each form are those of its parts, in the order written. -/
theorem terms_pair_readings_in_written_order {α : Type} [MachineScalar α] [BEq α] :
    (∀ e : Expr α, e.varIds.Fits e.coefficients ∧
      e.terms = ⟨e.varIds.items.zip e.coefficients, e.varIds.fault⟩) ∧
    (∀ j : Nat, (Expr.var j : Expr α).terms = ⟨[(j, Scalar.one)], none⟩) ∧
    (∀ c : α, (Expr.const c).terms = ⟨[], none⟩) ∧
    (∀ l r : Expr α, (Expr.add l r).terms = l.terms.append r.terms) ∧
    (∀ l r : Expr α, (Expr.sub l r).terms = l.terms.append (r.terms.mapCoef (- ·))) ∧
    (∀ e : Expr α, (Expr.neg e).terms = e.terms.mapCoef (- ·)) ∧
    (∀ (c : α) (e : Expr α), (Expr.rsub c e).terms = e.terms.mapCoef (- ·)) ∧
    (∀ (e : Expr α) (c : α), (Expr.shift e c).terms = e.terms) ∧
    (∀ (c : α) (e : Expr α), (Expr.scale c e).terms = e.terms.mapCoef (c * ·)) ∧
    (∀ (e : Expr α) (c : α), (e.divide c).terms = e.terms.mapCoef (Scalar.recip c * ·)) ∧
    (∀ b : Block, (Expr.blockSum b [] : Expr α).terms = ⟨[], none⟩) ∧
    (∀ (b : Block) (i : Nat) (c : α) (rest : List (Nat × α)),
      (Expr.blockSum b ((i, c) :: rest)).terms =
        match b.access i with
        | .error f => ⟨[], some f⟩
        | .ok j => ⟨(j, c) :: (Expr.blockSum b rest).terms.items, (Expr.blockSum b rest).terms.fault⟩) ∧
    (∀ l : Linear α, (Expr.linear l).terms = ⟨l.terms, none⟩) ∧
    (Expr.linear (Linear.zero : Linear α)).terms = ⟨[], none⟩ ∧
    (∀ ids (cs : List α) c l, Linear.ofLists ids cs c = .ok l →
      ids.length = cs.length ∧ (Expr.linear l).terms = ⟨ids.zip cs, none⟩) ∧
    (∀ (l : Linear α) j c, (Expr.linear (l.push j c)).terms = ⟨l.terms ++ [(j, c)], none⟩) ∧
    (∀ (l l' : Linear α) e, l.extend e = .ok l' → (Expr.linear l').terms = ⟨l.terms ++ e.terms.items, none⟩) ∧
    (∀ (e : Expr α) l, e.materialize = .ok l → (Expr.linear l).terms = e.terms) ∧
    (∀ m : Model α, m.objective.varIds.Fits m.objective.coefficients ∧
      m.objective.terms = ⟨(m.varObj.toList.zipIdx.filter fun p => p.1 != Scalar.zero).map fun p => (p.2, p.1), none⟩) ∧
    (∀ c : Constraint α, c.varIds.Fits c.coefficients ∧ c.terms = c.expr.terms) ∧
    (∀ m : Model α, m.Reachable → ∀ i (v : ConstraintView α), m.tryConstraint i = .ok (.ok v) →
      v.subj.size = v.cof.size ∧ Reading.zipEq ⟨v.subj.toList, none⟩ v.cof.toList = ⟨v.terms, none⟩) := by
  refine ⟨fun e => ⟨e.fits, e.terms_eq⟩, fun j => rfl, fun c => rfl, Expr.terms_add, Expr.terms_sub,
    Expr.terms_neg, Expr.terms_rsub, fun e c => rfl, Expr.terms_scale, fun e c => Expr.terms_scale _ e,
    fun b => rfl, Expr.terms_blockSum_cons, Expr.terms_linear, Expr.terms_linear _,
    fun ids cs c l made => Linear.terms_of_ofLists made, Linear.terms_push,
    fun l l' e grown => Linear.terms_of_extend grown, fun e l stored => Expr.terms_of_materialize stored,
    fun m => ⟨m.objective.fits, m.objective.terms_eq⟩, fun c => ⟨c.expr.fits, rfl⟩,
    fun m reach i v read => ConstraintView.zipEq_of_reachable reach read⟩

/-- In single precision, a sum over a block whose second index leaves the block, and a stored row of
a model that a run reaches: the look-up fault stops the terms after the first one, and the row's
slices pair up. -/
theorem terms_pair_readings_in_written_order_example :
    (Expr.blockSum ⟨3, 2, #[]⟩ [(1, (2 : Float32)), (5, 1)]).terms =
        ⟨[(4, 2)], some ⟨"Variable block index maps to offset 5 outside block of size 2"⟩⟩ ∧
      let calls : List (Call Float32) := [.addVar .default, .addConstraint ⟨.add (.var 0) (.var 0), 0, 1⟩]
      ∃ m, Model.new.run calls = .ok m ∧ ∃ v, m.tryConstraint 0 = .ok (.ok v) ∧
        v.subj.size = v.cof.size ∧ Reading.zipEq ⟨v.subj.toList, none⟩ v.cof.toList = ⟨v.terms, none⟩ := by
  obtain ⟨-, -, -, -, -, -, -, -, -, -, -, blockCons, -, -, -, -, -, -, -, -, rows⟩ :=
    @terms_pair_readings_in_written_order Float32 _ _
  refine ⟨?_, ?_⟩
  · rw [blockCons]
    rfl
  · intro calls
    refine ⟨_, rfl, _, rfl, ?_⟩
    exact rows _ ⟨calls, rfl⟩ 0 _ rfl

end Milp
