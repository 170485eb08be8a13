import Mathlib.Data.List.Sort
import Milp.Proofs.SignedZero
import Milp.Proofs.Attributes
import Milp.Proofs.Traversal

/-!
# The objective view, fed back to a model

The objective view lists, in increasing id order, each variable whose objective coefficient is not
a zero, with that coefficient, and then the objective constant: a `-0` coefficient is left out and
a NaN one is listed (`ObjectiveView.mem_terms`). Each listed id occurs once, so adding the view to an
objective adds each listed coefficient once, to its own variable, and nothing to the others
(`getElem?_accumulate_of_mem`, `getElem?_accumulate_of_not_mem`). Two round trips follow from the
IEEE arithmetic of zeros and doubling:

* Added to a model with as many variables and a blank objective, the view gives that model the
  same view, since `0 + c = c` for every `c` that is not a zero; only a `-0` constant comes back as
  `+0` (`Model.terms_feed_blank`).
* Its stored copy added to the model itself doubles the objective: `c + c = 2 * c` for every listed
  `c`, and the zeros left out are their own doubles (`Model.accumulate_objective_self`).

A view of objective coefficients is determined by which pairs it lists, since its ids increase;
`eq_of_keys_lt` turns two descriptions of the same members into one list.
-/
namespace Milp

/-! ## Lists keyed by increasing ids -/

section Keyed

variable {β : Type}

/-- Two lists with strictly increasing keys and the same members are the same list. -/
theorem eq_of_keys_lt {xs ys : List (Nat × β)} (hx : (xs.map Prod.fst).Pairwise (· < ·))
    (hy : (ys.map Prod.fst).Pairwise (· < ·)) (same : ∀ p, p ∈ xs ↔ p ∈ ys) : xs = ys := by
  let r : Nat × β → Nat × β → Prop := fun p q => p.1 < q.1
  have : Std.Antisymm r := ⟨fun _ _ below above => absurd (Nat.lt_trans below above) (Nat.lt_irrefl _)⟩
  have : Std.Irrefl r := ⟨fun _ below => Nat.lt_irrefl _ below⟩
  exact List.Pairwise.eq_of_mem_iff (List.pairwise_map.mp hx) (List.pairwise_map.mp hy) same

/-- In a list with distinct keys, a listed key has exactly its own entry. -/
theorem coefsAt_of_mem {ts : List (Nat × β)} (distinct : (ts.map Prod.fst).Nodup) {j : Nat} {c : β}
    (listed : (j, c) ∈ ts) : (ts.filter fun p => p.1 = j).map Prod.snd = [c] := by
  induction ts with
  | nil => cases listed
  | cons p rest ih =>
    obtain ⟨k, d⟩ := p
    obtain ⟨fresh, later⟩ := List.nodup_cons.mp distinct
    rcases List.mem_cons.mp listed with same | inRest
    · -- the head is the entry, and the rest has no other entry of its key
      cases same
      have none : (rest.filter fun p => p.1 = j).map Prod.snd = [] := by
        simp only [List.map_eq_nil_iff, List.filter_eq_nil_iff, decide_eq_true_eq]
        exact fun q member same => fresh (List.mem_map.mpr ⟨q, member, same⟩)
      simp [none]
    · have other : k ≠ j := fun same => fresh (List.mem_map.mpr ⟨(j, c), inRest, same.symm⟩)
      simp [other, ih later inRest]

/-- A key that is not listed has no entry. -/
theorem coefsAt_of_not_mem {ts : List (Nat × β)} {j : Nat} (absent : ∀ c, (j, c) ∉ ts) :
    (ts.filter fun p => p.1 = j).map Prod.snd = [] := by
  simp only [List.map_eq_nil_iff, List.filter_eq_nil_iff, decide_eq_true_eq]
  intro q member same
  exact absent q.2 (same ▸ member)

end Keyed

/-! ## What the view lists -/

namespace ObjectiveView

variable {α : Type} [Scalar α] [BEq α]

/-- The view lists a pair exactly when the coefficient of that id is the pair's coefficient and is
not a zero. -/
theorem mem_terms (o : ObjectiveView α) (j : Nat) (c : α) :
    (j, c) ∈ o.terms.items ↔ o.cof[j]? = some c ∧ (c != Scalar.zero) = true := by
  rw [terms_eq]
  simp only [List.mem_map, List.mem_filter, Prod.mk.injEq]
  constructor
  · rintro ⟨⟨c', j'⟩, ⟨member, kept⟩, rfl, rfl⟩
    exact ⟨by simpa using List.mem_zipIdx_iff_getElem?.mp member, kept⟩
  · rintro ⟨found, kept⟩
    exact ⟨(c, j), ⟨List.mem_zipIdx_iff_getElem?.mpr (by simpa using found), kept⟩, rfl, rfl⟩

theorem terms_fault (o : ObjectiveView α) : o.terms.fault = none := by
  rw [terms_eq]

/-- The view's ids increase strictly: they are positions of the coefficient vector, in order. -/
theorem ids_lt (o : ObjectiveView α) : (o.terms.items.map Prod.fst).Pairwise (· < ·) := by
  rw [terms_eq, List.map_map]
  have positions : (o.cof.toList.zipIdx.map Prod.snd).Pairwise (· < ·) := by
    rw [List.zipIdx_map_snd]
    exact List.pairwise_lt_range'
  exact positions.sublist (List.filter_sublist.map Prod.snd)

/-- Views that list the same pairs read the same. -/
theorem terms_congr {o o' : ObjectiveView α} (same : o.terms.items = o'.terms.items) : o.terms = o'.terms := by
  show (⟨o.terms.items, o.terms.fault⟩ : Terms α) = ⟨o'.terms.items, o'.terms.fault⟩
  rw [same, o.terms_fault, o'.terms_fault]

/-- The stored copy of the view reads as the view. -/
theorem terms_linear_copy (o : ObjectiveView α) : (Expr.linear ⟨o.terms.items, o.constant⟩).terms = o.terms := by
  rw [Expr.terms_linear]
  show (⟨o.terms.items, none⟩ : Terms α) = ⟨o.terms.items, o.terms.fault⟩
  rw [o.terms_fault]

theorem ids_nodup (o : ObjectiveView α) : (o.terms.items.map Prod.fst).Nodup :=
  o.ids_lt.imp Nat.ne_of_lt

/-- Listed ids name variables. -/
theorem id_lt_size {o : ObjectiveView α} {j : Nat} {c : α} (listed : (j, c) ∈ o.terms.items) :
    j < o.cof.size := by
  obtain ⟨found, -⟩ := (o.mem_terms j c).mp listed
  exact (Array.getElem?_eq_some_iff.mp found).1

/-- The stored copy of the view holds its terms and its constant. -/
theorem materialize_eq (o : ObjectiveView α) : o.materialize = .ok ⟨o.terms.items, o.constant⟩ := by
  simp [materialize, Terms.toLinear, Terms.toExcept, o.terms_fault]

/-- Adding the view to objective coefficients adds a listed coefficient once to its own
variable. -/
theorem getElem?_accumulate_of_mem {o : ObjectiveView α} (obj : Array α) {j : Nat} {c : α}
    (listed : (j, c) ∈ o.terms.items) : (Model.accumulate obj o.terms.items)[j]? = obj[j]?.map (· + c) := by
  rw [Model.getElem?_accumulate, coefsAt_of_mem o.ids_nodup listed]
  rfl

/-- Adding the view to objective coefficients leaves the unlisted variables alone. -/
theorem getElem?_accumulate_of_not_mem {o : ObjectiveView α} (obj : Array α) {j : Nat}
    (absent : ∀ c, (j, c) ∉ o.terms.items) : (Model.accumulate obj o.terms.items)[j]? = obj[j]? := by
  rw [Model.getElem?_accumulate, coefsAt_of_not_mem absent]
  cases obj[j]? <;> rfl

end ObjectiveView

/-! ## Doubles -/

/-- A double that is not equal to `0` is neither zero: a NaN is listed by the view, `-0` is not. -/
theorem bne_zero_iff (c : Float) : (c != 0) = true ↔ c ≠ 0 ∧ c ≠ -0 := by
  rw [← not_or, ← Num.beq_zero_iff, bne]
  cases c == 0 <;> decide

/-- A zero is its own double. -/
theorem two_mul_of_beq_zero {c : Float} (zero : (c == 0) = true) : 2 * c = c := by
  rcases (Num.beq_zero_iff c).mp zero with rfl | rfl <;> decide

/-- `0 + k` is `k`, except that `-0` becomes `+0`. -/
theorem zero_add_float (k : Float) : 0 + k = if k = -0 then 0 else k := by
  cases zero : k == 0
  · have notNeg : k ≠ -0 := fun same => by rw [same] at zero; cases zero
    rw [if_neg notNeg, Num.add_of_beq_zero (by decide) zero]
  · rcases (Num.beq_zero_iff k).mp zero with rfl | rfl <;> decide

/-! ## Feeding the view back -/

namespace Model

variable {m m' : Model Float} {e : Expr Float}

/-- A model whose objective reads as another's view takes it: every id is a variable of that
other model, and the reading has no fault. -/
theorem tryAddObj_of_reads_view {n : Nat} (size : m.varObj.size = n) (vars : m'.nbVariables = n)
    (reads : e.terms = m.objective.terms) :
    m'.tryAddObj e = .ok ⟨.ok (), { m' with varObj := accumulate m'.varObj m.objective.terms.items,
                                            objConstant := m'.objConstant + e.constant },
      [.accumulatedObjective m.objective.terms.items.length]⟩ := by
  have inside : e.terms.firstOutside m'.nbVariables = none := by
    rw [Terms.firstOutside_eq_none_iff, reads, vars, ← size]
    intro j listed
    obtain ⟨p, member, rfl⟩ := List.mem_map.mp listed
    exact ObjectiveView.id_lt_size member
  rw [tryAddObj_of_inside m' e inside (by rw [reads]; exact ObjectiveView.terms_fault _), reads]

/-- Added to a blank objective over as many variables, the view gives back its own coefficients:
`0 + c = c` for each listed `c`, and every other variable keeps `0`. -/
theorem mem_terms_feed_blank {n : Nat} (size : m.varObj.size = n) (k : Float) (j : Nat) (c : Float) :
    (j, c) ∈ (ObjectiveView.mk (accumulate (Array.replicate n 0) m.objective.terms.items) k).terms.items ↔
      (j, c) ∈ m.objective.terms.items := by
  rw [ObjectiveView.mem_terms]
  by_cases listed : ∃ d, (j, d) ∈ m.objective.terms.items
  · obtain ⟨d, listed⟩ := listed
    obtain ⟨found, kept⟩ := (m.objective.mem_terms j d).mp listed
    have inside : j < n := size ▸ ObjectiveView.id_lt_size listed
    have passes : (0 : Float) + d = d := Num.add_of_beq_zero (by decide) (Num.beq_eq_false_of_bne kept)
    rw [ObjectiveView.getElem?_accumulate_of_mem _ listed, Array.getElem?_replicate, if_pos inside]
    simp only [Option.map_some, Option.some.injEq, passes]
    -- the listed coefficient of `j` is `d`, so `c` is listed exactly when it is `d`
    constructor
    · rintro ⟨rfl, -⟩
      exact listed
    · intro other
      have same := (m.objective.mem_terms j c).mp other
      rw [found, Option.some.injEq] at same
      exact ⟨same.1, same.1 ▸ kept⟩
  · have absent : ∀ d, (j, d) ∉ m.objective.terms.items := fun d member => listed ⟨d, member⟩
    rw [ObjectiveView.getElem?_accumulate_of_not_mem _ absent, Array.getElem?_replicate]
    simp only [absent, iff_false, not_and]
    split
    · intro same
      rw [← Option.some.inj same]
      decide
    · simp

/-- Added to a blank objective over as many variables, the view gives the same view. -/
theorem terms_feed_blank {n : Nat} (size : m.varObj.size = n) (k : Float) :
    (ObjectiveView.mk (accumulate (Array.replicate n 0) m.objective.terms.items) k).terms = m.objective.terms := by
  exact ObjectiveView.terms_congr (eq_of_keys_lt (ObjectiveView.ids_lt _) m.objective.ids_lt
    fun p => mem_terms_feed_blank size k p.1 p.2)

/-- The view added to the coefficients it was read from doubles each of them: a listed `c` becomes
`c + c`, which is `2 * c`, and an unlisted one is a zero, its own double. -/
theorem accumulate_objective_self (m : Model Float) :
    accumulate m.varObj m.objective.terms.items = m.varObj.map (2 * ·) := by
  apply Array.ext_getElem?
  intro j
  rw [Array.getElem?_map]
  by_cases listed : ∃ c, (j, c) ∈ m.objective.terms.items
  · obtain ⟨c, listed⟩ := listed
    have found : m.varObj[j]? = some c := ((m.objective.mem_terms j c).mp listed).1
    rw [ObjectiveView.getElem?_accumulate_of_mem _ listed, found, Option.map_some, Option.map_some,
      Num.add_self]
  · have absent : ∀ c, (j, c) ∉ m.objective.terms.items := fun c member => listed ⟨c, member⟩
    rw [ObjectiveView.getElem?_accumulate_of_not_mem _ absent]
    cases found : m.varObj[j]? with
    | none => rfl
    | some c =>
      -- an unlisted coefficient is a zero
      have zero : (c == 0) = true := by
        cases kept : c == 0
        · exact absurd ((m.objective.mem_terms j c).mpr ⟨found, by simp [bne, kept]⟩) (absent c)
        · rfl
      rw [Option.map_some, two_mul_of_beq_zero zero]

end Model

/-- The objective view of every model lists each variable whose coefficient is not a zero, in id
order, with the objective constant. Fed to a blank model it leaves the same view (`-0` as `+0`), and
its stored copy added to the model itself doubles every coefficient and the constant. -/
theorem objective_view_round_trips (m : Model Float) :
    (m.objective.terms.fault = none ∧
      (∀ j c, (j, c) ∈ m.objective.terms.items ↔ m.varObj[j]? = some c ∧ c ≠ 0 ∧ c ≠ -0) ∧
      (m.objective.terms.items.map Prod.fst).Pairwise (· < ·) ∧
      m.objective.constant = m.objConstant) ∧
    (∀ (m' : Model Float) (e : Expr Float), m'.varObj = Array.replicate m.nbVariables 0 →
      m'.objConstant = 0 → e.terms = m.objective.terms → e.constant = m.objective.constant →
      ∃ s, m'.tryAddObj e = .ok s ∧ s.result = .ok () ∧ s.model.objective.terms = m.objective.terms ∧
        s.model.objective.constant = if m.objConstant = -0 then 0 else m.objConstant) ∧
    (∃ l, m.objective.materialize = .ok l ∧ ∃ s, m.tryAddObj (.linear l) = .ok s ∧ s.result = .ok () ∧
      s.model = { m with varObj := m.varObj.map (2 * ·), objConstant := 2 * m.objConstant }) := by
  refine ⟨⟨ObjectiveView.terms_fault _, fun j c => ?_, ObjectiveView.ids_lt _, rfl⟩, ?_, ?_⟩
  · rw [ObjectiveView.mem_terms, Num.scalar_zero_float, bne_zero_iff]
    rfl
  · intro m' e blank noConstant reads constant
    have vars : m'.nbVariables = m.nbVariables := by simp [Model.nbVariables, blank]
    refine ⟨_, Model.tryAddObj_of_reads_view rfl vars reads, rfl, ?_, ?_⟩
    · show (ObjectiveView.mk (Model.accumulate m'.varObj m.objective.terms.items) _).terms = _
      rw [blank]
      exact Model.terms_feed_blank rfl _
    · show m'.objConstant + e.constant = _
      rw [noConstant, constant]
      exact zero_add_float _
  · -- the stored copy reads as the view itself
    refine ⟨_, ObjectiveView.materialize_eq _, _,
      Model.tryAddObj_of_reads_view rfl rfl m.objective.terms_linear_copy, rfl, ?_⟩
    show { m with varObj := Model.accumulate m.varObj m.objective.terms.items,
                  objConstant := m.objConstant + m.objConstant } = _
    rw [Model.accumulate_objective_self, Num.add_self]

/-- Three variables with objective coefficients NaN, `-0` and `3`: the view lists ids `0` and `2`,
and its stored copy, added to a fresh model of three variables, gives that model the same view. -/
theorem objective_view_round_trips_example :
    let calls : List (Call Float) := [.addVar .default, .addVar .default, .addVar .default,
      .addObj (.linear ⟨[(0, 0 / 0), (2, 3)], 1⟩), .set (.objCoef (-0)) ⟨1⟩]
    ∃ m m', Model.new.run calls = .ok m ∧ Model.new.run (List.replicate 3 (.addVar .default)) = .ok m' ∧
      m'.varObj = Array.replicate m.nbVariables 0 ∧ m'.objConstant = 0 ∧
      (Expr.linear ⟨m.objective.terms.items, m.objective.constant⟩).terms = m.objective.terms ∧
      (Expr.linear ⟨m.objective.terms.items, m.objective.constant⟩).constant = m.objective.constant ∧
      ∃ s, m'.tryAddObj (.linear ⟨m.objective.terms.items, m.objective.constant⟩) = .ok s ∧ s.result = .ok () ∧
        s.model.objective.terms = m.objective.terms ∧
        s.model.objective.constant = if m.objConstant = -0 then 0 else m.objConstant := by
  intro calls
  refine ⟨_, _, rfl, rfl, rfl, rfl, ObjectiveView.terms_linear_copy _, rfl, ?_⟩
  exact (objective_view_round_trips _).2.1 _ _ rfl rfl (ObjectiveView.terms_linear_copy _) rfl

end Milp
