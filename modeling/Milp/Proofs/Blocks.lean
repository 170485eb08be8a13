import Milp.Proofs.Attributes
import Milp.Proofs.Traversal

/-!
# Blocks of variables

Adding a block of `count` variables to a model with `n` of them faults exactly when the vectors
would have to grow past what a vector of doubles can hold. Otherwise the model has the machine-word
sum `n + count` of variables, wrapped past `2 ^ 64`: the variables below both ends keep their
attributes, those from `n` up to the new end have the defaults, those a wrap cut off are gone, and
the block's accessor maps a logical index to `n` plus its offset, as a machine word adds them, when
the offset lies inside the block, and faults, naming both, when it does not
(`added_block_extends_model`). Where the sum does not wrap, no later run that wraps no block lowers
the number of variables (`Stored.nbVariables_le_run`), so the block's ids are new when it is added
and name variables of every later model. A wrapped block reuses ids (`wrapped_block_reuses_ids`).
-/
namespace Milp

namespace Model

variable {α : Type} [MachineScalar α] {m m' : Model α} {R : List (Row α)}

/-- No run that wraps no block lowers the number of variables. -/
theorem Stored.nbVariables_le_run (stored : m.Stored R) {calls : List (Call α)}
    (fits : Call.Fits m.nbVariables calls) (ran : m.run calls = .ok m') : m.nbVariables ≤ m'.nbVariables := by
  -- one call at a time; `Stored` carries the equal entry vectors that the count of a call needs
  induction calls generalizing m R with
  | nil =>
    cases ran
    exact Nat.le_refl _
  | cons c rest ih =>
    obtain ⟨m₁, first, later⟩ := run_cons_eq_ok.mp ran
    obtain ⟨now, after⟩ := Call.fits_cons.mp fits
    have grown : m₁.nbVariables = c.grow m.nbVariables := exec_nbVariables stored.entries first
    calc m.nbVariables
        ≤ c.grow m.nbVariables := Call.le_grow now
      _ = m₁.nbVariables := grown.symm
      _ ≤ m'.nbVariables := ih (stored.exec first) (grown ▸ after) later

theorem exec_of_tryAddVars {count : Nat} {table : Array Nat} {blk : Block} {ev : Event}
    (added : m.tryAddVars count table = .ok (blk, m', ev)) : m.exec (.addVars count table) = .ok m' := by
  simp [exec, added, Functor.map, Except.map]

end Model

/-- Adding a block to a reachable model succeeds unless growing vectors would outgrow a vector of
doubles; the number of variables becomes the wrapped sum, and the accessor gives the old number plus
the offset, wrapped. Without a wrap, later runs that wrap no block keep the block's ids, all new. -/
theorem added_block_extends_model {α : Type} [MachineScalar α] {m : Model α} (reach : m.Reachable)
    (count : Nat) (table : Array Nat) :
    ((∃ blk m' ev, m.tryAddVars count table = .ok (blk, m', ev)) ↔
      (m.nbVariables < wordAdd m.nbVariables count → wordAdd m.nbVariables count ≤ Model.maxVariables)) ∧
    ∀ blk m' ev, m.tryAddVars count table = .ok (blk, m', ev) →
      m'.nbVariables = wordAdd m.nbVariables count ∧ ev = .addedBlock m.nbVariables count ∧
      (∀ j < m.nbVariables, j < m'.nbVariables → ∀ att, m'.attr? j att = m.attr? j att) ∧
      (∀ j, m.nbVariables ≤ j → j < m'.nbVariables → ∀ att,
        m'.attr? j att = some ((VarOptions.default : VarOptions α).get att)) ∧
      (∀ j, m'.nbVariables ≤ j → ∀ att, m'.attr? j att = none) ∧
      (∀ i, let k := table[i]?.getD i
        (k < count → blk.access i = .ok (wordAdd m.nbVariables k)) ∧
        (count ≤ k → blk.access i = .error ⟨s!"Variable block index maps to offset {k} outside block of size {count}"⟩)) ∧
      (m.nbVariables + count < 2 ^ 64 → m'.nbVariables = m.nbVariables + count ∧
        ∀ calls m'', Call.Fits m'.nbVariables calls → m'.run calls = .ok m'' → m'.nbVariables ≤ m''.nbVariables ∧
          ∀ i j, blk.access i = .ok j → m.nbVariables ≤ j ∧ j < m''.nbVariables) := by
  obtain ⟨R, stored⟩ := reach.stored
  refine ⟨⟨fun ⟨blk, m', ev, added⟩ => (Model.tryAddVars_eq_ok.mp added).1,
    fun limit => ⟨_, _, _, Model.tryAddVars_eq_ok.mpr ⟨limit, rfl⟩⟩⟩, ?_⟩
  intro blk m' ev added
  have ran := Model.exec_of_tryAddVars added
  have grown : m'.nbVariables = wordAdd m.nbVariables count := by
    simpa [Call.grow] using Model.exec_nbVariables stored.entries ran
  have later := stored.exec ran
  obtain ⟨-, made⟩ := Model.tryAddVars_eq_ok.mp added
  have block : blk = ⟨m.nbVariables, count, table⟩ := congrArg Prod.fst made
  have model : m' = (m.addVars count table).2.1 := congrArg (·.2.1) made
  have event : ev = .addedBlock m.nbVariables count := congrArg (·.2.2) made
  subst block model event
  refine ⟨grown, rfl, fun j below kept att => ?_, fun j low high att => ?_,
    fun j past att => Model.attr?_of_ge later.toAligned past att, fun i => ⟨fun inside => ?_, fun outside => ?_⟩,
    fun fits => ?_⟩
  · rw [Model.attr?_addVars stored.toAligned, if_pos (grown ▸ kept), if_neg (by omega)]
  · rw [Model.attr?_addVars stored.toAligned, if_pos (grown ▸ high), if_pos low]
  · exact Block.access_eq_ok.mpr ⟨inside, rfl⟩
  · simp [Block.access, Block.offset, Nat.not_lt.mpr outside]
  · -- without a wrap the block's ids run from the old number of variables up to the new one
    have sum := grown.trans (wordAdd_of_lt fits)
    refine ⟨sum, fun calls m'' unwrapped ran' => ?_⟩
    have more := later.nbVariables_le_run unwrapped ran'
    refine ⟨more, fun i j accessed => ?_⟩
    obtain ⟨below, rfl⟩ := Block.access_eq_ok.mp accessed
    dsimp only at below ⊢
    rw [wordAdd_of_lt (by omega)]
    exact ⟨Nat.le_add_right _ _, by omega⟩

/-- One variable, then a block of five whose index `i` addresses offset `4 - i`: the block is
added, from id `1`. -/
theorem added_block_extends_model_example :
    let calls : List (Call Float) := [.addVar .default]
    ∃ m, Model.new.run calls = .ok m ∧
      ((∃ blk m' ev, m.tryAddVars 5 #[4, 3, 2, 1, 0] = .ok (blk, m', ev)) ↔
        (m.nbVariables < wordAdd m.nbVariables 5 → wordAdd m.nbVariables 5 ≤ Model.maxVariables)) ∧
      ∀ blk m' ev, m.tryAddVars 5 #[4, 3, 2, 1, 0] = .ok (blk, m', ev) →
        m'.nbVariables = wordAdd m.nbVariables 5 ∧ ev = .addedBlock m.nbVariables 5 ∧
        (∀ j < m.nbVariables, j < m'.nbVariables → ∀ att, m'.attr? j att = m.attr? j att) ∧
        (∀ j, m.nbVariables ≤ j → j < m'.nbVariables → ∀ att,
          m'.attr? j att = some ((VarOptions.default : VarOptions Float).get att)) ∧
        (∀ j, m'.nbVariables ≤ j → ∀ att, m'.attr? j att = none) ∧
        (∀ i, let k := (#[4, 3, 2, 1, 0] : Array Nat)[i]?.getD i
          (k < 5 → blk.access i = .ok (wordAdd m.nbVariables k)) ∧
          (5 ≤ k → blk.access i = .error ⟨s!"Variable block index maps to offset {k} outside block of size {5}"⟩)) ∧
        (m.nbVariables + 5 < 2 ^ 64 → m'.nbVariables = m.nbVariables + 5 ∧
          ∀ calls m'', Call.Fits m'.nbVariables calls → m'.run calls = .ok m'' → m'.nbVariables ≤ m''.nbVariables ∧
            ∀ i j, blk.access i = .ok j → m.nbVariables ≤ j ∧ j < m''.nbVariables) := by
  intro calls
  have ran : Model.new.run calls = .ok _ := rfl
  exact ⟨_, ran, added_block_extends_model ⟨calls, ran⟩ 5 #[4, 3, 2, 1, 0]⟩

/-- Two variables, then a block of `2 ^ 64 - 1`: the number of variables wraps to one, and the
accessor gives the block's offset `2 ^ 64 - 2` the id `0` of a variable that existed before it. -/
theorem wrapped_block_reuses_ids :
    ∃ m : Model Float, Model.new.run [.addVar .default, .addVar .default] = .ok m ∧
      ∃ blk m' ev, m.tryAddVars (2 ^ 64 - 1) #[] = .ok (blk, m', ev) ∧ m'.nbVariables = 1 ∧
        blk.access (2 ^ 64 - 2) = .ok 0 := by
  refine ⟨_, rfl, _, _, _, Model.tryAddVars_eq_ok.mpr ⟨?limit, rfl⟩, ?count, Block.access_eq_ok.mpr ⟨?inside, ?wrapped⟩⟩
  case limit => decide +kernel
  case count => decide +kernel
  case inside => decide +kernel
  case wrapped => decide +kernel

end Milp
