import Milp.Expr.Basic

/-!
Growable vectors as the store uses them: reading and writing one element, taking a slice, and
resizing. A read, write or slice outside the vector is a fault with the runtime's own text; the
model's invariant is what keeps every such access of a reachable model inside.
-/
namespace Milp.Vec

variable {β : Type}

/-- The fault of an index past the end. -/
def outOfBounds (len i : Nat) : Fault := ⟨s!"index out of bounds: the len is {len} but the index is {i}"⟩

/-- `xs[i]`. -/
def get (xs : Array β) (i : Nat) : Except Fault β :=
  match xs[i]? with
  | some x => .ok x
  | none => .error (outOfBounds xs.size i)

/-- `xs[i] = x`. -/
def set (xs : Array β) (i : Nat) (x : β) : Except Fault (Array β) :=
  if i < xs.size then .ok (xs.setIfInBounds i x) else .error (outOfBounds xs.size i)

/-- `&xs[start..stop]`: a reversed range is refused first, then one that ends past the end. -/
def slice (xs : Array β) (start stop : Nat) : Except Fault (Array β) :=
  let len := xs.size
  if stop < start then .error ⟨s!"slice index starts at {start} but ends at {stop}"⟩
  else if len < stop then .error ⟨s!"range end index {stop} out of range for slice of length {len}"⟩
  else .ok (xs.extract start stop)

/-- `xs.resize(n, d)`: cut to `n` elements, or filled up to `n` with copies of `d`. -/
def resize (xs : Array β) (n : Nat) (d : β) : Array β :=
  if n ≤ xs.size then xs.take n else xs ++ Array.replicate (n - xs.size) d

@[simp] theorem get_eq_ok {xs : Array β} {i : Nat} {x : β} : get xs i = .ok x ↔ xs[i]? = some x := by
  unfold get
  split <;> simp_all

theorem map_get_eq_ok {γ : Type} (f : β → γ) (xs : Array β) (i : Nat) (y : γ) :
    f <$> get xs i = .ok y ↔ ∃ x, xs[i]? = some x ∧ f x = y := by
  unfold get
  split <;> simp_all [Functor.map, Except.map]

theorem get_of_lt {xs : Array β} {i : Nat} (inside : i < xs.size) : get xs i = .ok xs[i] := by
  simp [inside]

theorem set_of_lt {xs : Array β} {i : Nat} (x : β) (inside : i < xs.size) :
    set xs i x = .ok (xs.setIfInBounds i x) := by
  simp [set, inside]

theorem slice_of_le {xs : Array β} {start stop : Nat} (ordered : start ≤ stop) (inside : stop ≤ xs.size) :
    slice xs start stop = .ok (xs.extract start stop) := by
  simp [slice, Nat.not_lt.mpr ordered, Nat.not_lt.mpr inside]

@[simp] theorem size_resize (xs : Array β) (n : Nat) (d : β) : (resize xs n d).size = n := by
  unfold resize
  split <;> simp <;> omega

/-- Growing a vector keeps what it held and puts `d` after it. -/
theorem resize_of_le {xs : Array β} {n : Nat} (grow : xs.size ≤ n) (d : β) :
    resize xs n d = xs ++ Array.replicate (n - xs.size) d := by
  unfold resize
  split
  · have same : n = xs.size := by omega
    subst same
    simp
  · rfl

/-- Entry `i` of a resized vector: the old entry if there was one, `d` up to the new length,
nothing past it. -/
@[simp] theorem getElem?_resize (xs : Array β) (n : Nat) (d : β) (i : Nat) :
    (resize xs n d)[i]? = if i < n then some (xs[i]?.getD d) else none := by
  unfold resize
  split
  case isTrue cut =>
    rw [Array.take_eq_extract, Array.getElem?_extract, Nat.min_eq_left cut, Nat.sub_zero, Nat.zero_add]
    by_cases below : i < n
    · have inside : i < xs.size := by omega
      rw [if_pos below, if_pos below, Array.getElem?_eq_getElem inside, Option.getD_some]
    · rw [if_neg below, if_neg below]
  case isFalse grow =>
    rw [Array.getElem?_append, Array.getElem?_replicate]
    by_cases inside : i < xs.size
    · rw [if_pos inside, if_pos (by omega), Array.getElem?_eq_getElem inside, Option.getD_some]
    · have past : xs[i]? = none := Array.getElem?_eq_none (by omega)
      rw [if_neg inside, past, Option.getD_none]
      by_cases below : i < n
      · rw [if_pos (by omega), if_pos below]
      · rw [if_neg (by omega), if_neg below]

/-- Entry `j` of a vector of `n` entries resized to `n'`: the old entry below both lengths, `d`
from `n` up to `n'`, nothing past `n'`. -/
theorem getElem?_resize_of_size {xs : Array β} {n : Nat} (size : xs.size = n) (n' : Nat) (d : β) (j : Nat) :
    (resize xs n' d)[j]? = if j < n' then (if n ≤ j then some d else xs[j]?) else none := by
  rw [getElem?_resize]
  by_cases below : j < n'
  · by_cases old : n ≤ j
    · have past : xs[j]? = none := Array.getElem?_eq_none (by omega)
      simp [below, old, past]
    · have inside : j < xs.size := by omega
      simp [below, old, Array.getElem?_eq_getElem inside]
  · simp [below]

end Milp.Vec
