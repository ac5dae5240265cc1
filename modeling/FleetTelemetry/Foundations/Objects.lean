import FleetTelemetry.Foundations.OrdMap

/-!
# Objects with identity

A reference says where its object is, so that two references are equal when they are the
same object. Objects are made at addresses that no earlier one has, and a map that others
may hold is copied before an entry of it is set.
-/

namespace Foundations

structure Obj (A : Type) where
  address : Nat
  contents : A
  deriving DecidableEq

/-- Computations that make objects. The state is the next address. -/
abbrev Alloc := StateM Nat

/-- `new`: the next address is the object's. -/
def alloc {A : Type} (contents : A) : Alloc (Obj A) := fun next => (⟨next, contents⟩, next + 1)

section Folds

variable {M E : Type} {f : M → E → Alloc M}

theorem foldlM_cons_run (e : E) (es : List E) (m : M) (n : Nat) :
    (e :: es).foldlM f m n = es.foldlM f (f m e n).1 (f m e n).2 := by
  rw [List.foldlM_cons]
  rfl

/-- What each listed entry keeps, wherever its objects are made, the fold keeps. -/
theorem foldlM_keeps (inv : M → Prop) {es : List E}
    (kept : ∀ e ∈ es, ∀ m n, inv m → inv (f m e n).1) {m : M} (start : inv m) (n : Nat) :
    inv (es.foldlM f m n).1 := by
  induction es generalizing m n with
  | nil => exact start
  | cons e es ih =>
    rw [foldlM_cons_run]
    exact ih (fun e' member => kept e' (List.mem_cons_of_mem _ member))
      (kept e List.mem_cons_self m n start) _

/-- A fold seen through a view that each step commutes with. -/
theorem foldlM_view {W : Type} (view : M → W) (g : W → E → W)
    (step : ∀ m e n, view (f m e n).1 = g (view m) e) (es : List E) (m : M) (n : Nat) :
    view (es.foldlM f m n).1 = es.foldl g (view m) := by
  induction es generalizing m n with
  | nil => rfl
  | cons e es ih => rw [foldlM_cons_run, ih, step, List.foldl_cons]

end Folds

section Maps

variable {K V : Type} [DecidableEq K]

/-- A copy of the map with one entry set. -/
def copySet (current : Obj (OrdMap K V)) (key : K) (entry : Alloc V) :
    Alloc (Obj (OrdMap K V)) := do
  let next ← alloc current.contents
  let value ← entry
  pure { next with contents := next.contents.set key value }

theorem copySet_contents (current : Obj (OrdMap K V)) (key : K) (entry : Alloc V) (n : Nat) :
    (copySet current key entry n).1.contents =
      current.contents.set key (entry (n + 1)).1 := rfl

/-- A new map with an entry for each row, in the order of the rows. -/
def mapOf {R : Type} (key : R → K) (entry : R → Alloc V) (rows : List R) :
    Alloc (Obj (OrdMap K V)) := do
  let map ← alloc .empty
  let contents ← rows.foldlM
    (fun entries row => do
      let value ← entry row
      pure (entries.set (key row) value)) map.contents
  pure { map with contents }

theorem mapOf_contents {R W : Type} (view : V → W) (key : R → K) (entry : R → Alloc V)
    (written : R → W) (same : ∀ row n, view (entry row n).1 = written row) (rows : List R)
    (n : Nat) : (mapOf key entry rows n).1.contents.map view =
      rows.foldl (fun map row => map.set (key row) (written row)) .empty := by
  refine foldlM_view (OrdMap.map view) (fun map row => map.set (key row) (written row)) ?_ rows
    OrdMap.empty (n + 1)
  intro entries row next
  rw [← same row next]
  exact OrdMap.map_set view entries (key row) _

end Maps

end Foundations
