import Mathlib.Logic.Relation
import Mathlib.Order.WellFounded

/-! Evaluation of an acyclic dependency graph.  The value of a node is a function of the values of
its dependencies, which are listed in the order in which the node names them. -/

namespace Lib

variable {ι V : Type}

/-- No node depends on itself through other nodes, and no chain of dependencies is infinite. -/
def Acyclic (deps : ι → List ι) : Prop := WellFounded fun y x => y ∈ deps x

theorem Acyclic.of_rank {deps : ι → List ι} (rank : ι → ℕ)
    (h : ∀ x, ∀ y ∈ deps x, rank y < rank x) : Acyclic deps :=
  Subrelation.wf (fun {y x} hyx => h x y hyx) (measure rank).wf

/-- `y` is `x` or one of its direct or indirect dependencies. -/
abbrev Reaches (deps : ι → List ι) : ι → ι → Prop := Relation.ReflTransGen fun x y => y ∈ deps x

variable {deps : ι → List ι} (node : ι → List (ι × V) → V)

/-- The value of a node, from the values of its dependencies. -/
noncomputable def evaluate (hac : Acyclic deps) : ι → V :=
  hac.fix fun x value => node x ((deps x).attach.map fun y => (y.1, value y.1 y.2))

theorem evaluate_eq (hac : Acyclic deps) (x : ι) :
    evaluate node hac x = node x ((deps x).map fun y => (y, evaluate node hac y)) := by
  refine (WellFounded.fix_eq ..).trans (congrArg (node x) ?_)
  exact List.attach_map_val (f := fun y => (y, evaluate node hac y))

/-! ### Recursion over the dependencies -/

theorem eventually_forall_mem {P : ℕ → ι → Prop} (l : List ι)
    (h : ∀ y ∈ l, ∃ n, ∀ m ≥ n, P m y) : ∃ n, ∀ m ≥ n, ∀ y ∈ l, P m y := by
  induction l with
  | nil => exact ⟨0, by simp⟩
  | cons x l ih =>
    obtain ⟨n₁, h₁⟩ := h x List.mem_cons_self
    obtain ⟨n₂, h₂⟩ := ih fun y hy => h y (List.mem_cons_of_mem x hy)
    refine ⟨max n₁ n₂, fun m hm => List.forall_mem_cons.mpr ⟨h₁ m ?_, h₂ m ?_⟩⟩ <;> omega

/-- What a recursion does for a node, if it does it for the dependencies with a recursion limit one
lower, it does for every node with every limit that is large enough. -/
theorem Acyclic.eventually (hac : Acyclic deps) {P : ℕ → ι → Prop}
    (h : ∀ m x, (∀ y ∈ deps x, P m y) → P (m + 1) x) (x : ι) : ∃ n, ∀ m ≥ n, P m x := by
  induction x using hac.induction with
  | _ x ih =>
    obtain ⟨n, hn⟩ := eventually_forall_mem (deps x) ih
    refine ⟨n + 1, fun m hm => ?_⟩
    obtain ⟨k, rfl⟩ : ∃ k, m = k + 1 := ⟨m - 1, by omega⟩
    exact h k x (hn k (by omega))

end Lib
