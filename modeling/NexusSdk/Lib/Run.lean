import Mathlib.Data.List.Basic
import Mathlib.Order.Lattice.Nat

/-! Runs of a deterministic step function under a schedule.  A schedule names, one step after
another, the agent that moves; every interleaving of the agents is some schedule.  The module gives
the invariant rules for finite runs, histories in which every event is justified by those before it,
and the rule for reaching a goal along an infinite fair schedule. -/

namespace Lib

section Finite

variable {S A : Type} (step : S → A → S)

/-- The state after the steps of the schedule `σ`, from `s`. -/
def run (s : S) (σ : List A) : S := σ.foldl step s

/-- Every step of the run meets `C`, a condition on the state before the step and its agent. -/
def Along (C : S → A → Prop) (s : S) : List A → Prop
  | [] => True
  | a :: σ => C s a ∧ Along C (step s a) σ

variable {step}

theorem run_nil (s : S) : run step s [] = s := rfl

theorem run_cons (s : S) (a : A) (σ : List A) : run step s (a :: σ) = run step (step s a) σ := rfl

theorem run_append (s : S) (σ τ : List A) : run step s (σ ++ τ) = run step (run step s σ) τ :=
  List.foldl_append

/-- The condition holds of every step, in the state that the steps before it lead to. -/
theorem along_iff {C : S → A → Prop} {s : S} {σ : List A} :
    Along step C s σ ↔ ∀ before a after, σ = before ++ a :: after → C (run step s before) a := by
  induction σ generalizing s with
  | nil => exact iff_of_true trivial (by simp)
  | cons a σ ih =>
    constructor
    · rintro ⟨hC, hrest⟩ before a' after heq
      cases before with
      | nil =>
        obtain ⟨rfl, -⟩ := List.cons.inj heq
        exact hC
      | cons b before =>
        obtain ⟨rfl, htail⟩ := List.cons.inj heq
        exact ih.mp hrest before a' after htail
    · intro h
      exact ⟨h [] a σ rfl, ih.mpr fun before a' after heq =>
        h (a :: before) a' after (congrArg (a :: ·) heq)⟩

theorem Along.append {C : S → A → Prop} {s : S} {σ τ : List A} (h : Along step C s σ)
    (hτ : Along step C (run step s σ) τ) : Along step C s (σ ++ τ) := by
  induction σ generalizing s with
  | nil => exact hτ
  | cons a σ ih => exact ⟨h.1, ih h.2 hτ⟩

/-- What every step that meets `C` preserves holds at the end of a run whose steps all meet `C`. -/
theorem run_induction {C : S → A → Prop} {I : S → Prop}
    (hstep : ∀ s a, I s → C s a → I (step s a)) {s : S} {σ : List A} (h0 : I s)
    (hC : Along step C s σ) : I (run step s σ) := by
  induction σ generalizing s with
  | nil => exact h0
  | cons a σ ih => exact ih (hstep s a h0 hC.1) hC.2

/-- A run whose steps meet `C` meets what follows of `C` in the states of an invariant. -/
theorem Along.of_invariant {C D : S → A → Prop} {I : S → Prop}
    (hstep : ∀ s a, I s → C s a → I (step s a)) (hD : ∀ s a, I s → C s a → D s a) {s : S}
    {σ : List A} (h0 : I s) (hC : Along step C s σ) : Along step D s σ := by
  induction σ generalizing s with
  | nil => trivial
  | cons a σ ih => exact ⟨hD s a h0 hC.1, ih (hstep s a h0 hC.1) hC.2⟩

theorem run_invariant {I : S → Prop} (hstep : ∀ s a, I s → I (step s a)) {s : S} (h0 : I s)
    (σ : List A) : I (run step s σ) := by
  induction σ generalizing s with
  | nil => exact h0
  | cons a σ ih => exact ih (hstep s a h0)

end Finite

section Histories

variable {E : Type}

/-- Each event of the history `h` is justified by the events before it. -/
def Justified (J : List E → E → Prop) (h : List E) : Prop :=
  ∀ before e after, h = before ++ e :: after → J before e

theorem Justified.nil (J : List E → E → Prop) : Justified J [] := by
  intro before e after h
  simp at h

/-- An event at the end of a history needs its own justification only. -/
theorem Justified.snoc {J : List E → E → Prop} {h : List E} {e : E} (hh : Justified J h)
    (he : J h e) : Justified J (h ++ [e]) := by
  intro before e' after heq
  rcases List.eq_nil_or_concat after with rfl | ⟨init, last, rfl⟩
  · obtain ⟨rfl, hlast⟩ := List.append_inj' heq rfl
    obtain rfl := List.singleton_inj.mp hlast
    exact he
  · rw [List.concat_eq_append, ← List.cons_append, ← List.append_assoc] at heq
    exact hh before e' init (List.append_inj' heq rfl).1

theorem Justified.append {J : List E → E → Prop} {h l : List E} (hh : Justified J h)
    (hl : ∀ before, ∀ e ∈ l, J before e) : Justified J (h ++ l) := by
  induction l using List.reverseRecOn with
  | nil => simpa using hh
  | append_singleton l e ih =>
    rw [← List.append_assoc]
    exact (ih fun before e he => hl before e (by simp [he])).snoc (hl _ e (by simp))

end Histories

section Fair

variable {S A : Type} (step : S → A → S)

def stateAt (s : S) (σ : ℕ → A) : ℕ → S
  | 0 => s
  | n + 1 => step (stateAt s σ n) (σ n)

/-- Every agent moves again and again. -/
def Fair (σ : ℕ → A) : Prop := ∀ a n, ∃ m ≥ n, σ m = a

def Eventually (s : S) (σ : ℕ → A) (n : ℕ) (P : S → Prop) : Prop :=
  ∃ m ≥ n, P (stateAt step s σ m)

variable {step} {s : S} {σ : ℕ → A}

theorem stateAt_invariant {I : S → Prop} (hstep : ∀ s a, I s → I (step s a)) (h0 : I s) (n : ℕ) :
    I (stateAt step s σ n) := by
  induction n with
  | zero => exact h0
  | succ n ih => exact hstep _ _ ih

/-- What every step that meets `C` preserves holds throughout a run whose steps all meet `C`. -/
theorem stateAt_induction {C : S → A → Prop} {I : S → Prop}
    (hstep : ∀ s a, I s → C s a → I (step s a)) (h0 : I s)
    (hC : ∀ n, C (stateAt step s σ n) (σ n)) (n : ℕ) : I (stateAt step s σ n) := by
  induction n with
  | zero => exact h0
  | succ n ih => exact hstep _ _ ih (hC n)

/-- The run of a component: each step of the system does to `f s` what a step of `step'` does. -/
theorem stateAt_component {S' A' : Type} {step' : S' → A' → S'} {f : S → S'} {g : S → A → A'}
    (hstep : ∀ s a, f (step s a) = step' (f s) (g s a)) (n : ℕ) :
    f (stateAt step s σ n) = stateAt step' (f s) (fun k => g (stateAt step s σ k) (σ k)) n := by
  induction n with
  | zero => rfl
  | succ n ih => exact (hstep _ _).trans (congrArg (step' · _) ih)

theorem stateAt_succ (n : ℕ) :
    stateAt step s σ (n + 1) = stateAt step (step s (σ 0)) (fun k => σ (k + 1)) n := by
  induction n with
  | zero => rfl
  | succ n ih => exact congrArg (step · (σ (n + 1))) ih

/-- The schedule `l`, and after it `τ`. -/
def followedBy : List A → (ℕ → A) → ℕ → A
  | [], τ, n => τ n
  | a :: _, _, 0 => a
  | _ :: l, τ, n + 1 => followedBy l τ n

theorem followedBy_add (l : List A) (τ : ℕ → A) (n : ℕ) :
    followedBy l τ (l.length + n) = τ n := by
  induction l with
  | nil => rw [List.length_nil, Nat.zero_add, followedBy]
  | cons a l ih => rw [List.length_cons, Nat.succ_add, followedBy, ih]

/-- A run whose last state the steps of `τ` leave as it is stays there. -/
theorem stateAt_followedBy {l : List A} {τ : ℕ → A}
    (hτ : ∀ n, step (run step s l) (τ n) = run step s l) (n : ℕ) :
    stateAt step s (followedBy l τ) (l.length + n) = run step s l := by
  induction l generalizing s with
  | nil =>
    rw [List.length_nil, Nat.zero_add]
    induction n with
    | zero => rfl
    | succ n ih =>
      rw [stateAt, ih]
      exact hτ n
  | cons a l ih =>
    rw [List.length_cons, Nat.succ_add, stateAt_succ]
    exact ih hτ

/-- The steps of a finite run and those at its end all meet `C`. -/
theorem along_followedBy {C : S → A → Prop} {l : List A} {τ : ℕ → A} (hl : Along step C s l)
    (hC : ∀ n, C (run step s l) (τ n)) (hτ : ∀ n, step (run step s l) (τ n) = run step s l) (n : ℕ) :
    C (stateAt step s (followedBy l τ) n) (followedBy l τ n) := by
  induction l generalizing s n with
  | nil =>
    have hstay := stateAt_followedBy (l := []) hτ n
    rw [List.length_nil, Nat.zero_add] at hstay
    rw [hstay]
    exact hC n
  | cons a l ih =>
    cases n with
    | zero => exact hl.1
    | succ n =>
      rw [stateAt_succ]
      exact ih hl.2 hC hτ n

/-- What every step preserves holds from the time on at which it holds. -/
theorem stateAt_stable {P : S → Prop} (hstep : ∀ s a, P s → P (step s a)) {n m : ℕ} (hnm : n ≤ m)
    (h : P (stateAt step s σ n)) : P (stateAt step s σ m) := by
  induction m, hnm using Nat.le_induction with
  | base => exact h
  | succ m _ ih => exact hstep _ _ ih

theorem Eventually.chain {P Q : S → Prop} {n : ℕ} (h : Eventually step s σ n P)
    (hnext : ∀ m ≥ n, P (stateAt step s σ m) → Eventually step s σ m Q) :
    Eventually step s σ n Q := by
  obtain ⟨m, hm, hP⟩ := h
  obtain ⟨k, hk, hQ⟩ := hnext m hm hP
  exact ⟨k, hm.trans hk, hQ⟩

/-- Finitely many stable goals that are each reached are reached together. -/
theorem Eventually.all {ι : Type} {P : ι → S → Prop} (hP : ∀ i s a, P i s → P i (step s a))
    {l : List ι} {n : ℕ} (h : ∀ i ∈ l, Eventually step s σ n (P i)) :
    Eventually step s σ n fun s => ∀ i ∈ l, P i s := by
  induction l with
  | nil => exact ⟨n, le_rfl, by simp⟩
  | cons i l ih =>
    obtain ⟨m, hm, hi⟩ := h i (by simp)
    obtain ⟨m', hm', hl⟩ := ih fun j hj => h j (by simp [hj])
    refine ⟨max m m', le_max_of_le_left hm, fun j hj => ?_⟩
    rcases List.mem_cons.mp hj with rfl | hj
    · exact stateAt_stable (hP j) (le_max_left m m') hi
    · exact stateAt_stable (hP j) (le_max_right m m') (hl j hj)

/-- If the steps that meet `M` lower the measure `μ` until `Goal` holds, and no other step raises it,
a schedule in which such steps occur again and again reaches `Goal`.  `I` is what the steps
preserve. -/
theorem Eventually.of_measure {β : Type} [Preorder β] [WellFoundedLT β] {I Goal : S → Prop}
    {M : S → A → Prop} (μ : S → β) (hI : ∀ s b, I s → I (step s b))
    (hother : ∀ s b, I s → ¬ Goal s → μ (step s b) ≤ μ s)
    (hdown : ∀ s b, M s b → I s → ¬ Goal s → Goal (step s b) ∨ μ (step s b) < μ s) {n : ℕ}
    (hagain : ∀ k ≥ n, ∃ m ≥ k, M (stateAt step s σ m) (σ m) ∨ Goal (stateAt step s σ m))
    (hn : I (stateAt step s σ n)) : Eventually step s σ n Goal := by
  induction hk : μ (stateAt step s σ n) using WellFoundedLT.induction generalizing n with
  | _ k ih =>
  by_contra hnever
  have hnot : ∀ m ≥ n, ¬ Goal (stateAt step s σ m) := fun m hm hg => hnever ⟨m, hm, hg⟩
  have hkeep : ∀ m ≥ n, I (stateAt step s σ m) ∧ μ (stateAt step s σ m) ≤ k := by
    intro m hm
    induction m, hm using Nat.le_induction with
    | base => exact ⟨hn, hk.le⟩
    | succ m hm ih => exact ⟨hI _ _ ih.1, (hother _ _ ih.1 (hnot m hm)).trans ih.2⟩
  obtain ⟨m, hm, hor⟩ := hagain n le_rfl
  have hM := hor.resolve_right (hnot m hm)
  have hlt : μ (stateAt step s σ (m + 1)) < k := by
    rcases hdown _ _ hM (hkeep m hm).1 (hnot m hm) with hg | hlt
    · exact absurd hg (hnot (m + 1) (by omega))
    · exact hlt.trans_le (hkeep m hm).2
  obtain ⟨m', hm', hg⟩ := ih _ hlt (fun j hj => hagain j (by omega)) (hkeep (m + 1) (by omega)).1 rfl
  exact hnever ⟨m', by omega, hg⟩

end Fair

end Lib
