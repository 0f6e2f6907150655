import NexusSdk.Lib.Run

/-! Forward simulation between two step functions, along an abstraction of the states.  A step of
the concrete system is matched by some moves of the abstract one, possibly none, and each of these
moves is justified by the concrete state that it leads to, now and later. -/

namespace Lib

variable {S A T B : Type}

/-- The abstract system follows the concrete one, on the states of an invariant. -/
structure Simulates (stepC : S → A → S) (stepA : T → B → T) (abs : S → T) (I : S → Prop)
    (Justified : S → B → Prop) : Prop where
  preserves : ∀ s a, I s → I (stepC s a)
  follows : ∀ s a, I s →
    ∃ τ, abs (stepC s a) = run stepA (abs s) τ ∧ ∀ b ∈ τ, Justified (stepC s a) b
  keeps : ∀ s a b, I s → Justified s b → Justified (stepC s a) b

namespace Simulates

variable {stepC : S → A → S} {stepA : T → B → T} {abs : S → T} {I : S → Prop}
  {Justified : S → B → Prop} {s : S}

theorem keeps_run (h : Simulates stepC stepA abs I Justified) (h0 : I s) {b : B}
    (hb : Justified s b) (σ : List A) : Justified (run stepC s σ) b :=
  (run_invariant (fun s' a (h' : I s' ∧ Justified s' b) =>
    (⟨h.preserves s' a h'.1, h.keeps s' a b h'.1 h'.2⟩ : I _ ∧ Justified _ b)) ⟨h0, hb⟩ σ).2

/-- A run of the concrete system is one of the abstract system. -/
theorem run (h : Simulates stepC stepA abs I Justified) (h0 : I s) (σ : List A) :
    ∃ τ, abs (run stepC s σ) = Lib.run stepA (abs s) τ ∧
      ∀ b ∈ τ, Justified (Lib.run stepC s σ) b := by
  induction σ generalizing s with
  | nil => exact ⟨[], rfl, by simp⟩
  | cons a σ ih =>
    obtain ⟨τ, hτ, hjustified⟩ := h.follows s a h0
    obtain ⟨τ', hτ', hjustified'⟩ := ih (h.preserves s a h0)
    refine ⟨τ ++ τ', ?_, fun b hb => ?_⟩
    · rw [run_append, ← hτ]
      exact hτ'
    · rcases List.mem_append.mp hb with hb | hb
      · exact h.keeps_run (h.preserves s a h0) (hjustified b hb) σ
      · exact hjustified' b hb

end Simulates

end Lib
