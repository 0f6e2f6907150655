import Mathlib.Data.List.Basic

/-! Postconditions of computations on a state that an error leaves as it was set before.  `Ends` has
one postcondition for a return and one for an error; its rules follow the computation. -/

namespace Lib

variable {ε σ α β : Type}

/-- Run from `s`, the computation returns with `Q` or raises with `E`. -/
def Ends (x : EStateM ε σ α) (s : σ) (Q : α → σ → Prop) (E : ε → σ → Prop) : Prop :=
  match x s with
  | .ok a s' => Q a s'
  | .error e s' => E e s'

variable {x : EStateM ε σ α} {f : α → EStateM ε σ β} {s s' : σ} {Q Q' : α → σ → Prop}
  {R : β → σ → Prop} {E E' : ε → σ → Prop}

@[simp] theorem ends_pure (a : α) : Ends (pure a) s Q E ↔ Q a s := Iff.rfl

@[simp] theorem ends_throw (e : ε) : Ends (throw e) s Q E ↔ E e s := Iff.rfl

@[simp] theorem ends_get {Q : σ → σ → Prop} : Ends get s Q E ↔ Q s s := Iff.rfl

@[simp] theorem ends_modify {Q : PUnit → σ → Prop} (g : σ → σ) :
    Ends (modify g) s Q E ↔ Q ⟨⟩ (g s) := Iff.rfl

/-- The postcondition of the first part is the precondition of the second. -/
@[simp] theorem ends_bind :
    Ends (x >>= f) s R E ↔ Ends x s (fun a s' => Ends (f a) s' R E) E := by
  simp only [Ends, bind, EStateM.bind]
  cases x s <;> rfl

@[simp] theorem ends_ofExcept (v : Except ε α) :
    Ends (ofExcept v) s Q E ↔ match v with
      | .ok a => Q a s
      | .error e => E e s := by
  cases v <;> rfl

theorem Ends.mono (h : Ends x s Q E) (hQ : ∀ a s', Q a s' → Q' a s')
    (hE : ∀ e s', E e s' → E' e s') : Ends x s Q' E' := by
  unfold Ends at h ⊢
  cases hx : x s with
  | ok a s' => exact hQ a s' (by simpa only [hx] using h)
  | error e s' => exact hE e s' (by simpa only [hx] using h)

/-- A loop keeps what its steps establish of the elements that were done. -/
theorem Ends.forM {I : List α → σ → Prop} {g : α → EStateM ε σ PUnit} {l : List α}
    (hstep : ∀ done a rest, l = done ++ a :: rest → ∀ s, I done s →
      Ends (g a) s (fun _ s' => I (done ++ [a]) s') E)
    (hs : I [] s) : Ends (l.forM g) s (fun _ s' => I l s') E := by
  have hloop (todo : List α) : ∀ done s, l = done ++ todo → I done s →
      Ends (todo.forM g) s (fun _ s' => I l s') E := by
    induction todo with
    | nil =>
      intro done s hl h
      rw [List.append_nil] at hl
      subst hl
      exact h
    | cons a rest ih =>
      intro done s hl h
      show Ends (g a >>= fun _ => rest.forM g) s _ E
      rw [ends_bind]
      refine (hstep done a rest hl s h).mono (fun _ s' h' => ?_) fun _ _ => id
      exact ih (done ++ [a]) s' (by rw [hl, List.append_assoc, List.singleton_append]) h'
  exact hloop l [] s rfl hs

theorem Ends.of_ok {a : α} (h : Ends x s Q E) (hx : x s = .ok a s') : Q a s' := by
  simpa only [Ends, hx] using h

theorem Ends.of_error {e : ε} (h : Ends x s Q E) (hx : x s = .error e s') : E e s' := by
  simpa only [Ends, hx] using h

end Lib
