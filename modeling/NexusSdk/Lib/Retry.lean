import NexusSdk.Lib.Traced
import Mathlib.Data.List.Range

/-! Bounded retry of a computation.  The attempts are numbered; the events of a retried computation
are those of its attempts one after another. -/

namespace Lib.Traced

variable {E ε α : Type}

/-- Whether the computation ended with an error that `retries` accepts. -/
def retried (retries : ε → Bool) (x : Traced E ε α) : Bool :=
  match x.outcome with
  | .ok _ => false
  | .error e => retries e

theorem retried_iff {retries : ε → Bool} {x : Traced E ε α} :
    retried retries x = true ↔ ∃ e, x.outcome = .error e ∧ retries e = true := by
  unfold retried
  cases x.outcome with
  | ok a => simp
  | error e => simp

/-- The attempts `x n`, `x (n + 1)`, ... up to the first that is not retried, at most `left` of
them; `exhausted` if all are.  `during` adds to an error of a later attempt the one it follows. -/
def retry (retries : ε → Bool) (during : ε → ε → ε) (exhausted : Except ε α)
    (x : ℕ → Traced E ε α) : ℕ → ℕ → Traced E ε α
  | 0, _ => of exhausted
  | left + 1, n => (x n).handle fun e =>
      if retries e then
        let rest := retry retries during exhausted x left (n + 1)
        ⟨rest.events, rest.outcome.mapError fun e' => during e' e⟩
      else raise e

def attempts (retries : ε → Bool) (x : ℕ → Traced E ε α) : ℕ → ℕ → ℕ
  | 0, _ => 0
  | left + 1, n => if retried retries (x n) then attempts retries x left (n + 1) + 1 else 1

variable {retries : ε → Bool} {during : ε → ε → ε} {exhausted : Except ε α} {x : ℕ → Traced E ε α}

theorem events_retry (left n : ℕ) :
    (retry retries during exhausted x left n).events =
      (List.range' n (attempts retries x left n)).flatMap fun i => (x i).events := by
  induction left generalizing n with
  | zero => rfl
  | succ left ih =>
    unfold retry attempts retried handle
    cases h : (x n).outcome with
    | ok a => simp
    | error e =>
      cases hretries : retries e with
      | true => simp [List.range'_succ, ih, hretries]
      | false => simp [hretries, raise]

/-- An attempt that is not retried is the whole computation. -/
theorem retry_of_not_retried {n : ℕ} (h : retried retries (x n) = false) (left : ℕ) :
    retry retries during exhausted x (left + 1) n = x n := by
  unfold retried at h
  unfold retry handle
  cases hx : (x n).outcome with
  | ok a => rfl
  | error e =>
    rw [hx] at h
    have hretries : retries e = false := h
    simp only [hretries, Bool.false_eq_true, if_false, raise, events_of, outcome_of,
      List.append_nil]
    rw [← hx]

theorem attempts_pos_iff (left n : ℕ) : 0 < attempts retries x left n ↔ 0 < left := by
  cases left with
  | zero => rfl
  | succ left =>
    unfold attempts
    split <;> simp

/-- The attempt `i + 1` is made if it is within the bound and all attempts before it are retried. -/
theorem succ_lt_attempts_iff (left n i : ℕ) :
    i + 1 < attempts retries x left n ↔
      i + 1 < left ∧ ∀ j ≤ i, retried retries (x (n + j)) = true := by
  induction left generalizing n i with
  | zero => simp [attempts]
  | succ left ih =>
    unfold attempts
    split
    · next hn =>
      rw [Nat.add_lt_add_iff_right, Nat.add_lt_add_iff_right]
      cases i with
      | zero => simp [attempts_pos_iff, hn]
      | succ i =>
        rw [ih]
        refine and_congr_right fun _ => ⟨fun h j hj => ?_, fun h j hj => ?_⟩
        · cases j with
          | zero => exact hn
          | succ j => rw [Nat.add_comm j 1, ← Nat.add_assoc]; exact h j (by omega)
        · rw [Nat.add_assoc, Nat.add_comm 1 j]
          exact h (j + 1) (by omega)
    · next hn =>
      constructor
      · intro h
        omega
      · rintro ⟨-, h⟩
        exact absurd (h 0 (by omega)) hn

theorem attempts_le (left n : ℕ) : attempts retries x left n ≤ left := by
  induction left generalizing n with
  | zero => exact le_rfl
  | succ left ih =>
    unfold attempts
    split
    · exact Nat.succ_le_succ (ih (n + 1))
    · omega

/-- An attempt that returns is the last one, and the retried computation returns its value. -/
theorem retry_of_ok {left n i : ℕ} {a : α} (hi : i < attempts retries x left n)
    (hok : (x (n + i)).outcome = .ok a) :
    attempts retries x left n = i + 1 ∧
      (retry retries during exhausted x left n).outcome = .ok a := by
  induction left generalizing n i with
  | zero => cases hi
  | succ left ih =>
    cases hn : retried retries (x n) with
    | false =>
      rw [attempts, hn] at hi ⊢
      obtain rfl : i = 0 := by simpa using hi
      exact ⟨rfl, by rw [retry_of_not_retried hn, ← hok, Nat.add_zero]⟩
    | true =>
      rw [attempts, if_pos hn] at hi ⊢
      cases i with
      | zero =>
        rw [Nat.add_zero] at hok
        simp [retried, hok] at hn
      | succ i =>
        have hnext : (x (n + 1 + i)).outcome = .ok a := by
          rw [← hok]
          congr 2
          omega
        obtain ⟨hcount, hout⟩ := ih (Nat.lt_of_succ_lt_succ hi) hnext
        refine ⟨by rw [hcount], ?_⟩
        cases hx : (x n).outcome with
        | ok b => simp [retried, hx] at hn
        | error e =>
          have hretries : retries e = true := by simpa [retried, hx] using hn
          rw [retry, handle, hx]
          simp only [hretries, if_true, hout, Except.mapError]

/-- Two bounds and two choices of what is retried make no difference if both retry the same attempts
and end with the same one. -/
theorem retry_congr {retries' : ε → Bool} {exhausted' : Except ε α} {left left' n k : ℕ}
    (hk : k < left) (hk' : k < left')
    (hbefore : ∀ j < k, retried retries (x (n + j)) = true ∧ retried retries' (x (n + j)) = true)
    (hlast : retried retries (x (n + k)) = false ∧ retried retries' (x (n + k)) = false) :
    retry retries during exhausted x left n = retry retries' during exhausted' x left' n := by
  induction k generalizing left left' n with
  | zero =>
    obtain ⟨left, rfl⟩ := Nat.exists_eq_add_one_of_ne_zero hk.ne'
    obtain ⟨left', rfl⟩ := Nat.exists_eq_add_one_of_ne_zero hk'.ne'
    rw [Nat.add_zero] at hlast
    rw [retry_of_not_retried hlast.1, retry_of_not_retried hlast.2]
  | succ k ih =>
    obtain ⟨left, rfl⟩ := Nat.exists_eq_add_one_of_ne_zero (Nat.ne_zero_of_lt hk)
    obtain ⟨left', rfl⟩ := Nat.exists_eq_add_one_of_ne_zero (Nat.ne_zero_of_lt hk')
    have hshift (j : ℕ) : n + 1 + j = n + (j + 1) := by omega
    have hrest : retry retries during exhausted x left (n + 1) =
        retry retries' during exhausted' x left' (n + 1) := by
      refine ih (Nat.lt_of_succ_lt_succ hk) (Nat.lt_of_succ_lt_succ hk') (fun j hj => ?_) ?_
      · rw [hshift]
        exact hbefore (j + 1) (Nat.succ_lt_succ hj)
      · rw [hshift]
        exact hlast
    obtain ⟨hfirst, hfirst'⟩ := hbefore 0 (Nat.succ_pos k)
    unfold retried at hfirst hfirst'
    cases hx : (x n).outcome with
    | ok a => simp [hx] at hfirst
    | error e =>
      simp only [Nat.add_zero, hx] at hfirst hfirst'
      rw [retry, retry, handle, handle, hx]
      simp only [hfirst, hfirst', if_true, hrest]

/-- Neither other computations, if they are the same in the attempts that are made, nor another way
to add to errors, if it is the same for the errors of these, make a difference. -/
theorem retry_congr_of_attempts {during' : ε → ε → ε} {x' : ℕ → Traced E ε α} {P : ε → Prop}
    (hduring : ∀ e e', P e → during' e e' = during e e' ∧ P (during e e'))
    (hexhausted : ∀ e, exhausted = .error e → P e) {left n : ℕ}
    (hx : ∀ i < attempts retries x left n,
      x' (n + i) = x (n + i) ∧ ∀ e, (x (n + i)).outcome = .error e → P e) :
    retry retries during' exhausted x' left n = retry retries during exhausted x left n ∧
      ∀ e, (retry retries during exhausted x left n).outcome = .error e → P e := by
  induction left generalizing n with
  | zero => exact ⟨rfl, hexhausted⟩
  | succ left ih =>
    obtain ⟨hsame, hfirst⟩ := hx 0 ((attempts_pos_iff _ n).mpr (Nat.succ_pos left))
    rw [Nat.add_zero] at hsame hfirst
    cases hn : retried retries (x n) with
    | false =>
      have hn' : retried retries (x' n) = false := hsame ▸ hn
      rw [retry_of_not_retried hn, retry_of_not_retried hn', hsame]
      exact ⟨rfl, hfirst⟩
    | true =>
      have hcount : attempts retries x (left + 1) n = attempts retries x left (n + 1) + 1 := by
        simp [attempts, hn]
      obtain ⟨heq, herror⟩ := ih (n := n + 1) fun i hi => by
        rw [Nat.add_assoc, Nat.add_comm 1 i]
        exact hx (i + 1) (by omega)
      obtain ⟨e, he, hretries⟩ := retried_iff.mp hn
      simp only [retry, handle, hsame, he, hretries, if_true, heq]
      cases hrest : (retry retries during exhausted x left (n + 1)).outcome with
      | ok a => exact ⟨rfl, fun e' h => by cases h⟩
      | error e' =>
        obtain ⟨hsame', hP⟩ := hduring e' e (herror e' hrest)
        simp only [Except.mapError, hsame', Except.error.injEq, forall_eq', true_and]
        exact hP

variable (retries exhausted x) in
/-- Up to what `during` adds to errors, the outcome is that of the first attempt that is not retried,
or of the exhaustion. -/
theorem retry_cases {δ : Type} {bare : ε → δ} (hbare : ∀ e e', bare (during e e') = bare e)
    (left n : ℕ) :
    (∃ k < left, (∀ j < k, retried retries (x (n + j)) = true) ∧
        retried retries (x (n + k)) = false ∧ attempts retries x left n = k + 1 ∧
        (retry retries during exhausted x left n).outcome.mapError bare =
          (x (n + k)).outcome.mapError bare) ∨
      (∀ j < left, retried retries (x (n + j)) = true) ∧ attempts retries x left n = left ∧
        (retry retries during exhausted x left n).outcome.mapError bare =
          exhausted.mapError bare := by
  induction left generalizing n with
  | zero => exact .inr ⟨by simp, rfl, rfl⟩
  | succ left ih =>
    cases hn : retried retries (x n) with
    | false =>
      refine .inl ⟨0, by omega, by simp, hn, by simp [attempts, hn], ?_⟩
      unfold retried at hn
      unfold retry handle
      cases hx : (x n).outcome with
      | ok a => simp [hx]
      | error e =>
        rw [hx] at hn
        simp only [show retries e = false from hn, raise, of, Bool.false_eq_true, if_false]
    | true =>
      obtain ⟨e, he, hretries⟩ := retried_iff.mp hn
      have houtcome : (retry retries during exhausted x (left + 1) n).outcome.mapError bare =
          (retry retries during exhausted x left (n + 1)).outcome.mapError bare := by
        rw [retry, handle, he]
        simp only [hretries, if_true]
        cases (retry retries during exhausted x left (n + 1)).outcome with
        | ok a => rfl
        | error e' => exact congrArg Except.error (hbare e' e)
      have hattempts : attempts retries x (left + 1) n = attempts retries x left (n + 1) + 1 := by
        simp [attempts, hn]
      have hshift (j : ℕ) : n + 1 + j = n + (j + 1) := by omega
      rw [houtcome, hattempts]
      rcases ih (n + 1) with ⟨k, hk, hbefore, hlast, hcount, hout⟩ | ⟨hall, hcount, hout⟩
      · rw [hshift] at hlast hout
        refine .inl ⟨k + 1, by omega, fun j hj => ?_, hlast, by rw [hcount], hout⟩
        cases j with
        | zero => exact hn
        | succ j => exact hshift j ▸ hbefore j (by omega)
      · refine .inr ⟨fun j hj => ?_, by rw [hcount], hout⟩
        cases j with
        | zero => exact hn
        | succ j => exact hshift j ▸ hall j (by omega)

/-- A value is that of the last attempt, or of the exhaustion. -/
theorem retry_eq_ok {left n : ℕ} {a : α}
    (h : (retry retries during exhausted x left n).outcome = .ok a) :
    (∃ k < left, attempts retries x left n = k + 1 ∧ (x (n + k)).outcome = .ok a) ∨
      exhausted = .ok a := by
  have hnothing : ∀ e e', Function.const ε () (during e e') = Function.const ε () e :=
    fun _ _ => rfl
  rcases retry_cases retries exhausted x hnothing left n with
    ⟨k, hk, -, -, hcount, hout⟩ | ⟨-, -, hout⟩
  · rw [h] at hout
    exact .inl ⟨k, hk, hcount, mapError_eq_ok_iff.mp hout.symm⟩
  · rw [h] at hout
    exact .inr (mapError_eq_ok_iff.mp hout.symm)

end Lib.Traced
