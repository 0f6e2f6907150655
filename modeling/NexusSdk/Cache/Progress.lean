import NexusSdk.Cache.Termination
import NexusSdk.Cache.Evaluation
import NexusSdk.Cache.Once

/-! Without failing hooks, every call of `resolve` returns under a fair schedule, for an acyclic
input graph: it ends, it does not raise, and what it returns are the values of its arguments. -/

namespace NexusSdk.Cache

open Lib

variable {Obj Val : Type} [DecidableEq Obj]

/-- What a call answers under the values `value`. -/
def Call.Answers (P : Inputs Obj Val) (value : Obj → Option Val) (call : Call Obj Val) : Prop :=
  match call.state with
  | .returned result => result = named P value call.args
  | .raised _ => False
  | _ => True

def Answered (P : Inputs Obj Val) (value : Obj → Option Val) (s : State Obj Val) : Prop :=
  ∀ (i : Nat) (call : Call Obj Val), s.calls[i]? = some call → call.Answers P value

/-- All that holds in every reachable state of a run without failing hooks. -/
structure Sound (P : Inputs Obj Val) (value : Obj → Option Val) (kwargs : Kwargs Val)
    (s : State Obj Val) : Prop where
  accounted : Accounted P s
  evaluated : Evaluated P value kwargs s
  answered : Answered P value s

section Run

variable {P : Inputs Obj Val} {f : Obj → Kwargs Val → Option Val} {value : Obj → Option Val}
  {kwargs : Kwargs Val} {s : State Obj Val} {t i : Nat} {c : Caller}

omit [DecidableEq Obj] in
theorem Answered.setCall {st : CallState Val} (h : Answered P value s)
    (hst : ∀ call, s.calls[i]? = some call → Call.Answers P value { call with state := st }) :
    Answered P value (s.setCall i st) := by
  intro j call hcall
  rw [State.calls_setCall, List.getElem?_modify] at hcall
  obtain ⟨old, hold, rfl⟩ := Option.map_eq_some_iff.mp hcall
  split
  · next heq => exact hst old (heq ▸ hold)
  · exact h j old hold

theorem Sound.stepCall (h : Sound P value kwargs s) : Sound P value kwargs (s.stepCall P i) := by
  refine ⟨h.accounted.stepCall, h.evaluated.stepCall h.accounted, ?_⟩
  refine State.stepCall_rule (Q := Answered P value) fun s₁ hstep => ?_
  cases hstep with
  | idle _ => exact h.answered
  | sleeps hp _ =>
    refine Answered.setCall (fun j call hcall => ?_) fun _ _ => trivial
    exact h.answered j call (State.calls_polls hp ▸ hcall)
  | raises hp hw =>
    have hfail := (State.waitForCache_raises hw).2
    rw [(h.evaluated.polls hp).firstFailure_eq_none] at hfail
    cases hfail
  | returns hp hw =>
    obtain ⟨hn, rfl⟩ := State.waitForCache_returns hw
    refine Answered.setCall (fun j call hcall => ?_) fun call hcall => ?_
    · exact h.answered j call (State.calls_polls hp ▸ hcall)
    · show _ = named P value call.args
      rw [State.args_of_polls_call hp hcall]
      exact (h.evaluated.polls hp).collect_eq ((h.accounted.polls hp).2 hn)

theorem Sound.advance (hP : Functional P f)
    (hvalue : ∀ x, value x = f x (kwargs.merge (named P value (P.readers x))))
    (h : Sound P value kwargs s) : Sound P value kwargs (s.advance P t) where
  accounted := h.accounted.advance
  evaluated := h.evaluated.advance hP hvalue h.accounted
  answered i call hcall := by
    rw [State.calls_advance] at hcall
    exact h.answered i call hcall

theorem Sound.step (hP : Functional P f)
    (hvalue : ∀ x, value x = f x (kwargs.merge (named P value (P.readers x))))
    (h : Sound P value kwargs s) : Sound P value kwargs (s.step P c) :=
  State.step_induction (fun _ => h.stepCall) (fun _ _ hs => hs.advance hP hvalue) h

/-- A call that has ended has returned the values of its arguments. -/
theorem Sound.returned {call : Call Obj Val} {st : CallState Val} (h : Sound P value kwargs s)
    (hcall : s.calls[i]? = some { call with state := st }) (hended : st.ended = true) :
    st = .returned (named P value call.args) := by
  have hanswers := h.answered i _ hcall
  cases st with
  | returned d => exact congrArg CallState.returned hanswers
  | raised e => exact absurd hanswers id
  | idle => cases hended
  | polling n => cases hended

theorem eventually_returned (hP : Functional P f)
    (hvalue : ∀ x, value x = f x (kwargs.merge (named P value (P.readers x)))) {σ : ℕ → Caller}
    (hfair : Fair σ) (hac : Acyclic P.readers) (hs : Sound P value kwargs s)
    (hprogressing : Progressing P s) {call : Call Obj Val} (hcall : s.calls[i]? = some call) :
    Eventually (State.step P) s σ 0 fun s =>
      s.calls[i]? = some { call with state := .returned (named P value call.args) } := by
  refine (eventually_callEnded (fun t => hfair (.task t)) hac ⟨hs.accounted, hprogressing⟩ hcall
    fun k _ => ?_).chain fun m _ hended => ?_
  · obtain ⟨m, hm, hσ⟩ := hfair (.call i) k
    exact ⟨m, hm, .inl hσ⟩
  · obtain ⟨last, hlast, hended⟩ := hended
    have hsound : Sound P value kwargs (stateAt (State.step P) s σ m) :=
      stateAt_invariant (fun _ _ h => h.step hP hvalue) hs m
    obtain ⟨st, hst⟩ : ∃ st, (stateAt (State.step P) s σ m).calls[i]? =
        some { call with state := st } :=
      stateAt_invariant (I := fun s : State Obj Val =>
        ∃ st, s.calls[i]? = some { call with state := st })
        (fun s c ⟨st, hst⟩ => (callLeft_step (c := c) (P := P) hst).1) ⟨call.state, hcall⟩ m
    obtain rfl := Option.some.inj (hlast.symm.trans hst)
    rw [hsound.returned hst hended] at hst
    exact ⟨m, le_rfl, hst⟩

end Run

section Refinement

variable (P : Inputs Obj Val) (f : Obj → Kwargs Val → Option Val) (kwargs : Kwargs Val)

theorem sound_exec (hP : Functional P f) (hac : Acyclic P.readers)
    {calls : List (List Obj × Kwargs Val)} (hcalls : ∀ call ∈ calls, call.2 = kwargs)
    (σ : List Caller) :
    Sound P (inputValue P f kwargs hac) kwargs (exec P calls σ) :=
  run_invariant (fun _ _ h => h.step hP (inputValue_eq hac))
    ⟨Accounted.initial P calls, Evaluated.initial _ hcalls, fun i call hcall => by
      obtain ⟨c, -, rfl⟩ : ∃ c, calls[i]? = some c ∧ ⟨c.1, c.2, .idle⟩ = call := by
        simpa [Cache.initial] using hcall
      trivial⟩ σ

/-- Concurrent resolution refines the recursive evaluation of an acyclic input graph: every event of
every run agrees with the values of the inputs, and under a fair schedule each call returns them. -/
theorem resolve_refines_evaluation (hP : Functional P f) (hac : Acyclic P.readers)
    (calls : List (List Obj × Kwargs Val)) (hcalls : ∀ call ∈ calls, call.2 = kwargs) :
    (∀ σ, Justified (Agrees P (inputValue P f kwargs hac) kwargs) (exec P calls σ).history) ∧
      ∀ σ : ℕ → Caller, Fair σ → ∀ (i : Nat) (args : List Obj), calls[i]? = some (args, kwargs) →
        Eventually (State.step P) (initial calls) σ 0 fun s : State Obj Val =>
          s.calls[i]? =
            some ⟨args, kwargs, .returned (named P (inputValue P f kwargs hac) args)⟩ := by
  refine ⟨fun σ => (sound_exec P f kwargs hP hac hcalls σ).evaluated.events, ?_⟩
  intro σ hfair i args hi
  have hcall : (initial calls).calls[i]? = some ⟨args, kwargs, .idle⟩ := by
    simp [Cache.initial, hi]
  exact eventually_returned hP (inputValue_eq hac) hfair hac
    (sound_exec P f kwargs hP hac hcalls []) (Progressing.initial P calls) hcall

theorem resolve_refines_evaluation_readerChain :
    let calls : List (List Bool × Kwargs String) := [([true, false], .empty)]
    let value := inputValue readerChain (fun x _ => some (toString x)) .empty
      (.of_rank (fun x => if x then 1 else 0) (by decide))
    (∀ σ, Justified (Agrees readerChain value .empty) (exec readerChain calls σ).history) ∧
      ∀ σ : ℕ → Caller, Fair σ → ∀ (i : Nat) (args : List Bool), calls[i]? = some (args, .empty) →
        Eventually (State.step readerChain) (initial calls) σ 0 fun s : State Bool String =>
          s.calls[i]? = some ⟨args, .empty, .returned (named readerChain value args)⟩ :=
  resolve_refines_evaluation readerChain _ .empty ⟨fun _ _ => rfl, fun _ _ _ => rfl, fun _ _ => rfl⟩
    _ _ (by simp)

end Refinement

end NexusSdk.Cache
