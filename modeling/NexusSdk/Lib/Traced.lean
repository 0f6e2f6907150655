import Mathlib.Data.List.Basic

/-! Computations that emit events and end with a value or an error.  Their monad keeps the events
that were emitted before an error. -/

namespace Lib

/-- The events of a computation, in order, and how it ended. -/
@[ext]
structure Traced (E ε α : Type) where
  events : List E
  outcome : Except ε α

namespace Traced

variable {E ε α β : Type}

def of (x : Except ε α) : Traced E ε α := ⟨[], x⟩

def emit (e : E) : Traced E ε Unit := ⟨[e], .ok ()⟩

def raise (e : ε) : Traced E ε α := of (.error e)

protected def bind (x : Traced E ε α) (f : α → Traced E ε β) : Traced E ε β :=
  match x.outcome with
  | .ok a => ⟨x.events ++ (f a).events, (f a).outcome⟩
  | .error e => ⟨x.events, .error e⟩

instance : Monad (Traced E ε) where
  pure a := of (.ok a)
  bind := Traced.bind

/-- `x`, and after an error of it the handler `h`. -/
def handle (x : Traced E ε α) (h : ε → Traced E ε α) : Traced E ε α :=
  match x.outcome with
  | .ok _ => x
  | .error e => ⟨x.events ++ (h e).events, (h e).outcome⟩

/-- `x`, with its error changed. -/
def mapError {ε' : Type} (f : ε → ε') (x : Traced E ε α) : Traced E ε' α :=
  ⟨x.events, x.outcome.mapError f⟩

def when (c : Bool) (x : Traced E ε Unit) : Traced E ε Unit := if c then x else of (.ok ())

theorem bind_def (x : Traced E ε α) (f : α → Traced E ε β) : x >>= f = x.bind f := rfl

@[simp] theorem pure_def (a : α) : (pure a : Traced E ε α) = of (.ok a) := rfl

@[simp] theorem events_of (x : Except ε α) : (of x : Traced E ε α).events = [] := rfl

@[simp] theorem outcome_of (x : Except ε α) : (of x : Traced E ε α).outcome = x := rfl

@[simp] theorem of_ok_bind (a : α) (f : α → Traced E ε β) : of (.ok a) >>= f = f a := rfl

@[simp] theorem of_error_bind (e : ε) (f : α → Traced E ε β) :
    of (.error e) >>= f = of (.error e) := rfl

@[simp] theorem raise_bind (e : ε) (f : α → Traced E ε β) : raise e >>= f = raise e := rfl

theorem mk_ok_bind (l : List E) (a : α) (f : α → Traced E ε β) :
    (⟨l, .ok a⟩ : Traced E ε α) >>= f = ⟨l ++ (f a).events, (f a).outcome⟩ := rfl

theorem mk_error_bind (l : List E) (e : ε) (f : α → Traced E ε β) :
    (⟨l, .error e⟩ : Traced E ε α) >>= f = ⟨l, .error e⟩ := rfl

theorem outcome_bind (x : Traced E ε α) (f : α → Traced E ε β) :
    (x >>= f).outcome = x.outcome.bind fun a => (f a).outcome := by
  obtain ⟨l, _ | a⟩ := x <;> rfl

theorem outcome_when (c : Bool) (x : Traced E ε Unit) :
    (when c x).outcome = if c then x.outcome else .ok () := by
  cases c <;> rfl

theorem events_when (c : Bool) (x : Traced E ε Unit) :
    (when c x).events = if c then x.events else [] := by
  cases c <;> rfl

theorem mem_events_bind {x : Traced E ε α} {f : α → Traced E ε β} {e : E} :
    e ∈ (x >>= f).events ↔
      e ∈ x.events ∨ ∃ a, x.outcome = .ok a ∧ e ∈ (f a).events := by
  obtain ⟨l, _ | a⟩ := x
  · simp [mk_error_bind]
  · simp [mk_ok_bind]

theorem outcome_bind_eq_ok {x : Traced E ε α} {f : α → Traced E ε β} {b : β} :
    (x >>= f).outcome = .ok b ↔ ∃ a, x.outcome = .ok a ∧ (f a).outcome = .ok b := by
  obtain ⟨l, _ | a⟩ := x
  · simp [mk_error_bind]
  · simp [mk_ok_bind]

/-- A sequence that returns has the events of both parts. -/
theorem of_bind_ok {x : Traced E ε α} {f : α → Traced E ε β} {b : β}
    (h : (x >>= f).outcome = .ok b) :
    ∃ a, x.outcome = .ok a ∧ (f a).outcome = .ok b ∧
      (x >>= f).events = x.events ++ (f a).events := by
  obtain ⟨l, _ | a⟩ := x
  · cases h
  · exact ⟨a, rfl, h, rfl⟩

theorem mem_events_forM {e : E} {f : α → Traced E ε PUnit} {l : List α}
    (h : e ∈ (l.forM f).events) : ∃ a ∈ l, e ∈ (f a).events := by
  induction l with
  | nil => cases h
  | cons a rest ih =>
    rcases mem_events_bind.mp h with h | ⟨-, -, h⟩
    · exact ⟨a, List.mem_cons_self, h⟩
    · obtain ⟨b, hb, he⟩ := ih h
      exact ⟨b, List.mem_cons_of_mem a hb, he⟩

theorem outcome_forM {f : α → Traced E ε PUnit} (l : List α) :
    (l.forM f).outcome = l.forM fun a => (f a).outcome := by
  induction l with
  | nil => rfl
  | cons a rest ih =>
    calc
      ((a :: rest).forM f).outcome = (f a).outcome.bind fun _ => (rest.forM f).outcome :=
        outcome_bind _ _
      _ = (a :: rest).forM fun a => (f a).outcome := by
        rw [ih]
        rfl

section MapError

variable {ε' : Type} {f : ε → ε'} {x : Traced E ε α}

@[simp] theorem events_mapError : (x.mapError f).events = x.events := rfl

@[simp] theorem outcome_mapError : (x.mapError f).outcome = x.outcome.mapError f := rfl

theorem mapError_eq_ok_iff {o : Except ε α} {a : α} : o.mapError f = .ok a ↔ o = .ok a := by
  cases o <;> simp [Except.mapError]

theorem mapError_eq_error_iff {o : Except ε α} {e' : ε'} :
    o.mapError f = .error e' ↔ ∃ e, o = .error e ∧ f e = e' := by
  cases o <;> simp [Except.mapError]

/-- Errors that stay as they are. -/
theorem mapError_eq_self {f : ε → ε} (h : ∀ e, x.outcome = .error e → f e = e) :
    x.mapError f = x := by
  obtain ⟨l, e | a⟩ := x
  · exact congrArg (fun e => Traced.mk l (.error e)) (h e rfl)
  · rfl

end MapError

/-- A handler that only raises adds no events. -/
theorem events_handle_raise (x : Traced E ε α) (g : ε → ε) :
    (x.handle fun e => raise (g e)).events = x.events := by
  unfold handle
  cases x.outcome with
  | ok a => rfl
  | error e => exact List.append_nil _

end Traced

/-- The first error of outcomes in order. -/
def firstError {ε : Type} : List (Except ε Unit) → Except ε Unit
  | [] => .ok ()
  | .ok _ :: rest => firstError rest
  | .error e :: _ => .error e

theorem firstError_append {ε : Type} (l l' : List (Except ε Unit)) :
    firstError (l ++ l') = (firstError l).bind fun _ => firstError l' := by
  induction l with
  | nil => rfl
  | cons x l ih =>
    cases x with
    | error e => rfl
    | ok _ => exact ih

end Lib
