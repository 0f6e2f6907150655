/-! Coroutines: computations that suspend, and await the answers to requests.  What a coroutine does
between two suspensions is one step of the system that it runs in. -/

namespace Lib

variable {Q A ε α β S T : Type}

/-- A coroutine that awaits answers in `A` to requests in `Q`, and returns or raises. -/
inductive Coroutine (Q A ε α : Type)
  | ends (outcome : Except ε α)
  | suspends (rest : Coroutine Q A ε α)
  | awaits (request : Q) (rest : A → Coroutine Q A ε α)

namespace Coroutine

protected def bind : Coroutine Q A ε α → (α → Coroutine Q A ε β) → Coroutine Q A ε β
  | ends (.ok a), f => f a
  | ends (.error e), _ => ends (.error e)
  | suspends rest, f => suspends (rest.bind f)
  | awaits request rest, f => awaits request fun a => (rest a).bind f

instance : Monad (Coroutine Q A ε) where
  pure a := ends (.ok a)
  bind := Coroutine.bind

/-- One await; the answer is an outcome. -/
def await (request : Q) : Coroutine Q (Except ε α) ε α := awaits request ends

/-! ### Outcomes -/

/-- The coroutine can come to an outcome if requests have the given answers. -/
inductive Produces (Answers : Q → A → Prop) : Coroutine Q A ε α → Except ε α → Prop
  | ends (outcome : Except ε α) : Produces Answers (ends outcome) outcome
  | suspends {rest : Coroutine Q A ε α} {outcome : Except ε α}
      (h : Produces Answers rest outcome) : Produces Answers (suspends rest) outcome
  | awaits {request : Q} {rest : A → Coroutine Q A ε α} {a : A} {outcome : Except ε α}
      (ha : Answers request a) (h : Produces Answers (rest a) outcome) :
      Produces Answers (awaits request rest) outcome

variable {Answers Answers' : Q → A → Prop} {c : Coroutine Q A ε α} {outcome : Except ε α}

theorem Produces.mono (h : Produces Answers c outcome)
    (hle : ∀ request a, Answers request a → Answers' request a) : Produces Answers' c outcome := by
  induction h with
  | ends outcome => exact .ends outcome
  | suspends _ ih => exact .suspends ih
  | awaits ha _ ih => exact .awaits (hle _ _ ha) ih

theorem produces_ends_iff {outcome' : Except ε α} :
    Produces Answers (.ends outcome) outcome' ↔ outcome' = outcome := by
  constructor
  · rintro ⟨⟩
    rfl
  · rintro rfl
    exact .ends _

theorem produces_pure_iff {a : α} :
    Produces Answers (pure a : Coroutine Q A ε α) outcome ↔ outcome = .ok a :=
  produces_ends_iff

/-- A sequence returns if both parts do. -/
theorem produces_bind_ok {f : α → Coroutine Q A ε β} {b : β} :
    Produces Answers (c >>= f) (.ok b) ↔
      ∃ a, Produces Answers c (.ok a) ∧ Produces Answers (f a) (.ok b) := by
  show Produces Answers (c.bind f) (.ok b) ↔ _
  induction c with
  | ends outcome =>
    cases outcome with
    | ok a =>
      constructor
      · exact fun h => ⟨a, .ends _, h⟩
      · rintro ⟨a', ha, h⟩
        obtain rfl := Except.ok.inj (produces_ends_iff.mp ha)
        exact h
    | error e =>
      constructor
      · intro h
        cases produces_ends_iff.mp h
      · rintro ⟨a, ha, -⟩
        cases produces_ends_iff.mp ha
  | suspends rest ih =>
    constructor
    · rintro ⟨⟩
      next h =>
        obtain ⟨a, ha, hb⟩ := ih.mp h
        exact ⟨a, .suspends ha, hb⟩
    · rintro ⟨a, ⟨⟩, hb⟩
      next ha => exact .suspends (ih.mpr ⟨a, ha, hb⟩)
  | awaits request rest ih =>
    constructor
    · rintro ⟨⟩
      next answer hanswer h =>
        obtain ⟨a, ha, hb⟩ := (ih answer).mp h
        exact ⟨a, .awaits hanswer ha, hb⟩
    · rintro ⟨a, ⟨⟩, hb⟩
      next answer hanswer ha => exact .awaits hanswer ((ih answer).mpr ⟨a, ha, hb⟩)

theorem produces_await {request : Q} {Answers : Q → Except ε α → Prop} {outcome : Except ε α} :
    Produces Answers (await request) outcome ↔ Answers request outcome := by
  constructor
  · rintro ⟨⟩
    next a ha h =>
      obtain rfl := produces_ends_iff.mp h
      exact ha
  · exact fun h => .awaits h (.ends _)

/-! ### Steps -/

/-- Where a coroutine stops: at its end, at a suspension, or at a request that is not answered yet
and is known by a token. -/
inductive Stop (Q A ε α T : Type)
  | ended (outcome : Except ε α)
  | suspended (rest : Coroutine Q A ε α)
  | awaiting (token : T) (rest : A → Coroutine Q A ε α)

/-- The coroutine goes on to its next stop; a request is answered at once, or gets a token. -/
def goOn (ask : S → Q → S × (T ⊕ A)) : Coroutine Q A ε α → S → S × Stop Q A ε α T
  | ends outcome, s => (s, .ended outcome)
  | suspends rest, s => (s, .suspended rest)
  | awaits request rest, s =>
    match ask s request with
    | (s, .inl token) => (s, .awaiting token rest)
    | (s, .inr a) => goOn ask (rest a) s

/-- What every answer preserves holds where the coroutine stops. -/
theorem goOn_induction {ask : S → Q → S × (T ⊕ A)} {I : Coroutine Q A ε α → S → Prop}
    {R : S × Stop Q A ε α T → Prop}
    (hends : ∀ outcome s, I (ends outcome) s → R (s, .ended outcome))
    (hsuspends : ∀ rest s, I (suspends rest) s → R (s, .suspended rest))
    (hawaits : ∀ request rest s s' token, I (awaits request rest) s →
      ask s request = (s', .inl token) → R (s', .awaiting token rest))
    (hanswers : ∀ request rest s s' a, I (awaits request rest) s →
      ask s request = (s', .inr a) → I (rest a) s') {c : Coroutine Q A ε α} {s : S} (h : I c s) :
    R (c.goOn ask s) := by
  induction c generalizing s with
  | ends outcome => exact hends outcome s h
  | suspends rest _ => exact hsuspends rest s h
  | awaits request rest ih =>
    rw [goOn]
    rcases hask : ask s request with ⟨s', token | a⟩
    · exact hawaits request rest s s' token h hask
    · exact ih a (hanswers request rest s s' a h hask)

end Coroutine

end Lib
