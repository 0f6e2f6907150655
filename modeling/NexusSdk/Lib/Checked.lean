import NexusSdk.Lib.Traced

/-! Computations that end as the first of a list of checks that does not pass.  A check that fails
tells the class of the error. -/

namespace Lib

variable {ε κ C α β γ : Type}

/-- The class of the error with which a computation ends. -/
def ending (classOf : ε → κ) : Except ε β → Option κ
  | .ok _ => none
  | .error e => some (classOf e)

/-- The computation ends as the first of the checks that does not pass. -/
def Checked (classOf : ε → κ) (failure : C → Option κ) (x : Except ε β) (checks : List C) : Prop :=
  ending classOf x = checks.findSome? failure

/-- The checks of what follows a computation, if it returns. -/
def following (x : Except ε β) (rest : β → List C) : List C :=
  match x with
  | .ok b => rest b
  | .error _ => []

namespace Checked

variable {classOf : ε → κ} {failure : C → Option κ} {x : Except ε β} {f : β → Except ε γ}
  {checks : List C}

theorem ok (b : β) : Checked classOf failure (.ok b) [] := rfl

theorem single {check : C} (h : failure check = ending classOf x) :
    Checked classOf failure x [check] := by
  unfold Checked
  rw [List.findSome?_singleton, h]

theorem map (h : Checked classOf failure x checks) (g : β → γ) :
    Checked classOf failure (x.map g) checks := by
  cases x <;> exact h

theorem bind {rest : β → List C} (hx : Checked classOf failure x checks)
    (hf : ∀ b, x = .ok b → Checked classOf failure (f b) (rest b)) :
    Checked classOf failure (x >>= f) (checks ++ following x rest) := by
  unfold Checked at hx ⊢
  rw [List.findSome?_append, ← hx]
  cases x with
  | error e => rfl
  | ok b => exact hf b rfl

/-- Checks that do not depend on what the first computation returns. -/
theorem seq {rest : List C} (hx : Checked classOf failure x checks)
    (hf : ∀ b, x = .ok b → Checked classOf failure (f b) rest) :
    Checked classOf failure (x >>= f) (checks ++ rest) := by
  unfold Checked at hx ⊢
  rw [List.findSome?_append, ← hx]
  cases x with
  | error e => rfl
  | ok b => exact hf b rfl

/-- Further checks play no part if the computation fails. -/
theorem refine {rest : List C} (hx : Checked classOf failure x checks) {y : Except ε γ}
    (herror : ∀ e, x = .error e → y = .error e)
    (hok : ∀ b, x = .ok b → Checked classOf failure y rest) :
    Checked classOf failure y (checks ++ rest) := by
  unfold Checked at hx ⊢
  rw [List.findSome?_append, ← hx]
  cases x with
  | error e =>
    rw [herror e rfl]
    rfl
  | ok b => exact hok b rfl

/-- All checks pass exactly if the computation returns. -/
theorem passes_iff (hx : Checked classOf failure x checks) :
    checks.findSome? failure = none ↔ ∃ b, x = .ok b := by
  rw [← hx]
  cases x with
  | error e => simp [ending]
  | ok b => simp [ending]

theorem forM {f : α → Except ε PUnit} {g : α → List C} {l : List α}
    (h : ∀ a ∈ l, Checked classOf failure (f a) (g a)) :
    Checked classOf failure (l.forM f) (l.flatMap g) := by
  induction l with
  | nil => exact ok _
  | cons a rest ih =>
    obtain ⟨ha, hrest⟩ := List.forall_mem_cons.mp h
    exact ha.seq fun _ _ => ih hrest

theorem mapM {f : α → Except ε β} {g : α → List C} {l : List α}
    (h : ∀ a ∈ l, Checked classOf failure (f a) (g a)) :
    Checked classOf failure (l.mapM f) (l.flatMap g) := by
  induction l with
  | nil => exact ok _
  | cons a rest ih =>
    obtain ⟨ha, hrest⟩ := List.forall_mem_cons.mp h
    rw [List.mapM_cons, List.flatMap_cons]
    refine ha.seq fun b _ => ?_
    have hcons := (ih hrest).seq (f := fun bs => .ok (b :: bs)) fun bs _ => ok (b :: bs)
    rw [List.append_nil] at hcons
    exact hcons

end Checked

/-- The first value is `true` exactly if there is a value, and each `false` comes after a `true`. -/
theorem findSome?_eq_true_iff {f : α → Option Bool} {l : List α} :
    l.findSome? f = some true ↔
      (∀ front a rest, l = front ++ a :: rest → f a = some false → ∃ b ∈ front, f b = some true) ∧
        ∃ a ∈ l, f a ≠ none := by
  constructor
  · intro h
    obtain ⟨front, a, rest, hsplit, ha, hfront⟩ := List.findSome?_eq_some_iff.mp h
    refine ⟨fun front' a' rest' hsplit' ha' => ?_, a, ?_, ?_⟩
    · rcases List.append_eq_append_iff.mp (hsplit.symm.trans hsplit') with
        ⟨between, hfront', hrest⟩ | ⟨between, hfront', hrest⟩
      · cases between with
        | nil =>
          obtain rfl := (List.cons.inj hrest).1
          rw [ha] at ha'
          cases ha'
        | cons b between =>
          obtain rfl := (List.cons.inj hrest).1
          exact ⟨a, hfront' ▸ List.mem_append_right front List.mem_cons_self, ha⟩
      · cases between with
        | nil =>
          obtain rfl := (List.cons.inj hrest).1
          rw [ha] at ha'
          cases ha'
        | cons b between =>
          obtain rfl := (List.cons.inj hrest).1
          rw [hfront a' (hfront' ▸ List.mem_append_right front' List.mem_cons_self)] at ha'
          cases ha'
    · exact hsplit ▸ List.mem_append_right front List.mem_cons_self
    · rw [ha]
      exact Option.some_ne_none true
  · rintro ⟨horder, a, ha, hsome⟩
    cases hfirst : l.findSome? f with
    | none => exact absurd (List.findSome?_eq_none_iff.mp hfirst a ha) hsome
    | some first =>
      cases first with
      | true => rfl
      | false =>
        obtain ⟨front, b, rest, hsplit, hb, hfront⟩ := List.findSome?_eq_some_iff.mp hfirst
        obtain ⟨c, hc, htrue⟩ := horder front b rest hsplit hb
        rw [hfront c hc] at htrue
        cases htrue

theorem eq_map_of_mapM {f : α → Except ε β} {g : α → β} (h : ∀ a b, f a = .ok b → b = g a)
    {l : List α} {bs : List β} (hl : l.mapM f = .ok bs) : bs = l.map g := by
  induction l generalizing bs with
  | nil => exact (Except.ok.inj hl).symm
  | cons a rest ih =>
    rw [List.mapM_cons] at hl
    cases hb : f a with
    | error e =>
      rw [hb] at hl
      cases hl
    | ok b =>
    cases hrest : rest.mapM f with
    | error e =>
      rw [hb, hrest] at hl
      cases hl
    | ok bs' =>
      rw [hb, hrest] at hl
      obtain rfl := Except.ok.inj hl
      rw [List.map_cons, h a b hb, ih hrest]

end Lib
