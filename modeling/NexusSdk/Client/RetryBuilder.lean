import NexusSdk.Client.RetryPolicy
import NexusSdk.Lib.Run

/-! `NexusRetryPolicyBuilder` on an explicit heap.  Policies and builders hold their error types in
a list that they refer to by its address; the logger, which is only passed on, is left out. -/

namespace NexusSdk.Client

open Lib

/-- The classes of retry policies. -/
inductive PolicyType
  | sync
  | async
  deriving DecidableEq

/-- A policy object; `errorTypes` is the address of its list. -/
structure PolicyObject where
  policyType : PolicyType
  retryCount : Int
  retryBaseDelayMs : Int
  errorTypes : Nat
  retryExhaustErrorType : Option PyClass

/-- A builder: the fields of the policies that it builds, and its default policy. -/
structure BuilderObject extends PolicyObject where
  defaultPolicy : Nat

/-- The objects, by their addresses.  Every list that is referred to exists, and the list of a
builder is the one of its default policy. -/
@[ext]
structure Heap where
  lists : List (List PyClass)
  policies : List PolicyObject
  builders : List BuilderObject
  allocated : ∀ policy ∈ policies, policy.errorTypes < lists.length
  shared : ∀ builder ∈ builders, ∃ policy,
    policies[builder.defaultPolicy]? = some policy ∧ policy.errorTypes = builder.errorTypes

theorem getElem?_append_of_some {A : Type} {l : List A} {i : Nat} {a : A} (h : l[i]? = some a)
    (l' : List A) : (l ++ l')[i]? = some a := by
  rw [List.getElem?_append_left (List.getElem?_eq_some_iff.mp h).1, h]

theorem getElem?_modify_append {A : Type} {l : List (List A)} {i : Nat} (h : i < l.length)
    (more : List A) : (l.modify i (· ++ more))[i]? = some (l[i] ++ more) := by
  rw [List.getElem?_modify_eq, List.getElem?_eq_getElem h]
  rfl

namespace Heap

/-! ### The operations -/

/-- `default` of a class of policies; the new policy is the last one. -/
def default (s : Heap) (policyType : PolicyType) : Heap where
  lists := s.lists ++ [[networkError]]
  policies := s.policies ++ [{
    policyType
    retryCount := 3
    retryBaseDelayMs := 5000
    errorTypes := s.lists.length
    retryExhaustErrorType := some nexusClientRuntimeError }]
  builders := s.builders
  allocated policy hpolicy := by
    rw [List.length_append, List.length_singleton]
    rcases List.mem_append.mp hpolicy with hpolicy | hpolicy
    · have hlt := s.allocated policy hpolicy
      omega
    · rw [List.mem_singleton.mp hpolicy]
      exact Nat.lt_succ_self _
  shared builder hbuilder := by
    obtain ⟨policy, hpolicy, hlist⟩ := s.shared builder hbuilder
    exact ⟨policy, getElem?_append_of_some hpolicy _, hlist⟩

/-- `NexusRetryPolicyBuilder(default_policy)`. -/
def construct (s : Heap) (defaultPolicy : Nat) : Heap :=
  match h : s.policies[defaultPolicy]? with
  | none => s
  | some policy =>
    { s with
      builders := s.builders ++ [{ policy with defaultPolicy }]
      shared := fun builder hbuilder => by
        rcases List.mem_append.mp hbuilder with hbuilder | hbuilder
        · exact s.shared builder hbuilder
        · rw [List.mem_singleton.mp hbuilder]
          exact ⟨policy, h, rfl⟩ }

/-- The builder's default policy is a new one. -/
def fork (s : Heap) (b : Nat) : Heap :=
  match s.builders[b]? with
  | none => s
  | some builder => (s.default builder.policyType).construct s.policies.length

/-- An assignment to a field of a builder that holds no reference. -/
def setField (s : Heap) (b : Nat) (f : BuilderObject → BuilderObject)
    (hlist : ∀ builder, (f builder).errorTypes = builder.errorTypes)
    (hdefault : ∀ builder, (f builder).defaultPolicy = builder.defaultPolicy) : Heap where
  lists := s.lists
  policies := s.policies
  builders := s.builders.modify b f
  allocated := s.allocated
  shared builder hbuilder := by
    obtain ⟨i, hi⟩ := List.mem_iff_getElem?.mp hbuilder
    rw [List.getElem?_modify] at hi
    obtain ⟨old, hold, rfl⟩ := Option.map_eq_some_iff.mp hi
    obtain ⟨policy, hpolicy, hshared⟩ := s.shared old (List.mem_of_getElem? hold)
    split
    · exact ⟨policy, by rw [hdefault, hpolicy], by rw [hlist, hshared]⟩
    · exact ⟨policy, hpolicy, hshared⟩

def withRetries (s : Heap) (b : Nat) (count : Int) : Heap :=
  s.setField b (fun builder => { builder with retryCount := count }) (fun _ => rfl) fun _ => rfl

def withRetryBaseDelayMs (s : Heap) (b : Nat) (delay : Int) : Heap :=
  s.setField b (fun builder => { builder with retryBaseDelayMs := delay }) (fun _ => rfl)
    fun _ => rfl

def withRetryExhaustErrorType (s : Heap) (b : Nat) (error : Option PyClass) : Heap :=
  s.setField b (fun builder => { builder with retryExhaustErrorType := error }) (fun _ => rfl)
    fun _ => rfl

/-- The list is extended in place. -/
def withErrorTypes (s : Heap) (b : Nat) (errors : List PyClass) : Heap :=
  match s.builders[b]? with
  | none => s
  | some builder =>
    { s with
      lists := s.lists.modify builder.errorTypes (· ++ errors)
      allocated := fun policy hpolicy => by
        rw [List.length_modify]
        exact s.allocated policy hpolicy }

/-- `build`; the new policy is the last one. -/
def build (s : Heap) (b : Nat) : Heap :=
  match h : s.builders[b]? with
  | none => s
  | some builder =>
    { s with
      policies := s.policies ++ [builder.toPolicyObject]
      allocated := fun policy hpolicy => by
        rcases List.mem_append.mp hpolicy with hpolicy | hpolicy
        · exact s.allocated policy hpolicy
        · obtain ⟨default, hdefault, hlist⟩ := s.shared builder (List.mem_of_getElem? h)
          rw [List.mem_singleton.mp hpolicy, ← hlist]
          exact s.allocated default (List.mem_of_getElem? hdefault)
      shared := fun other hother => by
        obtain ⟨policy, hpolicy, hlist⟩ := s.shared other hother
        exact ⟨policy, getElem?_append_of_some hpolicy _, hlist⟩ }

end Heap

inductive BuilderOp
  | construct (defaultPolicy : Nat)
  | fork (b : Nat)
  | withRetries (b : Nat) (count : Int)
  | withRetryBaseDelayMs (b : Nat) (delay : Int)
  | withRetryExhaustErrorType (b : Nat) (error : Option PyClass)
  | withErrorTypes (b : Nat) (errors : List PyClass)
  | build (b : Nat)

/-- The builder on which the operation is called. -/
def BuilderOp.builder? : BuilderOp → Option Nat
  | .construct _ => none
  | .fork b | .withRetries b _ | .withRetryBaseDelayMs b _ | .withRetryExhaustErrorType b _
  | .withErrorTypes b _ | .build b => some b

def Heap.step (s : Heap) : BuilderOp → Heap
  | .construct defaultPolicy => s.construct defaultPolicy
  | .fork b => s.fork b
  | .withRetries b count => s.withRetries b count
  | .withRetryBaseDelayMs b delay => s.withRetryBaseDelayMs b delay
  | .withRetryExhaustErrorType b error => s.withRetryExhaustErrorType b error
  | .withErrorTypes b errors => s.withErrorTypes b errors
  | .build b => s.build b

/-! ### Values -/

/-- A policy with its error types. -/
structure PolicyValue extends NexusClientRetryPolicy where
  policyType : PolicyType
  retryBaseDelayMs : Int

namespace Heap

variable (s : Heap)

def value (policy : PolicyObject) : PolicyValue where
  policyType := policy.policyType
  retryCount := policy.retryCount
  retryBaseDelayMs := policy.retryBaseDelayMs
  errorTypes := s.lists[policy.errorTypes]?.getD []
  retryExhaustErrorType := policy.retryExhaustErrorType

def policy? (p : Nat) : Option PolicyValue := s.policies[p]?.map s.value

/-- What the builder would build. -/
def builder? (b : Nat) : Option PolicyValue := s.builders[b]?.map fun o => s.value o.toPolicyObject

end Heap

/-- Policies and builders do not interfere in the run: a built policy has and keeps the values that
its builder had, every policy keeps its values, and an operation changes no builder but its own. -/
structure NonInterfering (s : Heap) (ops : List BuilderOp) : Prop where
  built_kept : ∀ before b middle rest v, ops = before ++ .build b :: (middle ++ rest) →
    (run Heap.step s before).builder? b = some v →
    (run Heap.step s (before ++ .build b :: middle)).policy?
      (run Heap.step s before).policies.length = some v
  policies_kept : ∀ before middle rest p v, ops = before ++ (middle ++ rest) →
    (run Heap.step s before).policy? p = some v →
    (run Heap.step s (before ++ middle)).policy? p = some v
  builders_kept : ∀ before op rest b v, ops = before ++ op :: rest → op.builder? ≠ some b →
    (run Heap.step s before).builder? b = some v →
    (run Heap.step s (before ++ [op])).builder? b = some v

/-- The operation does not add error types to those of a builder. -/
def AddsNoErrorTypes (s : Heap) : BuilderOp → Prop
  | .withErrorTypes b errors => b < s.builders.length → errors = []
  | _ => True

/-! ### What an operation leaves as it was -/

namespace Heap

/-- All that exists is as before, except for the builder `target`. -/
structure Extends (s s' : Heap) (target : Option Nat) : Prop where
  lists : ∀ (a : Nat) l, s.lists[a]? = some l → s'.lists[a]? = some l
  policies : ∀ (p : Nat) policy, s.policies[p]? = some policy → s'.policies[p]? = some policy
  builders : ∀ (b : Nat) builder, target ≠ some b → s.builders[b]? = some builder →
    s'.builders[b]? = some builder

variable {s s' : Heap}

theorem Extends.refl (s : Heap) (target : Option Nat) : Extends s s target :=
  ⟨fun _ _ h => h, fun _ _ h => h, fun _ _ _ h => h⟩

theorem extends_construct (s : Heap) (p : Nat) (target : Option Nat) :
    Extends s (s.construct p) target := by
  unfold construct
  split
  · exact .refl s target
  · exact ⟨fun _ _ h => h, fun _ _ h => h, fun _ _ _ h => getElem?_append_of_some h _⟩

theorem extends_fork (s : Heap) (b : Nat) (target : Option Nat) :
    Extends s (s.fork b) target := by
  unfold fork
  split
  · exact .refl s target
  · next builder hbuilder =>
    obtain ⟨hlists, hpolicies, hbuilders⟩ :=
      extends_construct (s.default builder.policyType) s.policies.length target
    exact ⟨fun a l h => hlists a l (getElem?_append_of_some h _),
      fun p policy h => hpolicies p policy (getElem?_append_of_some h _), hbuilders⟩

theorem extends_setField (s : Heap) (b : Nat) {f : BuilderObject → BuilderObject}
    (hlist : ∀ builder, (f builder).errorTypes = builder.errorTypes)
    (hdefault : ∀ builder, (f builder).defaultPolicy = builder.defaultPolicy) :
    Extends s (s.setField b f hlist hdefault) (some b) := by
  refine ⟨fun _ _ h => h, fun _ _ h => h, fun b' builder hne h => ?_⟩
  show (s.builders.modify b f)[b']? = some builder
  rw [List.getElem?_modify_ne _ _ fun heq => hne (congrArg some heq), h]

theorem extends_build (s : Heap) (b : Nat) (target : Option Nat) :
    Extends s (s.build b) target := by
  unfold build
  split
  · exact .refl s target
  · exact ⟨fun _ _ h => h, fun _ _ h => getElem?_append_of_some h _, fun _ _ _ h => h⟩

theorem withErrorTypes_nil (s : Heap) (b : Nat) : s.withErrorTypes b [] = s := by
  unfold withErrorTypes
  split
  · rfl
  · next builder hbuilder =>
    refine Heap.ext ?_ rfl rfl
    simp only [List.append_nil]
    exact List.modify_id _ _

/-- An operation that adds no error types changes nothing but the builder on which it is called. -/
theorem extends_step {op : BuilderOp} (h : AddsNoErrorTypes s op) :
    Extends s (s.step op) op.builder? := by
  cases op with
  | construct p => exact extends_construct s p none
  | fork b => exact extends_fork s b (some b)
  | withRetries b count => apply extends_setField <;> exact fun _ => rfl
  | withRetryBaseDelayMs b delay => apply extends_setField <;> exact fun _ => rfl
  | withRetryExhaustErrorType b error => apply extends_setField <;> exact fun _ => rfl
  | build b => exact extends_build s b (some b)
  | withErrorTypes b errors =>
    show Extends s (s.withErrorTypes b errors) (some b)
    by_cases hlt : b < s.builders.length
    · rw [h hlt, withErrorTypes_nil]
      exact .refl s (some b)
    · have hnone : s.builders[b]? = none := List.getElem?_eq_none (Nat.le_of_not_lt hlt)
      unfold withErrorTypes
      rw [hnone]
      exact .refl s (some b)

/-- The list of a builder exists. -/
theorem allocated_builder {builder : BuilderObject} (h : builder ∈ s.builders) :
    builder.errorTypes < s.lists.length := by
  obtain ⟨policy, hpolicy, hlist⟩ := s.shared builder h
  rw [← hlist]
  exact s.allocated policy (List.mem_of_getElem? hpolicy)

section Extends

variable {target : Option Nat}

theorem Extends.value (h : Extends s s' target) {policy : PolicyObject}
    (hlt : policy.errorTypes < s.lists.length) : s'.value policy = s.value policy := by
  unfold Heap.value
  rw [h.lists _ _ (List.getElem?_eq_getElem hlt), List.getElem?_eq_getElem hlt]

theorem Extends.policy? (h : Extends s s' target) {p : Nat} {v : PolicyValue}
    (hv : s.policy? p = some v) : s'.policy? p = some v := by
  obtain ⟨policy, hpolicy, rfl⟩ := Option.map_eq_some_iff.mp hv
  rw [Heap.policy?, h.policies p policy hpolicy, Option.map_some,
    h.value (s.allocated policy (List.mem_of_getElem? hpolicy))]

theorem Extends.builder? (h : Extends s s' target) {b : Nat} {v : PolicyValue}
    (hne : target ≠ some b) (hv : s.builder? b = some v) : s'.builder? b = some v := by
  obtain ⟨builder, hbuilder, rfl⟩ := Option.map_eq_some_iff.mp hv
  rw [Heap.builder?, h.builders b builder hne hbuilder, Option.map_some,
    h.value (allocated_builder (List.mem_of_getElem? hbuilder))]

end Extends

/-! ### What an operation does -/

/-- A built policy has the values of its builder. -/
theorem policy?_build {b : Nat} {v : PolicyValue} (h : s.builder? b = some v) :
    (s.build b).policy? s.policies.length = some v := by
  obtain ⟨builder, hbuilder, rfl⟩ := Option.map_eq_some_iff.mp h
  unfold build
  split
  · next hnone =>
    rw [hnone] at hbuilder
    cases hbuilder
  · next builder' hbuilder' =>
    rw [hbuilder'] at hbuilder
    obtain rfl := Option.some.inj hbuilder
    rw [policy?, List.getElem?_concat_length]
    rfl

/-- New error types are added to the default policy of the builder, too. -/
theorem policy?_withErrorTypes {b : Nat} (hb : b < s.builders.length) (errors : List PyClass) :
    ∃ p v, s.policy? p = some v ∧ (s.withErrorTypes b errors).policy? p =
      some { v with errorTypes := v.errorTypes ++ errors } := by
  obtain ⟨policy, hpolicy, hlist⟩ := s.shared s.builders[b] (List.getElem_mem hb)
  refine ⟨s.builders[b].defaultPolicy, s.value policy, by rw [policy?, hpolicy]; rfl, ?_⟩
  have hlt := s.allocated policy (List.mem_of_getElem? hpolicy)
  unfold withErrorTypes
  rw [List.getElem?_eq_getElem hb]
  simp only [policy?, value, hpolicy, Option.map_some, ← hlist, getElem?_modify_append hlt,
    List.getElem?_eq_getElem hlt, Option.getD_some]

end Heap

/-! ### When policies and builders do not interfere -/

section Runs

variable {s : Heap} {before middle : List BuilderOp}

theorem run_snoc (op : BuilderOp) :
    run Heap.step s (before ++ [op]) = (run Heap.step s before).step op := by
  rw [run_append, run_cons, run_nil]

/-- Along a run that adds no error types, the policies keep their values. -/
theorem policy?_run (h : Along Heap.step AddsNoErrorTypes s middle) {p : Nat} {v : PolicyValue}
    (hv : s.policy? p = some v) : (run Heap.step s middle).policy? p = some v :=
  run_induction (I := fun s : Heap => s.policy? p = some v)
    (fun _ _ hv hadds => (Heap.extends_step hadds).policy? hv) hv h

theorem NonInterfering.of_along {ops : List BuilderOp}
    (h : Along Heap.step AddsNoErrorTypes s ops) : NonInterfering s ops := by
  have hmiddle (before middle rest : List BuilderOp) (heq : ops = before ++ (middle ++ rest)) :
      Along Heap.step AddsNoErrorTypes (run Heap.step s before) middle := by
    refine along_iff.mpr fun init op tail hsplit => ?_
    rw [← run_append]
    refine along_iff.mp h (before ++ init) op (tail ++ rest) ?_
    rw [heq, hsplit]
    simp
  refine ⟨fun before b middle rest v heq hv => ?_, fun before middle rest p v heq hv => ?_,
    fun before op rest b v heq hne hv => ?_⟩
  · rw [run_append, run_cons]
    refine policy?_run ?_ (Heap.policy?_build hv)
    exact (hmiddle before (.build b :: middle) rest (by rw [heq]; rfl)).2
  · rw [run_append]
    exact policy?_run (hmiddle before middle rest heq) hv
  · rw [run_snoc]
    exact (Heap.extends_step (along_iff.mp h before op rest heq)).builder? hne hv

/-- Error types that are added reach the default policy of the builder. -/
theorem NonInterfering.addsNoErrorTypes {ops : List BuilderOp} (h : NonInterfering s ops) :
    Along Heap.step AddsNoErrorTypes s ops := by
  refine along_iff.mpr fun before op rest heq => ?_
  cases op with
  | withErrorTypes b errors =>
    intro hb
    obtain ⟨p, v, hv, hv'⟩ := Heap.policy?_withErrorTypes hb errors
    have hkept := h.policies_kept before [.withErrorTypes b errors] rest p v heq hv
    rw [run_snoc] at hkept
    have hsame := Option.some.inj (hv'.symm.trans hkept)
    exact List.append_right_eq_self.mp (congrArg (fun v => v.errorTypes) hsame)
  | _ => trivial

end Runs

/-- Policies and builders do not interfere exactly if `with_error_types` is only ever called without
any error types. -/
theorem noninterference_iff (s : Heap) (ops : List BuilderOp) :
    NonInterfering s ops ↔ Along Heap.step AddsNoErrorTypes s ops :=
  ⟨NonInterfering.addsNoErrorTypes, NonInterfering.of_along⟩

/-- A heap with a default policy. -/
def defaultHeap : Heap := Heap.default ⟨[], [], [], by simp, by simp⟩ .async

/-- Two builders for one default policy.  The first one builds a policy and then gets another error
type. -/
def sharingOps : List BuilderOp :=
  [.construct 0, .construct 0, .build 0, .withErrorTypes 0 [valueError]]

/-- The default policy, the built policy and the other builder get the new error type, too. -/
theorem error_types_shared :
    let built := run Heap.step defaultHeap (sharingOps.take 3)
    let extended := run Heap.step defaultHeap sharingOps
    (∀ p < 2, (built.policy? p).map (fun v => v.errorTypes) = some [networkError]) ∧
      (∀ p < 2, (extended.policy? p).map (fun v => v.errorTypes) =
        some [networkError, valueError]) ∧
      (built.builder? 1).map (fun v => v.errorTypes) = some [networkError] ∧
      (extended.builder? 1).map (fun v => v.errorTypes) = some [networkError, valueError] ∧
      ¬ NonInterfering defaultHeap sharingOps := by
  refine ⟨by decide, by decide, rfl, rfl, fun h => ?_⟩
  have hadds := along_iff.mp h.addsNoErrorTypes [.construct 0, .construct 0, .build 0]
    (.withErrorTypes 0 [valueError]) [] rfl
  have hnil : [valueError] = [] := hadds (by decide)
  cases hnil

end NexusSdk.Client
