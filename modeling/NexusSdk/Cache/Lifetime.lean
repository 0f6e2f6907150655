import NexusSdk.Cache.Model
import NexusSdk.Input.PayloadReader
import NexusSdk.Lib.Text

/-! The life of a cache beside the lives of its input objects.  A cache key is made of the address
of an object, and the cache keeps the key when the object is gone.  Here an object is its place in
the order of creation, and its address is a choice of the interpreter: any one that no live object
has.  A step is the work between two awaits, as in the model of `resolve`. -/

namespace NexusSdk.Cache.Lifetime

open Lib Input

structure InputObject where
  /-- `id(self)` -/
  address : Nat
  /-- `self.__class__.__name__` -/
  className : String
  /-- `self.__class__.alias()` -/
  classAlias : String

/-- `hex(n)`. -/
def hex (n : Nat) : String := "0x" ++ .ofList (Nat.toDigits 16 n)

def cacheKey (pid : Nat) (x : InputObject) : String :=
  b64encode (hex x.address).toUTF8 ++ "_" ++ toString pid ++ "_" ++ x.className

/-! ### Keys -/

theorem digitChar_inj : ∀ a < 16, ∀ b < 16, Nat.digitChar a = Nat.digitChar b → a = b := by
  decide

theorem toDigits_inj {m n : Nat} (h : Nat.toDigits 16 m = Nat.toDigits 16 n) : m = n := by
  induction m using Nat.strongRecOn generalizing n with
  | ind m ih =>
    rw [Nat.toDigits_eq_if (by decide), Nat.toDigits_eq_if (n := n) (by decide)] at h
    split at h
    · next hm =>
      split at h
      · next hn => exact digitChar_inj m hm n hn (List.singleton_inj.mp h)
      · exact absurd (List.append_eq_singleton_iff.mp h.symm) (by simp [Nat.toDigits_ne_nil])
    · next hm =>
      split at h
      · exact absurd (List.append_eq_singleton_iff.mp h) (by simp [Nat.toDigits_ne_nil])
      · obtain ⟨hdiv, hmod⟩ := List.append_inj' h rfl
        have hquot : m / 16 = n / 16 := ih (m / 16) (by omega) hdiv
        have hrem : m % 16 = n % 16 := digitChar_inj _ (Nat.mod_lt _ (by decide)) _
          (Nat.mod_lt _ (by decide)) (List.singleton_inj.mp hmod)
        omega

theorem hex_injective {m n : Nat} (h : hex m = hex n) : m = n := by
  have hlist := congrArg String.toList h
  simp only [hex, String.toList_append, String.toList_ofList, List.append_cancel_left_eq] at hlist
  exact toDigits_inj hlist

/-- A key determines the address and the class name. -/
theorem cacheKey_inj {pid : Nat} {x y : InputObject} :
    cacheKey pid x = cacheKey pid y ↔ x.address = y.address ∧ x.className = y.className := by
  refine ⟨fun h => ?_, fun ⟨haddress, hclass⟩ => by rw [cacheKey, cacheKey, haddress, hclass]⟩
  have hlist := congrArg String.toList h
  have hsep : "_".toList = ['_'] := rfl
  simp only [cacheKey, b64encode, String.toList_append, String.toList_ofList, hsep,
    List.append_assoc, List.singleton_append] at hlist
  obtain ⟨haddress, hrest⟩ := eq_of_append_cons (Base64.underscore_not_mem_encode _)
    (Base64.underscore_not_mem_encode _) hlist
  have hbytes : (hex x.address).toUTF8 = (hex y.address).toUTF8 := by
    apply ByteArray.ext
    apply Array.toList_inj.mp
    exact Base64.encode_injective haddress
  refine ⟨hex_injective (String.toByteArray_inj.mp hbytes), ?_⟩
  have hclass : '_' :: x.className.toList = '_' :: y.className.toList :=
    List.append_cancel_left hrest
  exact String.toList_inj.mp (List.cons_eq_cons.mp hclass).2

/-! ### Objects and tasks -/

/-- Where a task of `_execute` stands: before the end of `process`, in `_context_close`, or done.
`result` is how `process` ended; there is none if `_context_open` raised. -/
inductive TaskStage (Val : Type)
  | running
  | closing (result : Except PyExc (Option Val))
  | done (result : Option (Except PyExc (Option Val))) (outcome : Except PyExc (Option Val))

structure Task (Val : Type) where
  obj : Nat
  stage : TaskStage Val

def Task.finished {Val : Type} (task : Task Val) : Bool :=
  match task.stage with
  | .done _ _ => true
  | _ => false

def Task.result {Val : Type} (task : Task Val) : Option (Except PyExc (Option Val)) :=
  match task.stage with
  | .running => none
  | .closing result => some result
  | .done result _ => result

inductive CallState (Val : Type)
  | polling (numCached : Nat)
  | returned (result : Kwargs Val)
  /-- raised for the task of the key -/
  | raised (key : String) (e : PyExc)

/-- A call of `resolve`, of the program or of a task for the readers of its object. -/
structure Call (Val : Type) where
  args : List Nat
  state : CallState Val

def Call.pending {Val : Type} (call : Call Val) : Bool :=
  match call.state with
  | .polling _ => true
  | _ => false

structure State (Val : Type) where
  /-- the objects created so far -/
  objects : List InputObject
  /-- the objects to which more than tasks and calls of the cache refers -/
  held : List Nat
  /-- `_data` of a reader, `_result` of a processor -/
  data : Nat → Option Val
  /-- `_cache` -/
  cache : Dict String (Option Val)
  /-- `_scheduled`, with tasks named by their position in `tasks` -/
  scheduled : Dict String Nat
  tasks : List (Task Val)
  calls : List (Call Val)

def initial {Val : Type} : State Val where
  objects := []
  held := []
  data := fun _ => none
  cache := .empty
  scheduled := .empty
  tasks := []
  calls := []

namespace State

variable {Val : Type} (pid : Nat) (s : State Val)

def keyOf (x : Nat) : String := (s.objects[x]?).elim "" (cacheKey pid)

/-- The object is referenced: a finished task refers to none. -/
def live (x : Nat) : Bool :=
  decide (x ∈ s.held) || s.tasks.any (fun task => !task.finished && decide (task.obj = x)) ||
    s.calls.any fun call => call.pending && decide (x ∈ call.args)

/-- `self._scheduled[key] = asyncio.create_task(_execute(x))`. -/
def createTask (s : State Val) (x : Nat) : State Val :=
  { s with
    scheduled := s.scheduled.set (s.keyOf pid x) s.tasks.length
    tasks := s.tasks ++ [⟨x, .running⟩] }

/-- The first half of `resolve`, under the lock. -/
def schedule (args : List Nat) : State Val :=
  (args.filter fun x => !s.scheduled.contains (s.keyOf pid x)).foldl (createTask pid) s

def cached (x : Nat) : Bool := s.cache.contains (s.keyOf pid x)

def firstFailure : Option (String × PyExc) :=
  s.scheduled.items.findSome? fun (key, t) =>
    match s.tasks[t]?.map Task.stage with
    | some (.done _ (.error e)) => some (key, e)
    | _ => none

/-- The dictionary that `resolve` returns. -/
def collect (args : List Nat) : Kwargs Val :=
  .ofList ((args.filter (s.cached pid)).map fun x =>
    ((s.objects[x]?).elim "" InputObject.classAlias, s.data x))

/-- `_wait_for_cache` from the test of its loop on, up to the next sleep. -/
def waitForCache (args : List Nat) (numCached : Nat) : CallState Val :=
  if numCached = args.length then .returned (s.collect pid args)
  else match s.firstFailure with
    | some (key, e) => .raised key e
    | none => .polling (args.countP (s.cached pid))

def resolve (args : List Nat) : State Val :=
  let s := s.schedule pid args
  { s with calls := s.calls ++ [⟨args, s.waitForCache pid args 0⟩] }

/-- The call `i` wakes up. -/
def poll (i : Nat) : State Val :=
  match s.calls[i]? with
  | some ⟨args, .polling numCached⟩ =>
    { s with calls := s.calls.set i ⟨args, s.waitForCache pid args numCached⟩ }
  | _ => s

/-- The end of `process` in task `t`; an object that has data is not evaluated again. -/
def process (t : Nat) (outcome : Except PyExc (Option Val)) : State Val :=
  match s.tasks[t]? with
  | some ⟨x, .running⟩ =>
    let result := match s.data x with
      | some v => .ok (some v)
      | none => outcome
    { s with
      data := Function.update s.data x result.toOption.join
      cache := s.cache.set (s.keyOf pid x) result.toOption.join
      tasks := s.tasks.set t ⟨x, .closing result⟩ }
  | _ => s

/-- `_context_open` raises in task `t`. -/
def abort (t : Nat) (e : PyExc) : State Val :=
  match s.tasks[t]? with
  | some ⟨x, .running⟩ => { s with tasks := s.tasks.set t ⟨x, .done none (.error e)⟩ }
  | _ => s

/-- The end of `_context_close` in task `t`. -/
def close (t : Nat) (outcome : Except PyExc Unit) : State Val :=
  match s.tasks[t]? with
  | some ⟨x, .closing result⟩ =>
    let ended := match outcome, result with
      | .ok (), _ => result
      | .error e, .ok _ => .error e
      | .error e, .error pending => .error (e.during pending)
    { s with tasks := s.tasks.set t ⟨x, .done (some result) ended⟩ }
  | _ => s

end State

/-! ### Histories -/

inductive Move (Val : Type)
  /-- the program creates an object; the interpreter chooses its address -/
  | create (x : InputObject)
  /-- the last reference to the object outside of the cache is dropped -/
  | drop (x : Nat)
  | resolve (args : List Nat)
  | poll (i : Nat)
  | abort (t : Nat) (e : PyExc)
  | process (t : Nat) (outcome : Except PyExc (Option Val))
  | close (t : Nat) (outcome : Except PyExc Unit)

variable {Val : Type}

/-- Some live object is at the address. -/
def State.occupied (s : State Val) (address : Nat) : Bool :=
  (List.range s.objects.length).any fun x =>
    s.live x && decide ((s.objects[x]?).map InputObject.address = some address)

/-- A move that is not possible changes nothing: only live objects can be passed to `resolve`, and
no live object gives up its address. -/
def State.step (pid : Nat) (s : State Val) : Move Val → State Val
  | .create x =>
    if s.occupied x.address then s
    else { s with objects := s.objects ++ [x], held := s.objects.length :: s.held }
  | .drop x => { s with held := s.held.filter fun y => y ≠ x }
  | .resolve args => if args.all s.live then s.resolve pid args else s
  | .poll i => s.poll pid i
  | .abort t e => s.abort t e
  | .process t outcome => s.process pid t outcome
  | .close t outcome => s.close t outcome

/-- The object was passed to `resolve`. -/
def State.Passed (s : State Val) (x : Nat) : Prop := ∃ call ∈ s.calls, x ∈ call.args

/-- The objects whose `process` has ended in a task of their own, each with how it ended. -/
def State.evaluations (s : State Val) : List (Nat × Except PyExc (Option Val)) :=
  s.tasks.filterMap fun task => task.result.map fun result => (task.obj, result)

/-- An evaluation of the object itself has left the data `v`. -/
def State.Evaluated (s : State Val) (x : Nat) (v : Option Val) : Prop :=
  ∃ result, (x, result) ∈ s.evaluations ∧ result.toOption.join = v

/-- A call with these arguments returns what their own evaluations left. -/
structure State.Returns (s : State Val) (args : List Nat) (result : Kwargs Val) : Prop where
  evaluated : ∀ x ∈ args, ∃ v, s.Evaluated x v
  values : ∀ item ∈ result.items, ∃ x ∈ args, s.Evaluated x item.2

/-- Different objects that were passed to `resolve` have different keys, and what was returned was
evaluated. -/
structure Identified (pid : Nat) (s : State Val) : Prop where
  keys : ∀ x y, s.Passed x → s.Passed y → x ≠ y → s.keyOf pid x ≠ s.keyOf pid y
  returns : ∀ call ∈ s.calls, ∀ result, call.state = .returned result → s.Returns call.args result

/-- No object is created at the address of a dead object of a class of the same name that was passed
to `resolve`. -/
def AllocatesAfresh (s : State Val) : Move Val → Prop
  | .create x => ∀ y o, s.objects[y]? = some o → s.Passed y → s.live y = false →
    ¬ (o.address = x.address ∧ o.className = x.className)
  | _ => True

namespace State

variable {pid : Nat} {s s' : State Val}

/-- The object is live, or the cache may have a key of it. -/
def Relevant (s : State Val) (x : Nat) : Prop := s.live x = true ∨ s.Passed x

/-- The objects that matter exist, and have different addresses or class names. -/
structure Distinct (s : State Val) : Prop where
  exist : ∀ x, s.Relevant x → x < s.objects.length
  distinct : ∀ x y a b, s.objects[x]? = some a → s.objects[y]? = some b → s.Relevant x →
    s.Relevant y → x ≠ y → ¬ (a.address = b.address ∧ a.className = b.className)

/-- The keys in the cache are those of evaluated objects, and a call that has counted all of its
arguments has found their keys there. -/
structure Tracked (pid : Nat) (s : State Val) : Prop where
  tasks : ∀ task ∈ s.tasks, s.Passed task.obj
  cache : ∀ key, s.cache.contains key = true → ∃ e ∈ s.evaluations, s.keyOf pid e.1 = key
  data : ∀ e ∈ s.evaluations, s.Evaluated e.1 (s.data e.1)
  polling : ∀ call ∈ s.calls, call.state = .polling call.args.length →
    ∀ x ∈ call.args, s.cached pid x = true
  returned : ∀ call ∈ s.calls, ∀ result, call.state = .returned result → s.Returns call.args result

theorem live_iff {x : Nat} : s.live x = true ↔ x ∈ s.held ∨
    (∃ task ∈ s.tasks, task.finished = false ∧ task.obj = x) ∨
      ∃ call ∈ s.calls, call.pending = true ∧ x ∈ call.args := by
  simp [live, or_assoc]

theorem Distinct.mono (h : s.Distinct) (hobjects : s'.objects = s.objects)
    (hrel : ∀ x, s'.Relevant x → s.Relevant x) : s'.Distinct := by
  refine ⟨fun x hx => ?_, fun x y a b ha hb hx hy => ?_⟩
  · rw [hobjects]
    exact h.exist x (hrel x hx)
  · rw [hobjects] at ha hb
    exact h.distinct x y a b ha hb (hrel x hx) (hrel y hy)

theorem keyOf_ne (h : s.Distinct) {x y : Nat} (hx : s.Relevant x) (hy : s.Relevant y)
    (hne : x ≠ y) : s.keyOf pid x ≠ s.keyOf pid y := by
  obtain ⟨a, ha⟩ : ∃ a, s.objects[x]? = some a := ⟨_, List.getElem?_eq_getElem (h.exist x hx)⟩
  obtain ⟨b, hb⟩ : ∃ b, s.objects[y]? = some b := ⟨_, List.getElem?_eq_getElem (h.exist y hy)⟩
  rw [keyOf, keyOf, ha, hb]
  exact fun heq => h.distinct x y a b ha hb hx hy hne (cacheKey_inj.mp heq)

theorem Tracked.passed (ht : s.Tracked pid) {e : Nat × Except PyExc (Option Val)}
    (he : e ∈ s.evaluations) : s.Passed e.1 := by
  obtain ⟨task, htask, hresult⟩ := List.mem_filterMap.mp he
  obtain ⟨result, -, rfl⟩ := Option.map_eq_some_iff.mp hresult
  exact ht.tasks task htask

/-- An object whose key is in the cache was evaluated itself. -/
theorem evaluated_of_cached (h : s.Distinct) (ht : s.Tracked pid) {x : Nat} (hx : s.Passed x)
    (hcached : s.cached pid x = true) : s.Evaluated x (s.data x) := by
  obtain ⟨e, he, hkey⟩ := ht.cache _ hcached
  have hobj : e.1 = x := by
    by_contra hne
    exact keyOf_ne h (.inr (ht.passed he)) (.inr hx) hne hkey
  rw [← hobj]
  exact ht.data e he

theorem returns_collect (h : s.Distinct) (ht : s.Tracked pid) {args : List Nat}
    (hpassed : ∀ x ∈ args, s.Passed x) (hcached : ∀ x ∈ args, s.cached pid x = true) :
    s.Returns args (s.collect pid args) := by
  have hevaluated : ∀ x ∈ args, s.Evaluated x (s.data x) := fun x hx =>
    evaluated_of_cached h ht (hpassed x hx) (hcached x hx)
  refine ⟨fun x hx => ⟨_, hevaluated x hx⟩, fun item hitem => ?_⟩
  obtain ⟨x, hx, rfl⟩ := List.mem_map.mp (Dict.mem_of_mem_ofList hitem)
  exact ⟨x, List.mem_of_mem_filter hx, hevaluated x (List.mem_of_mem_filter hx)⟩

theorem identified_of_sound (h : s.Distinct) (ht : s.Tracked pid) : Identified pid s :=
  ⟨fun _ _ hx hy hne => keyOf_ne h (.inr hx) (.inr hy) hne, ht.returned⟩

/-! ### One move -/

theorem Evaluated.mono (hevals : ∀ e ∈ s.evaluations, e ∈ s'.evaluations) {x : Nat}
    {v : Option Val} (h : s.Evaluated x v) : s'.Evaluated x v := by
  obtain ⟨result, hmem, hv⟩ := h
  exact ⟨result, hevals _ hmem, hv⟩

theorem Returns.mono (hevals : ∀ e ∈ s.evaluations, e ∈ s'.evaluations) {args : List Nat}
    {result : Kwargs Val} (h : s.Returns args result) : s'.Returns args result := by
  refine ⟨fun x hx => ?_, fun item hitem => ?_⟩
  · obtain ⟨v, hv⟩ := h.evaluated x hx
    exact ⟨v, hv.mono hevals⟩
  · obtain ⟨x, hx, hv⟩ := h.values item hitem
    exact ⟨x, hx, hv.mono hevals⟩

/-- What a move that leaves the cache, the calls and the data alone preserves. -/
theorem Tracked.frame (ht : s.Tracked pid) (hcalls : s'.calls = s.calls)
    (hcache : s'.cache = s.cache) (hdata : s'.data = s.data)
    (htasks : ∀ task' ∈ s'.tasks, ∃ task ∈ s.tasks, task'.obj = task.obj)
    (hevals : ∀ e, e ∈ s'.evaluations ↔ e ∈ s.evaluations)
    (hkeys : ∀ x, s.Passed x → s'.keyOf pid x = s.keyOf pid x) : s'.Tracked pid := by
  have hpassed : ∀ x, s.Passed x → s'.Passed x := by
    intro x hx
    rw [Passed, hcalls]
    exact hx
  refine ⟨fun task' htask' => ?_, fun key hkey => ?_, fun e he => ?_, fun call hcall hpoll x hx => ?_,
    fun call hcall result hret => ?_⟩
  · obtain ⟨task, htask, hobj⟩ := htasks task' htask'
    rw [hobj]
    exact hpassed _ (ht.tasks task htask)
  · rw [hcache] at hkey
    obtain ⟨e, he, hkey⟩ := ht.cache key hkey
    exact ⟨e, (hevals e).mpr he, (hkeys _ (ht.passed he)).trans hkey⟩
  · rw [hdata]
    exact (ht.data e ((hevals e).mp he)).mono fun e he => (hevals e).mpr he
  · rw [hcalls] at hcall
    rw [cached, hcache, hkeys x ⟨call, hcall, hx⟩]
    exact ht.polling call hcall hpoll x hx
  · rw [hcalls] at hcall
    exact (ht.returned call hcall result hret).mono fun e he => (hevals e).mpr he

theorem occupied_of_live {x : Nat} {o : InputObject} (ho : s.objects[x]? = some o)
    (hlive : s.live x = true) : s.occupied o.address = true := by
  refine List.any_eq_true.mpr ⟨x, List.mem_range.mpr ?_, by simp [hlive, ho]⟩
  obtain ⟨hlt, -⟩ := List.getElem?_eq_some_iff.mp ho
  exact hlt

section Create

variable {x : InputObject}

theorem relevant_create {y : Nat}
    (hy : ({ s with objects := s.objects ++ [x], held := s.objects.length :: s.held } :
      State Val).Relevant y) : y = s.objects.length ∨ s.Relevant y := by
  rcases hy with hlive | hpassed
  · rw [live_iff] at hlive
    rcases hlive with hheld | hrest
    · rcases List.mem_cons.mp hheld with rfl | hheld
      · exact .inl rfl
      · exact .inr (.inl (live_iff.mpr (.inl hheld)))
    · exact .inr (.inl (live_iff.mpr (.inr hrest)))
  · exact .inr (.inr hpassed)

/-- A new object differs from all that matter. -/
theorem distinct_create (h : s.Distinct) (hfresh : AllocatesAfresh s (.create x))
    (hfree : s.occupied x.address = false) :
    ({ s with objects := s.objects ++ [x], held := s.objects.length :: s.held } :
      State Val).Distinct := by
  have hnew : ∀ y a, s.objects[y]? = some a → s.Relevant y →
      ¬ (a.address = x.address ∧ a.className = x.className) := by
    rintro y a ha hy ⟨haddress, hclass⟩
    cases hlive : s.live y with
    | true =>
      have hoccupied := occupied_of_live ha hlive
      rw [haddress, hfree] at hoccupied
      cases hoccupied
    | false =>
      have hpassed : s.Passed y := hy.resolve_left (by simp [hlive])
      exact hfresh y a ha hpassed hlive ⟨haddress, hclass⟩
  have hold : ∀ y, s.Relevant y → (s.objects ++ [x])[y]? = s.objects[y]? := fun y hy =>
    List.getElem?_append_left (h.exist y hy)
  refine ⟨fun y hy => ?_, fun y z a b ha hb hy hz hne => ?_⟩
  · rw [List.length_append, List.length_singleton]
    rcases relevant_create hy with rfl | hy
    · omega
    · have hlt := h.exist y hy
      omega
  · rcases relevant_create hy with rfl | hy <;> rcases relevant_create hz with rfl | hz
    · exact absurd rfl hne
    · rw [List.getElem?_concat_length] at ha
      obtain rfl := Option.some.inj ha
      rw [hold z hz] at hb
      exact fun heq => hnew z b hb hz ⟨heq.1.symm, heq.2.symm⟩
    · rw [List.getElem?_concat_length] at hb
      obtain rfl := Option.some.inj hb
      rw [hold y hy] at ha
      exact hnew y a ha hy
    · rw [hold y hy] at ha
      rw [hold z hz] at hb
      exact h.distinct y z a b ha hb hy hz hne

theorem tracked_create (h : s.Distinct) (ht : s.Tracked pid) :
    ({ s with objects := s.objects ++ [x], held := s.objects.length :: s.held } :
      State Val).Tracked pid := by
  refine ht.frame rfl rfl rfl (fun task htask => ⟨task, htask, rfl⟩) (fun e => Iff.rfl) ?_
  intro y hy
  rw [keyOf, keyOf, List.getElem?_append_left (h.exist y (.inr hy))]

end Create

theorem distinct_drop (h : s.Distinct) (x : Nat) :
    ({ s with held := s.held.filter fun y => y ≠ x } : State Val).Distinct := by
  refine h.mono rfl fun y hy => ?_
  rcases hy with hlive | hpassed
  · rw [live_iff] at hlive
    rcases hlive with hheld | hrest
    · exact .inl (live_iff.mpr (.inl (List.mem_of_mem_filter hheld)))
    · exact .inl (live_iff.mpr (.inr hrest))
  · exact .inr hpassed

section Tasks

variable {t : Nat} {task task' : Task Val}

/-- A task that goes on keeps no more objects alive. -/
theorem relevant_setTask {x : Nat} (hx : s'.Relevant x)
    (htasks : s'.tasks = s.tasks.set t task') (htask : s.tasks[t]? = some task)
    (hobj : task'.obj = task.obj) (hfinished : task.finished = true → task'.finished = true)
    (hcalls : s'.calls = s.calls) (hheld : s'.held = s.held) : s.Relevant x := by
  rcases hx with hlive | hpassed
  · rw [live_iff, htasks, hcalls, hheld] at hlive
    rcases hlive with hheld | ⟨u, hu, hrunning, hux⟩ | hcall
    · exact .inl (live_iff.mpr (.inl hheld))
    · refine .inl (live_iff.mpr (.inr (.inl ?_)))
      rcases List.mem_or_eq_of_mem_set hu with hu | rfl
      · exact ⟨u, hu, hrunning, hux⟩
      · refine ⟨task, List.mem_of_getElem? htask, ?_, hobj.symm.trans hux⟩
        cases hdone : task.finished with
        | false => rfl
        | true => rw [hfinished hdone] at hrunning; cases hrunning
    · exact .inl (live_iff.mpr (.inr (.inr hcall)))
  · rw [Passed, hcalls] at hpassed
    exact .inr hpassed

theorem mem_filterMap_set {α β : Type} {f : α → Option β} {l : List α} {t : Nat} {a b : α}
    (h : l[t]? = some a) (hf : ∀ e, f a = some e → f b = some e) {e : β} :
    e ∈ (l.set t b).filterMap f ↔ f b = some e ∨ e ∈ l.filterMap f := by
  induction l generalizing t with
  | nil => simp at h
  | cons c l ih =>
    cases t with
    | zero =>
      obtain rfl : c = a := by simpa using h
      have habsorb : f c = some e → f b = some e := hf e
      simp only [List.set_cons_zero, List.mem_filterMap, List.mem_cons, exists_eq_or_imp]
      tauto
    | succ t =>
      rw [List.getElem?_cons_succ] at h
      have hrest := ih h
      simp only [List.mem_filterMap] at hrest
      simp only [List.set_cons_succ, List.mem_filterMap, List.mem_cons, exists_eq_or_imp, hrest]
      tauto

theorem mem_evaluations_setTask (htasks : s'.tasks = s.tasks.set t task')
    (htask : s.tasks[t]? = some task) (hobj : task'.obj = task.obj)
    (hresult : ∀ result, task.result = some result → task'.result = some result)
    (e : Nat × Except PyExc (Option Val)) :
    e ∈ s'.evaluations ↔
      task'.result.map (fun result => (task'.obj, result)) = some e ∨ e ∈ s.evaluations := by
  rw [evaluations, htasks]
  refine mem_filterMap_set htask ?_
  rintro e he
  obtain ⟨result, hres, rfl⟩ := Option.map_eq_some_iff.mp he
  rw [hresult result hres, hobj]
  rfl

/-- `abort` and `close` change neither what was evaluated nor anything else that matters. -/
theorem sound_setTask (h : s.Distinct) (ht : s.Tracked pid) (htask : s.tasks[t]? = some task)
    (hobj : task'.obj = task.obj) (hfinished : task.finished = true → task'.finished = true)
    (hresult : task'.result = task.result) :
    ({ s with tasks := s.tasks.set t task' } : State Val).Distinct ∧
      ({ s with tasks := s.tasks.set t task' } : State Val).Tracked pid := by
  refine ⟨h.mono rfl fun x hx => relevant_setTask hx rfl htask hobj hfinished rfl rfl, ?_⟩
  refine ht.frame rfl rfl rfl (fun u hu => ?_) (fun e => ?_) fun x hx => rfl
  · rcases List.mem_or_eq_of_mem_set hu with hu | rfl
    · exact ⟨u, hu, rfl⟩
    · exact ⟨task, List.mem_of_getElem? htask, hobj⟩
  · rw [mem_evaluations_setTask rfl htask hobj (fun result hres => hresult.trans hres),
      or_iff_right_iff_imp]
    intro he
    rw [hresult, hobj] at he
    exact List.mem_filterMap.mpr ⟨task, List.mem_of_getElem? htask, he⟩

theorem sound_abort (h : s.Distinct) (ht : s.Tracked pid) (e : PyExc) :
    (s.abort t e).Distinct ∧ (s.abort t e).Tracked pid := by
  unfold abort
  split
  · next x htask => exact sound_setTask h ht htask rfl (by simp [Task.finished]) rfl
  · exact ⟨h, ht⟩

theorem sound_close (h : s.Distinct) (ht : s.Tracked pid) (outcome : Except PyExc Unit) :
    (s.close t outcome).Distinct ∧ (s.close t outcome).Tracked pid := by
  unfold close
  split
  · next x result htask => exact sound_setTask h ht htask rfl (by simp [Task.finished]) rfl
  · exact ⟨h, ht⟩

/-- The end of an evaluation: the key goes to the cache, and the data to the object. -/
theorem sound_evaluated {x : Nat} (h : s.Distinct) (ht : s.Tracked pid)
    (htask : s.tasks[t]? = some ⟨x, .running⟩) (result : Except PyExc (Option Val))
    (hs' : s' = { s with
      data := Function.update s.data x result.toOption.join
      cache := s.cache.set (s.keyOf pid x) result.toOption.join
      tasks := s.tasks.set t ⟨x, .closing result⟩ }) : s'.Distinct ∧ s'.Tracked pid := by
  have htasks : s'.tasks = s.tasks.set t ⟨x, .closing result⟩ := by rw [hs']
  have hevals := mem_evaluations_setTask htasks htask rfl (fun r hr => by cases hr)
  have hold := fun e he => (hevals e).mpr (.inr he)
  subst hs'
  refine ⟨h.mono rfl fun y hy => relevant_setTask hy htasks htask rfl (by simp [Task.finished])
    rfl rfl, ⟨fun u hu => ?_, fun key hkey => ?_, fun e he => ?_, ?_, ?_⟩⟩
  · rcases List.mem_or_eq_of_mem_set hu with hu | rfl
    · exact ht.tasks u hu
    · exact ht.tasks ⟨x, .running⟩ (List.mem_of_getElem? htask)
  · rw [Dict.contains_set, Bool.or_eq_true, decide_eq_true_eq] at hkey
    rcases hkey with rfl | hkey
    · exact ⟨(x, result), (hevals _).mpr (.inl rfl), rfl⟩
    · obtain ⟨e, he, hkey⟩ := ht.cache key hkey
      exact ⟨e, hold e he, hkey⟩
  · by_cases hobj : e.1 = x
    · refine ⟨result, (hevals _).mpr (.inl (by rw [hobj]; rfl)), ?_⟩
      simp only [hobj, Function.update_self]
    · have he' : e ∈ s.evaluations := by
        rcases (hevals e).mp he with heq | he
        · exact absurd (congrArg Prod.fst (Option.some.inj heq)).symm hobj
        · exact he
      have hdata := (ht.data e he').mono hold
      rw [← Function.update_of_ne hobj result.toOption.join s.data] at hdata
      exact hdata
  · intro call hcall hpoll y hy
    rw [cached, Dict.contains_set, Bool.or_eq_true]
    exact .inr (ht.polling call hcall hpoll y hy)
  · intro call hcall r hr
    exact (ht.returned call hcall r hr).mono hold

theorem sound_process (h : s.Distinct) (ht : s.Tracked pid)
    (outcome : Except PyExc (Option Val)) :
    (s.process pid t outcome).Distinct ∧ (s.process pid t outcome).Tracked pid := by
  unfold process
  split
  · next x htask => exact sound_evaluated h ht htask _ rfl
  · exact ⟨h, ht⟩

end Tasks

section Calls

variable {args : List Nat}

theorem relevant_poll {i : Nat} {x : Nat} (hx : (s.poll pid i).Relevant x) : s.Relevant x := by
  unfold poll at hx
  split at hx
  · next args numCached hcall =>
    have hold : (⟨args, .polling numCached⟩ : Call Val) ∈ s.calls := List.mem_of_getElem? hcall
    rcases hx with hlive | ⟨call, hmem, hx⟩
    · rw [live_iff] at hlive
      rcases hlive with hheld | htask | ⟨call, hmem, hpending, hx⟩
      · exact .inl (live_iff.mpr (.inl hheld))
      · exact .inl (live_iff.mpr (.inr (.inl htask)))
      · rcases List.mem_or_eq_of_mem_set hmem with hmem | rfl
        · exact .inl (live_iff.mpr (.inr (.inr ⟨call, hmem, hpending, hx⟩)))
        · exact .inl (live_iff.mpr (.inr (.inr ⟨_, hold, rfl, hx⟩)))
    · rcases List.mem_or_eq_of_mem_set hmem with hmem | rfl
      · exact .inr ⟨call, hmem, hx⟩
      · exact .inr ⟨_, hold, hx⟩
  · exact hx

theorem cached_of_waitForCache {numCached : Nat}
    (h : s.waitForCache pid args numCached = .polling args.length) :
    ∀ x ∈ args, s.cached pid x = true := by
  unfold waitForCache at h
  split at h
  · cases h
  · split at h
    · cases h
    · exact List.countP_eq_length.mp (CallState.polling.inj h)

theorem waitForCache_returned {numCached : Nat} {result : Kwargs Val}
    (h : s.waitForCache pid args numCached = .returned result) :
    numCached = args.length ∧ result = s.collect pid args := by
  unfold waitForCache at h
  split at h
  · next hall => exact ⟨hall, (CallState.returned.inj h).symm⟩
  · split at h <;> cases h

/-- A call is added, or takes its next step. -/
theorem tracked_setCalls (ht : s.Tracked pid) {calls : List (Call Val)} {state : CallState Val}
    (hcalls : ∀ call ∈ calls, call ∈ s.calls ∨ call = ⟨args, state⟩)
    (hold : ∀ x, s.Passed x → ∃ call ∈ calls, x ∈ call.args)
    (hpoll : state = .polling args.length → ∀ x ∈ args, s.cached pid x = true)
    (hret : ∀ result, state = .returned result → s.Returns args result) :
    ({ s with calls := calls } : State Val).Tracked pid := by
  refine ⟨fun task htask => hold _ (ht.tasks task htask), ht.cache, ht.data, ?_, ?_⟩
  · intro call hcall
    rcases hcalls call hcall with hcall | rfl
    · exact ht.polling call hcall
    · exact hpoll
  · intro call hcall result hreturned
    rcases hcalls call hcall with hcall | rfl
    · refine Returns.mono ?_ (ht.returned call hcall result hreturned)
      exact fun e he => he
    · refine Returns.mono ?_ (hret result hreturned)
      exact fun e he => he

theorem sound_poll (h : s.Distinct) (ht : s.Tracked pid) (i : Nat) :
    (s.poll pid i).Distinct ∧ (s.poll pid i).Tracked pid := by
  refine ⟨h.mono ?_ fun x hx => relevant_poll hx, ?_⟩
  · unfold poll
    split <;> rfl
  · unfold poll
    split
    · next args numCached hcall =>
      have hmem : (⟨args, .polling numCached⟩ : Call Val) ∈ s.calls := List.mem_of_getElem? hcall
      have hret : ∀ result, s.waitForCache pid args numCached = .returned result →
          s.Returns args result := by
        intro result hreturned
        obtain ⟨rfl, rfl⟩ := waitForCache_returned hreturned
        exact returns_collect h ht (fun x hx => ⟨_, hmem, hx⟩) (ht.polling _ hmem rfl)
      refine tracked_setCalls ht (fun call hset => List.mem_or_eq_of_mem_set hset) ?_
        cached_of_waitForCache hret
      rintro x ⟨call, hin, hx⟩
      obtain ⟨j, hj⟩ := List.getElem?_of_mem hin
      by_cases hij : i = j
      · subst hij
        obtain rfl : call = ⟨args, .polling numCached⟩ := Option.some.inj (hj.symm.trans hcall)
        exact ⟨_, List.mem_set (List.getElem?_eq_some_iff.mp hcall).1 _, hx⟩
      · refine ⟨call, List.mem_of_getElem? (i := j) ?_, hx⟩
        rw [List.getElem?_set_ne hij, hj]
    · exact ht

/-- Scheduling creates a task for each argument whose key is new. -/
theorem schedule_eq (pid : Nat) (s : State Val) (args : List Nat) : ∃ scheduled, s.schedule pid args =
    { s with
      scheduled := scheduled
      tasks := s.tasks ++ (args.filter fun x =>
        !s.scheduled.contains (s.keyOf pid x)).map (⟨·, .running⟩) } := by
  unfold schedule
  generalize args.filter _ = new
  induction new generalizing s with
  | nil => exact ⟨s.scheduled, by simp⟩
  | cons x new ih =>
    obtain ⟨scheduled, hrest⟩ := ih (s.createTask pid x)
    refine ⟨scheduled, ?_⟩
    rw [List.foldl_cons, hrest, createTask]
    simp

section Resolve

variable {scheduled : Dict String Nat} {new : List Nat} {state : CallState Val}

/-- A new call: everything to which it refers is live. -/
theorem relevant_resolve (hlive : ∀ x ∈ args, s.live x = true) (hnew : ∀ x ∈ new, x ∈ args) {x : Nat}
    (hx : ({ s with
      scheduled := scheduled
      tasks := s.tasks ++ new.map (⟨·, .running⟩)
      calls := s.calls ++ [⟨args, state⟩] } : State Val).Relevant x) : s.Relevant x := by
  rcases hx with hx | ⟨call, hmem, hx⟩
  · rw [live_iff] at hx
    rcases hx with hheld | ⟨task, hmem, hrunning, hobj⟩ | ⟨call, hmem, hpending, hx⟩
    · exact .inl (live_iff.mpr (.inl hheld))
    · rcases List.mem_append.mp hmem with hmem | hmem
      · exact .inl (live_iff.mpr (.inr (.inl ⟨task, hmem, hrunning, hobj⟩)))
      · obtain ⟨y, hy, rfl⟩ := List.mem_map.mp hmem
        exact .inl (hobj ▸ hlive y (hnew y hy))
    · rcases List.mem_append.mp hmem with hmem | hmem
      · exact .inl (live_iff.mpr (.inr (.inr ⟨call, hmem, hpending, hx⟩)))
      · obtain rfl := List.mem_singleton.mp hmem
        exact .inl (hlive x hx)
  · rcases List.mem_append.mp hmem with hmem | hmem
    · exact .inr ⟨call, hmem, hx⟩
    · obtain rfl := List.mem_singleton.mp hmem
      exact .inl (hlive x hx)

theorem tracked_resolve (ht : s.Tracked pid) (hnew : ∀ x ∈ new, x ∈ args)
    (hpoll : state = .polling args.length → ∀ x ∈ args, s.cached pid x = true)
    (hret : ∀ result, state = .returned result → args = [] ∧ result.items = []) :
    ({ s with
      scheduled := scheduled
      tasks := s.tasks ++ new.map (⟨·, .running⟩)
      calls := s.calls ++ [⟨args, state⟩] } : State Val).Tracked pid := by
  have hevals : ∀ e, e ∈ ({ s with
      scheduled := scheduled
      tasks := s.tasks ++ new.map (⟨·, .running⟩)
      calls := s.calls ++ [⟨args, state⟩] } : State Val).evaluations ↔ e ∈ s.evaluations := by
    simp [evaluations, Task.result]
  have hold := fun e he => (hevals e).mpr he
  refine ⟨fun task htask => ?_, fun key hkey => ?_, fun e he => ?_, fun call hcall => ?_,
    fun call hcall result hreturned => ?_⟩
  · rcases List.mem_append.mp htask with htask | htask
    · obtain ⟨call, hcall, hx⟩ := ht.tasks task htask
      exact ⟨call, List.mem_append_left _ hcall, hx⟩
    · obtain ⟨x, hx, rfl⟩ := List.mem_map.mp htask
      exact ⟨_, List.mem_append_right _ (List.mem_singleton_self _), hnew x hx⟩
  · obtain ⟨e, he, hkey⟩ := ht.cache key hkey
    exact ⟨e, hold e he, hkey⟩
  · exact (ht.data e ((hevals e).mp he)).mono hold
  · rcases List.mem_append.mp hcall with hcall | hcall
    · exact ht.polling call hcall
    · obtain rfl := List.mem_singleton.mp hcall
      exact hpoll
  · rcases List.mem_append.mp hcall with hcall | hcall
    · exact (ht.returned call hcall result hreturned).mono hold
    · obtain rfl := List.mem_singleton.mp hcall
      obtain ⟨hargs, hitems⟩ := hret result hreturned
      refine ⟨fun x hx => ?_, fun item hitem => ?_⟩
      · rw [hargs] at hx
        cases hx
      · rw [hitems] at hitem
        cases hitem

theorem sound_resolve (h : s.Distinct) (ht : s.Tracked pid) (hlive : ∀ x ∈ args, s.live x = true) :
    (s.resolve pid args).Distinct ∧ (s.resolve pid args).Tracked pid := by
  obtain ⟨scheduled, hschedule⟩ := schedule_eq pid s args
  have hnew : ∀ x ∈ args.filter (fun x => !s.scheduled.contains (s.keyOf pid x)), x ∈ args :=
    fun x hx => List.mem_of_mem_filter hx
  rw [resolve, hschedule]
  refine ⟨h.mono rfl fun x hx => relevant_resolve hlive hnew hx, ?_⟩
  refine tracked_resolve ht hnew cached_of_waitForCache ?_
  intro result hreturned
  obtain ⟨hlength, rfl⟩ := waitForCache_returned hreturned
  obtain rfl := List.eq_nil_of_length_eq_zero hlength.symm
  exact ⟨rfl, rfl⟩

end Resolve

end Calls

/-! ### Histories of a cache -/

theorem sound_initial : (initial : State Val).Distinct ∧ (initial : State Val).Tracked pid := by
  have hnone : ∀ x, ¬ (initial : State Val).Relevant x := by
    rintro x (hlive | ⟨call, hcall, -⟩)
    · simp [initial, live] at hlive
    · cases hcall
  refine ⟨⟨fun x hx => absurd hx (hnone x), fun x _ _ _ _ _ hx => absurd hx (hnone x)⟩, ?_⟩
  refine ⟨fun task htask => ?_, fun key hkey => ?_, fun e he => ?_, fun call hcall => ?_,
    fun call hcall => ?_⟩
  · cases htask
  · cases hkey
  · cases he
  · cases hcall
  · cases hcall

theorem sound_step (h : s.Distinct ∧ s.Tracked pid) (move : Move Val)
    (hfresh : AllocatesAfresh s move) :
    (s.step pid move).Distinct ∧ (s.step pid move).Tracked pid := by
  obtain ⟨hdistinct, htracked⟩ := h
  cases move with
  | create x =>
    rw [step]
    split
    · exact ⟨hdistinct, htracked⟩
    · next hfree =>
      rw [Bool.not_eq_true] at hfree
      exact ⟨distinct_create hdistinct hfresh hfree, tracked_create hdistinct htracked⟩
  | drop x =>
    refine ⟨distinct_drop hdistinct x, ?_⟩
    exact htracked.frame rfl rfl rfl (fun task htask => ⟨task, htask, rfl⟩) (fun e => Iff.rfl)
      fun y hy => rfl
  | resolve args =>
    rw [step]
    split
    · next hlive => exact sound_resolve hdistinct htracked (List.all_eq_true.mp hlive)
    · exact ⟨hdistinct, htracked⟩
  | poll i => exact sound_poll hdistinct htracked i
  | abort t e => exact sound_abort hdistinct htracked e
  | process t outcome => exact sound_process hdistinct htracked outcome
  | close t outcome => exact sound_close hdistinct htracked outcome

theorem passed_resolve {args : List Nat} {x : Nat} (hlive : ∀ y ∈ args, s.live y = true)
    (hx : s.Passed x ∨ x ∈ args) : (s.step pid (.resolve args)).Passed x := by
  obtain ⟨scheduled, hschedule⟩ := schedule_eq pid s args
  rw [step, if_pos (List.all_eq_true.mpr hlive), resolve, hschedule]
  rcases hx with ⟨call, hcall, hx⟩ | hx
  · exact ⟨call, List.mem_append_left _ hcall, hx⟩
  · exact ⟨_, List.mem_append_right _ (List.mem_singleton_self _), hx⟩

theorem objects_resolve (args : List Nat) : (s.step pid (.resolve args)).objects = s.objects := by
  obtain ⟨scheduled, hschedule⟩ := schedule_eq pid s args
  rw [step]
  split
  · rw [resolve, hschedule]
  · rfl

/-- An object at the address of a dead one: to resolve it is enough. -/
theorem not_identified_of_reuse {x : InputObject} (hfree : s.occupied x.address = false)
    (hreuse : ¬ AllocatesAfresh s (.create x)) :
    ¬ Identified pid ((s.step pid (.create x)).step pid (.resolve [s.objects.length])) := by
  intro hidentified
  apply hreuse
  rintro y o ho hpassed hdead ⟨haddress, hclass⟩
  have hcreate : s.step pid (.create x) =
      { s with objects := s.objects ++ [x], held := s.objects.length :: s.held } := by
    rw [step, hfree]
    rfl
  have hlive : ∀ z ∈ [s.objects.length], (s.step pid (.create x)).live z = true := by
    intro z hz
    rw [List.mem_singleton.mp hz, live_iff, hcreate]
    exact .inl List.mem_cons_self
  have hlt : y < s.objects.length := (List.getElem?_eq_some_iff.mp ho).1
  refine hidentified.keys y s.objects.length (passed_resolve hlive (.inl ?_))
    (passed_resolve hlive (.inr (List.mem_singleton_self _))) hlt.ne ?_
  · rw [hcreate]
    exact hpassed
  · rw [keyOf, keyOf, objects_resolve, hcreate, List.getElem?_append_left hlt, ho,
      List.getElem?_concat_length]
    exact cacheKey_inj.mpr ⟨haddress, hclass⟩

end State

/-- Keys identify objects in every history in which no address of a dead object that was resolved
comes back with the name of its class; where one does, a call of `resolve` breaks it. -/
theorem identified_of_allocatesAfresh (pid : Nat) :
    (∀ σ : List (Move Val), Along (State.step pid) AllocatesAfresh initial σ →
      Identified pid (run (State.step pid) initial σ)) ∧
    ∀ (s : State Val) (x : InputObject), s.occupied x.address = false →
      ¬ AllocatesAfresh s (.create x) →
      ¬ Identified pid ((s.step pid (.create x)).step pid (.resolve [s.objects.length])) := by
  refine ⟨fun σ hfresh => ?_, fun s x hfree hreuse => State.not_identified_of_reuse hfree hreuse⟩
  obtain ⟨hdistinct, htracked⟩ := run_induction (I := fun s => s.Distinct ∧ s.Tracked pid)
    (fun s move hs hC => State.sound_step hs move hC) State.sound_initial hfresh
  exact State.identified_of_sound hdistinct htracked

/-- A reader that yields 5 is read, closed, returned and dropped. -/
def readOnce : List (Move Nat) :=
  [.create ⟨140, "OrdersReader", "orders"⟩, .resolve [0], .process 0 (.ok (some 5)), .close 0 (.ok ()),
    .poll 0, .poll 0, .drop 0]

/-- A second reader, at another address, yields 6. -/
def readAnother : List (Move Nat) :=
  readOnce ++ [.create ⟨176, "OrdersReader", "orders"⟩, .resolve [1], .process 1 (.ok (some 6)), .poll 1,
    .poll 1]

theorem identified_readAnother : Along (State.step 7) AllocatesAfresh initial readAnother ∧
    Identified 7 (run (State.step 7) initial readAnother) := by
  have hfresh : Along (State.step 7) AllocatesAfresh initial readAnother := by
    refine ⟨fun y o ho => by simp [initial] at ho, trivial, trivial, trivial, trivial, trivial,
      trivial, fun y o ho _ _ heq => ?_, trivial, trivial, trivial, trivial, trivial⟩
    have hobjects : ([⟨140, "OrdersReader", "orders"⟩] : List InputObject)[y]? = some o := ho
    obtain rfl := List.mem_singleton.mp (List.mem_of_getElem? hobjects)
    exact absurd heq.1 (by decide)
  exact ⟨hfresh, (identified_of_allocatesAfresh 7).1 readAnother hfresh⟩

/-- The second reader is at the address of the first one. -/
def readAtSameAddress : List (Move Nat) :=
  readOnce ++ [.create ⟨140, "OrdersReader", "orders"⟩, .resolve [1], .poll 1]

/-- It is not evaluated, and its initial data is returned. -/
theorem initial_data_returned :
    (run (State.step 7) initial readAtSameAddress).calls[1]? =
      some ⟨[1], .returned (.ofList [("orders", none)])⟩ ∧
    (run (State.step 7) initial readAtSameAddress).keyOf 7 0 =
      (run (State.step 7) initial readAtSameAddress).keyOf 7 1 ∧
    ¬ Identified 7 (run (State.step 7) initial readAtSameAddress) := by
  have hcall : (run (State.step 7) initial readAtSameAddress).calls[1]? =
    some ⟨[1], .returned (.ofList [("orders", none)])⟩ := rfl
  refine ⟨hcall, rfl, fun hidentified => ?_⟩
  obtain ⟨v, result, hmem, -⟩ := (hidentified.returns _ (List.mem_of_getElem? hcall) _ rfl).evaluated
    1 (List.mem_singleton_self 1)
  have hevaluations : (run (State.step 7) initial readAtSameAddress).evaluations =
    [(0, .ok (some 5))] := rfl
  rw [hevaluations] at hmem
  cases List.mem_singleton.mp hmem

end NexusSdk.Cache.Lifetime
