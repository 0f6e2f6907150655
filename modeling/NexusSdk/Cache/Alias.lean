import NexusSdk.Cache.Once

/-! `NexusObject.alias` and the dictionaries that `resolve` returns under these keywords.  A dictionary
has an entry for each of its inputs exactly if their classes have different aliases. -/

namespace NexusSdk.Cache

open Lib

/-! ### `NexusObject.alias` -/

/-- What `alias` takes from `str` and from `dataclasses_json`. -/
structure Stringcase where
  lower : String → String
  snakecase : String → String

/-- `s.replace(w, "")`; the next `skip` characters belong to an occurrence of `w`. -/
def remove (w : List Char) : Nat → List Char → List Char
  | _, [] => []
  | skip + 1, _ :: cs => remove w skip cs
  | 0, c :: cs =>
    if w.isPrefixOf (c :: cs) then remove w (w.length - 1) cs else c :: remove w 0 cs

/-- `re.sub(r"(?<!^)(?=[A-Z])", "_", s)`. -/
def underscored : List Char → List Char
  | [] => []
  | c :: cs => c :: cs.flatMap fun d => if d.isUpper then ['_', d] else [d]

/-- Alias of a class, by the name of the class. -/
def Stringcase.alias (text : Stringcase) (name : String) : String :=
  let stem := ["reader", "processor", "algorithm"].foldl (fun s w => remove w.toList 0 s)
    (text.lower name).toList
  text.snakecase (.ofList (underscored stem))

variable {Obj Val : Type}

/-- The input objects, with the aliases of their classes. -/
def Inputs.named (P : Inputs Obj Val) (text : Stringcase) (className : Obj → String) :
    Inputs Obj Val :=
  { P with classAlias := fun x => text.alias (className x) }

variable [DecidableEq Obj]

namespace State

/-- What happens in the step of `b` from `s`. -/
def newEvents (P : Inputs Obj Val) (s : State Obj Val) (b : Caller) : List (Event Obj Val) :=
  (s.step P b).history.drop s.history.length

/-- The dictionary has one entry for each of the arguments, with its data under its own keyword. -/
structure OneEntryEach (P : Inputs Obj Val) (s : State Obj Val) (args : List Obj)
    (result : Kwargs Val) : Prop where
  entries : result.items.length = args.length
  ownKeyword : ∀ x ∈ args, result.get? (P.classAlias x) = some (s.data x)

/-- What the `resolve` of a task returned reaches its hook under the same keywords. -/
def Reaches (result : Kwargs Val) (c : Caller) (events : List (Event Obj Val)) : Prop :=
  ∀ t, c = .task t → ∃ x kwargs, .evaluate t x kwargs ∈ events ∧
    ∀ key v, result.get? key = some v → kwargs.get? key = some v

/-- Each dictionary that is returned in `events` consists of the arguments' entries in `data`. -/
def Delivers (P : Inputs Obj Val) (data : Obj → Option Val) (events : List (Event Obj Val)) :
    Prop :=
  ∀ c args d, .returned c args d ∈ events →
    d = .ofList (args.map fun x => (P.classAlias x, data x)) ∧ Reaches d c events

end State

variable {P : Inputs Obj Val} {s s' : State Obj Val} {t i n : Nat} {args : List Obj} {c : Caller}
  {d : Kwargs Val} {task : Task Obj Val} {data : Obj → Option Val}
  {events : List (Event Obj Val)}

open State

omit [DecidableEq Obj] in
theorem delivers_of_none (h : ∀ c args d, .returned c args d ∉ events) : Delivers P data events :=
  fun c args d hmem => absurd hmem (h c args d)

omit [DecidableEq Obj] in
theorem State.Delivers.append {more : List (Event Obj Val)} (h : Delivers P data events)
    (hmore : Delivers P data more) : Delivers P data (events ++ more) := by
  intro c args d hmem
  rcases List.mem_append.mp hmem with hmem | hmem
  · obtain ⟨heq, hreaches⟩ := h c args d hmem
    refine ⟨heq, fun t ht => ?_⟩
    obtain ⟨x, kw, hev, hget⟩ := hreaches t ht
    exact ⟨x, kw, List.mem_append_left _ hev, hget⟩
  · obtain ⟨heq, hreaches⟩ := hmore c args d hmem
    refine ⟨heq, fun t ht => ?_⟩
    obtain ⟨x, kw, hev, hget⟩ := hreaches t ht
    exact ⟨x, kw, List.mem_append_right _ hev, hget⟩

/-! ### What a step returns -/

theorem history_polls (hp : Polls P s c args s' n) :
    s'.data = s.data ∧ ∃ events, s'.history = s.history ++ events ∧
      ∀ c args d, .returned c args d ∉ events := by
  cases hp with
  | again _ => exact ⟨rfl, [], by simp, by simp⟩
  | @first kw _ =>
    rw [State.schedule_eq, State.createTasks_frame]
    exact ⟨rfl, [.resolve c args], rfl, by simp⟩

theorem collect_of_returns (hacc : Accounted P s) (hp : Polls P s c args s' n)
    (hw : s'.waitForCache P args n = .returns d) :
    d = .ofList (args.map fun x => (P.classAlias x, s.data x)) := by
  obtain ⟨hn, rfl⟩ := State.waitForCache_returns hw
  obtain ⟨-, hall⟩ := hacc.polls hp
  obtain ⟨hdata, -⟩ := history_polls hp
  rw [State.collect, List.filter_eq_self.mpr (hall hn), hdata]

theorem delivers_stepCall (hacc : Accounted P s) :
    ∃ events, (s.stepCall P i).history = s.history ++ events ∧ Delivers P s.data events := by
  refine State.stepCall_rule (Q := fun s' => ∃ events, s'.history = s.history ++ events ∧
    Delivers P s.data events) fun s₁ hstep => ?_
  cases hstep with
  | idle _ => exact ⟨[], by simp, delivers_of_none (by simp)⟩
  | sleeps hp _ =>
    obtain ⟨-, events, hhistory, hnone⟩ := history_polls hp
    exact ⟨events, hhistory, delivers_of_none hnone⟩
  | @raises s' args n e hp _ =>
    obtain ⟨-, events, hhistory, hnone⟩ := history_polls hp
    refine ⟨events ++ [.raised (.call i) e], ?_, (delivers_of_none hnone).append (delivers_of_none (by simp))⟩
    show s'.history ++ _ = _
    rw [hhistory, List.append_assoc]
  | @returns s' args n d hp hw =>
    obtain ⟨-, events, hhistory, hnone⟩ := history_polls hp
    refine ⟨events ++ [.returned (.call i) args d], ?_, (delivers_of_none hnone).append ?_⟩
    · show s'.history ++ _ = _
      rw [hhistory, List.append_assoc]
    · intro c args' d' hmem
      obtain ⟨rfl, rfl, rfl⟩ := Event.returned.inj (List.mem_singleton.mp hmem)
      exact ⟨collect_of_returns hacc hp hw, fun t ht => by cases ht⟩

/-- The data as they are until task `t` evaluates its object. -/
def DataUntilEvaluated (data : Obj → Option Val) (t : Nat) (s : State Obj Val) : Prop :=
  ∀ task, s.tasks[t]? = some task → task.stage.early = true → s.data = data

omit [DecidableEq Obj] in
theorem dataUntilEvaluated_setStage {st : Stage Val} (h : st.early = true → s.data = data) :
    DataUntilEvaluated data t (s.setStage t st) := by
  intro task htask hearly
  obtain ⟨_, -, -, -, hstage⟩ := State.task_setStage htask
  rw [if_pos rfl] at hstage
  exact h (hstage ▸ hearly)

theorem dataUntilEvaluated_endProcess {r : Except PyExc (Option Val)} {x : Obj} :
    DataUntilEvaluated data t (s.endProcess P t x r) :=
  dataUntilEvaluated_setStage fun h => by cases h

theorem delivers_advance (hacc : Accounted P s) (hdata : DataUntilEvaluated data t s) :
    ∃ events, (s.advance P t).history = s.history ++ events ∧ Delivers P data events ∧
      DataUntilEvaluated data t (s.advance P t) := by
  refine State.advance_rule (Q := fun s' => ∃ events, s'.history = s.history ++ events ∧
    Delivers P data events ∧ DataUntilEvaluated data t s')
    ⟨[], by simp, delivers_of_none (by simp), hdata⟩ fun task s₁ htask hadv => ?_
  have hearly (h : task.stage.early = true) : s.data = data := hdata task htask h
  have hsilent {st : Stage Val} {u : State Obj Val} (hhistory : u.history = s.history)
      (hst : st.early = true → u.data = data) : ∃ events,
        (u.setStage t st).history = s.history ++ events ∧ Delivers P data events ∧
          DataUntilEvaluated data t (u.setStage t st) :=
    ⟨[], by simp [hhistory], delivers_of_none (by simp), dataUntilEvaluated_setStage hst⟩
  have hend {r : Except PyExc (Option Val)} {u : State Obj Val} {more : List (Event Obj Val)}
      (hhistory : u.history = s.history ++ more) (hmore : Delivers P data more) : ∃ events,
        (u.endProcess P t task.obj r).history = s.history ++ events ∧
          Delivers P data events ∧ DataUntilEvaluated data t (u.endProcess P t task.obj r) := by
    refine ⟨more ++ [.processed t task.obj r], ?_, hmore.append (delivers_of_none (by simp)),
      dataUntilEvaluated_endProcess⟩
    rw [State.history_endProcess, hhistory, List.append_assoc]
  have hnothing : Delivers P data ([] : List (Event Obj Val)) := delivers_of_none (by simp)
  cases hadv with
  | start hc => exact hsilent rfl fun _ => hearly (by rw [hc]; rfl)
  | tick htick => exact hsilent rfl fun h => hearly (htick.early_eq.trans h)
  | opened hc _ => exact hsilent rfl fun _ => hearly (by rw [hc]; rfl)
  | openRaised _ _ => exact hsilent rfl fun h => by cases h
  | found _ _ => exact hend (List.append_nil _).symm hnothing
  | sleeps hp _ =>
    obtain ⟨hd, events, hhistory, hnone⟩ := history_polls hp
    obtain ⟨-, hstage⟩ := State.task_of_polls htask hp
    exact ⟨events, hhistory, delivers_of_none hnone,
      dataUntilEvaluated_setStage fun _ => hd.trans (hearly (early_of_polls hstage))⟩
  | @raises s₁ n e hp _ =>
    obtain ⟨-, events, hhistory, hnone⟩ := history_polls hp
    have hraised : (s₁.log (.raised (.task t) e)).history =
        s.history ++ (events ++ [.raised (.task t) e]) := by
      rw [State.history_log, hhistory, List.append_assoc]
    exact hend hraised ((delivers_of_none hnone).append (delivers_of_none (by simp)))
  | @returns s₁ n d hp hw =>
    obtain ⟨-, events, hhistory, hnone⟩ := history_polls hp
    obtain ⟨-, hstage⟩ := State.task_of_polls htask hp
    refine ⟨events ++ [.returned (.task t) (P.readers task.obj) d,
      .evaluate t task.obj (task.kwargs.merge d)], ?_, (delivers_of_none hnone).append ?_,
      dataUntilEvaluated_setStage fun h => by cases h⟩
    · show s₁.history ++ [_] ++ [_] = _
      rw [hhistory, List.append_assoc, List.append_assoc]
      rfl
    · intro c args d' hmem
      obtain ⟨rfl, rfl, rfl⟩ : c = .task t ∧ args = P.readers task.obj ∧ d' = d := by
        simpa using hmem
      refine ⟨?_, fun t' ht' => ⟨task.obj, task.kwargs.merge d', ?_, fun key v hv => ?_⟩⟩
      · rw [← hearly (early_of_polls hstage)]
        exact collect_of_returns hacc hp hw
      · simp [Caller.task.inj ht']
      · exact Dict.get?_merge_of_some hv
  | evaluated _ _ => exact hend (u := { s with data := _ }) (List.append_nil _).symm hnothing
  | evaluateRaised _ _ => exact hend (List.append_nil _).symm hnothing
  | closed _ _ => exact hsilent rfl fun h => by cases h
  | closeRaised _ _ => exact hsilent rfl fun h => by cases h

/-- Each dictionary that a step returns consists of the data before the step. -/
theorem delivers_newEvents (hacc : Accounted P s) (b : Caller) :
    Delivers P s.data (s.newEvents P b) := by
  suffices h : ∃ events, (s.step P b).history = s.history ++ events ∧
      Delivers P s.data events by
    obtain ⟨events, hhistory, hdelivers⟩ := h
    rwa [State.newEvents, hhistory, List.drop_left]
  cases b with
  | call i => exact delivers_stepCall hacc
  | task t =>
    have huntil : DataUntilEvaluated s.data t s := fun _ _ _ => rfl
    have hfirst := delivers_advance hacc huntil
    obtain ⟨-, events, hhistory, hdelivers, -⟩ := State.settle_induction (P := P) (t := t)
      (I := fun s' => Accounted P s' ∧ ∃ events, s'.history = s.history ++ events ∧
        Delivers P s.data events ∧ DataUntilEvaluated s.data t s')
      (fun s' h _ => by
        obtain ⟨hacc', events, hhistory, hdelivers, hdata⟩ := h
        obtain ⟨more, hmore, hdelivers', hdata'⟩ := delivers_advance hacc' hdata
        refine ⟨hacc'.advance, events ++ more, ?_, hdelivers.append hdelivers', hdata'⟩
        rw [hmore, hhistory, List.append_assoc])
      4 ⟨hacc.advance, hfirst⟩
    exact ⟨events, hhistory, hdelivers⟩

/-- A dictionary that a top-level call has returned in its step was found by a poll of the call. -/
theorem returned_of_newEvents (h : .returned c args d ∈ s.newEvents P (.call i)) :
    (∃ args' s' n, Polls P s (.call i) args' s' n) ∧
      (s.step P (.call i)).calls[i]?.map Call.state = some (.returned d) := by
  revert h
  refine State.stepCall_rule (P := P) (s := s) (i := i)
    (Q := fun s₁ => .returned c args d ∈ s₁.history.drop s.history.length →
      (∃ args' s' n, Polls P s (.call i) args' s' n) ∧
        s₁.calls[i]?.map Call.state = some (.returned d)) fun s₁ hstep h => ?_
  cases hstep with
  | idle _ => simp at h
  | @sleeps s' args' n m hp _ =>
    obtain ⟨-, events, hhistory, hnone⟩ := history_polls hp
    have hsame : (s'.setCall i (.polling m)).history = s.history ++ events := hhistory
    rw [hsame, List.drop_left] at h
    exact absurd h (hnone c args d)
  | @raises s' args' n e hp _ =>
    obtain ⟨-, events, hhistory, hnone⟩ := history_polls hp
    have hsame : ((s'.handOut.log (.raised (.call i) e)).setCall i (.raised e)).history =
        s.history ++ (events ++ [.raised (.call i) e]) := by
      show s'.history ++ _ = _
      rw [hhistory, List.append_assoc]
    rw [hsame, List.drop_left] at h
    simp [hnone c args d] at h
  | @returns s' args' n d' hp _ =>
    obtain ⟨-, events, hhistory, hnone⟩ := history_polls hp
    have hsame : ((s'.log (.returned (.call i) args' d')).setCall i (.returned d')).history =
        s.history ++ (events ++ [.returned (.call i) args' d']) := by
      show s'.history ++ _ = _
      rw [hhistory, List.append_assoc]
    rw [hsame, List.drop_left] at h
    obtain ⟨-, -, rfl⟩ : c = .call i ∧ args = args' ∧ d = d' := by
      simpa [hnone c args d] using h
    refine ⟨⟨args', s', n, hp⟩, ?_⟩
    obtain ⟨call, hcall⟩ : ∃ call, s.calls[i]? = some call := by
      cases hp with
      | first harrives => exact ⟨_, harrives⟩
      | again hsleeps =>
        obtain ⟨kw, hsleeps⟩ := hsleeps
        exact ⟨_, hsleeps⟩
    simp [calls_polls hp, hcall]

/-! ### One entry for each input -/

/-- The case conversions of names of ASCII letters, none of which is a digit. -/
def lettersCase : Stringcase where
  lower s := .ofList (s.toList.map Char.toLower)
  snakecase s := s

/-- Two inputs that read nothing, with the aliases of their classes. -/
def twoInputs (first second : String) : Inputs Bool String :=
  { readerChain with
    readers := fun _ => []
    classAlias := fun x => if x then second else first }

theorem named_twoInputs {className : Bool → String} {first second : String}
    (hfirst : lettersCase.alias (className false) = first)
    (hsecond : lettersCase.alias (className true) = second) :
    (twoInputs "" "").named lettersCase className = twoInputs first second := by
  have haliases : (fun x => lettersCase.alias (className x)) =
      fun x => if x then second else first := by
    funext x
    cases x with
    | false => exact hfirst
    | true => exact hsecond
  unfold Inputs.named twoInputs
  rw [haliases]

/-- Both are evaluated, and the call has counted them. -/
def bothCounted : List Caller := [.call 0, .task 0, .task 1, .task 0, .task 1, .call 0]

/-- A reader and a processor of the same stem: one entry is left, with the data of the processor. -/
theorem reader_overwritten_by_processor :
    let className : Bool → String := fun x => if x then "OrdersProcessor" else "OrdersReader"
    let P := (twoInputs "" "").named lettersCase className
    let s := exec P [([false, true], .empty)] bothCounted
    let result : Kwargs String := .ofList [("orders", some "true")]
    .returned (.call 0) [false, true] result ∈ s.newEvents P (.call 0) ∧
      ¬ OneEntryEach P s [false, true] result := by
  intro className P s result
  have hP : P = twoInputs "orders" "orders" := named_twoInputs (by decide +kernel) (by decide +kernel)
  refine ⟨?_, fun h => ?_⟩
  · rw [show s = exec P [([false, true], .empty)] bothCounted from rfl, hP]
    exact List.mem_of_getLast? rfl
  · exact absurd h.entries (by decide)

/-- Names that differ only in case have the same alias. -/
example : lettersCase.alias "StockReader" = lettersCase.alias "STOCKReader" := by
  decide +kernel

end NexusSdk.Cache
