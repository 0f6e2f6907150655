import NexusSdk.Client.ListQueries

/-! The release of results arrays.  The generators of `get_run_results` and `await_tagged` are state
machines here, which the consumer resumes with `next` or `close` in any order. -/

namespace NexusSdk.Client

open Lib

/-- How a consumer resumes a generator. -/
inductive Resumption
  | next
  | close
  deriving DecidableEq

/-- Where the body of a generator stands. -/
inductive Standing
  | created
  /-- at the `yield` of element `i` -/
  | suspended (i : Nat)
  | finished
  deriving DecidableEq

/-- A turn of the loop of `_iterate_results`, up to its `yield`. -/
def iterateTurn (results : Option ResultsArray) (i : Nat) : Traced ArrayEvent PyExc Standing :=
  match results with
  | none => .raise (.raised valueError "NULL pointer access")
  | some results => do
    .emit (.read i)
    match turn (results.memory i) with
    | .yields r =>
      .emit (.yielded r)
      return .suspended i
    | .breaks => return .finished
    | .raises e => .raise e

/-- `_iterate_results`.  `close` raises `GeneratorExit` at the `yield`, which has no handler. -/
def resumeIterateResults (results : Option ResultsArray) :
    Standing → Resumption → Traced ArrayEvent PyExc Standing
  | .created, .next => iterateTurn results 0
  | .suspended i, .next => iterateTurn results (i + 1)
  | _, _ => pure .finished

/-- The end of `get_run_results`: the `yield from` and the statement after it. -/
def yieldFrom (results : ResultsArray) (standing : Standing) (resumption : Resumption) :
    Traced ArrayEvent PyExc Standing := do
  let standing ← resumeIterateResults (some results) standing resumption
  -- `GeneratorExit` leaves the body at the `yield from`.
  .when (standing = .finished ∧ resumption = .next) (.emit .freed)
  return standing

/-- `get_run_results` for a Go library that returns `answer`. -/
def resumeGetRunResults (answer : Option ResultsArray) :
    Standing → Resumption → Traced ArrayEvent PyExc Standing
  | .created, .next => do
    .emit (.goCall 0)
    match answer with
    | none => .raise (.raised runtimeError ("Unmapped SDK error: Go client failed to return " ++
        "coherent result. This is a bug and must be reported to the maintainer team."))
    | some results => yieldFrom results .created .next
  | .suspended i, resumption =>
    match answer with
    | none => pure .finished
    | some results => yieldFrom results (.suspended i) resumption
  | _, _ => pure .finished

/-- A body that raises is finished. -/
def Standing.after : Except PyExc Standing → Standing
  | .ok standing => standing
  | .error _ => .finished

/-- The events of a generator that is resumed as given; the consumer sees its exceptions, and may go
on. -/
def resumed (resume : Standing → Resumption → Traced ArrayEvent PyExc Standing) :
    Standing → List Resumption → List ArrayEvent
  | _, [] => []
  | standing, r :: rest =>
    (resume standing r).events ++ resumed resume (.after (resume standing r).outcome) rest

/-- `get_run_results` and its consumer.  A generator that is dropped is closed. -/
def getRunResultsEvents (answers : Nat → Option ResultsArray) (consumer : List Resumption) :
    List ArrayEvent :=
  resumed (resumeGetRunResults (answers 0)) .created (consumer ++ [.close])

/-- `await_tagged` and the consumer of the generator that it returns. -/
def awaitTaggedEvents (eager : Eager) (answers : Nat → Option ResultsArray) (reportProgress : Bool)
    (consumer : List Resumption) : List ArrayEvent :=
  let call := awaitTagged eager answers reportProgress 0
  call.events ++ match call.outcome with
    | .ok _ => resumed (resumeIterateResults (answers 0)) .created (consumer ++ [.close])
    | .error _ => []

/-! ### What releasing an array once is -/

def ArrayEvent.isFreed : ArrayEvent → Bool
  | .freed => true
  | _ => false

structure ReleasedOnce (events : List ArrayEvent) : Prop where
  freed_once : events.countP ArrayEvent.isFreed = 1
  not_read_after : ∀ before after i, events = before ++ .freed :: after → .read i ∉ after

/-- The array that the Go library returned, if any, is released once. -/
def ArrayReleased (answer : Option ResultsArray) (events : List ArrayEvent) : Prop :=
  answer.isSome = true → .goCall 0 ∈ events → ReleasedOnce events

/-- How often the consumer calls `next` before it closes the generator. -/
def leadingNexts : List Resumption → Nat
  | .next :: rest => leadingNexts rest + 1
  | _ => 0

/-- So many calls of `next` reach the end of the loop, and no element on the way raises. -/
def ReadToEnd : List SdkRunResult → Nat → Prop
  | _, 0 => False
  | [], _ + 1 => True
  | r :: rest, nexts + 1 =>
    r.fields.all decodes = true ∧ (r.blank = true ∨ r.carried = none ∧ ReadToEnd rest nexts)

/-! ### The state machines run as the generators -/

theorem resumed_finished {resume : Standing → Resumption → Traced ArrayEvent PyExc Standing}
    (h : ∀ r, resume .finished r = pure .finished) (rs : List Resumption) :
    resumed resume .finished rs = [] := by
  induction rs with
  | nil => rfl
  | cons r rest ih =>
    rw [resumed, h]
    exact ih

/-- The element that the next turn reads. -/
def Standing.position : Standing → Option Nat
  | .created => some 0
  | .suspended i => some (i + 1)
  | .finished => none

theorem resumeIterateResults_next {results : Option ResultsArray} {standing : Standing} {i : Nat}
    (h : standing.position = some i) :
    resumeIterateResults results standing .next = iterateTurn results i := by
  cases standing with
  | created =>
    cases h
    rfl
  | suspended k =>
    cases h
    rfl
  | finished => cases h

theorem resumeIterateResults_close (results : Option ResultsArray) (standing : Standing) :
    resumeIterateResults results standing .close = pure .finished := by
  cases standing <;> rfl

theorem resumed_finished_iterateResults (results : Option ResultsArray) (rs : List Resumption) :
    resumed (resumeIterateResults results) .finished rs = [] :=
  resumed_finished (fun r => by cases r <;> rfl) rs

theorem resumed_finished_getRunResults (answer : Option ResultsArray) (rs : List Resumption) :
    resumed (resumeGetRunResults answer) .finished rs = [] :=
  resumed_finished (fun r => by cases r <;> rfl) rs

theorem leadingNexts_append_close (rs : List Resumption) :
    leadingNexts (rs ++ [.close]) = leadingNexts rs := by
  induction rs with
  | nil => rfl
  | cons r rest ih =>
    cases r with
    | next => exact congrArg (· + 1) ih
    | close => rfl

theorem resumed_iterateResults (a : ResultsArray) (rs : List Resumption) (standing : Standing)
    (i : Nat) (h : standing.position = some i) :
    resumed (resumeIterateResults (some a)) standing rs =
      (iterateResults a.memory (leadingNexts rs) i).events := by
  induction rs generalizing standing i with
  | nil => rfl
  | cons r rest ih =>
    cases r with
    | close =>
      rw [resumed, resumeIterateResults_close]
      exact resumed_finished_iterateResults (some a) rest
    | next =>
      rw [resumed, resumeIterateResults_next h, leadingNexts, iterateTurn]
      cases hturn : turn (a.memory i) with
      | yields result =>
        rw [iterateResults_yields hturn, ← ih (.suspended i) (i + 1) rfl]
        rfl
      | breaks =>
        rw [iterateResults_breaks hturn]
        exact congrArg (.read i :: ·) (resumed_finished_iterateResults (some a) rest)
      | raises e =>
        rw [iterateResults_raises hturn]
        exact congrArg (.read i :: ·) (resumed_finished_iterateResults (some a) rest)

/-- The state machine of `_iterate_results` runs as the generator does. -/
theorem resumed_iteratePointer (results : Option ResultsArray) (rs : List Resumption) :
    resumed (resumeIterateResults results) .created rs =
      (iteratePointer results (leadingNexts rs)).events := by
  cases results with
  | some a =>
    rw [resumed_iterateResults a rs .created 0 rfl]
    cases leadingNexts rs <;> rfl
  | none =>
    match rs with
    | [] => rfl
    | .close :: rest => exact resumed_finished_iterateResults none rest
    | .next :: rest => exact resumed_finished_iterateResults none rest

/-- What `get_run_results` does after the loop. -/
def freedAfter : Except PyExc Bool → List ArrayEvent
  | .ok true => [.freed]
  | _ => []

/-- The loop from element `i` on, and what comes after it. -/
def loopEvents (a : ResultsArray) (nexts i : Nat) : List ArrayEvent :=
  (iterateResults a.memory nexts i).events ++ freedAfter (iterateResults a.memory nexts i).outcome

theorem yieldFrom_next {a : ResultsArray} {rest : List Resumption} {standing : Standing} {i : Nat}
    (h : standing.position = some i)
    (hrest : resumed (resumeGetRunResults (some a)) (.suspended i) rest =
      loopEvents a (leadingNexts rest) (i + 1)) :
    (yieldFrom a standing .next).events ++
        resumed (resumeGetRunResults (some a)) (.after (yieldFrom a standing .next).outcome) rest =
      loopEvents a (leadingNexts rest + 1) i := by
  unfold yieldFrom loopEvents
  rw [resumeIterateResults_next h, iterateTurn]
  cases hturn : turn (a.memory i) with
  | yields result =>
    rw [iterateResults_yields hturn]
    exact congrArg (.read i :: .yielded result :: ·) hrest
  | breaks =>
    rw [iterateResults_breaks hturn]
    exact congrArg (.read i :: .freed :: ·) (resumed_finished_getRunResults (some a) rest)
  | raises e =>
    rw [iterateResults_raises hturn]
    exact congrArg (.read i :: ·) (resumed_finished_getRunResults (some a) rest)

theorem resumed_suspended (a : ResultsArray) (rs : List Resumption) (i : Nat) :
    resumed (resumeGetRunResults (some a)) (.suspended i) rs =
      loopEvents a (leadingNexts rs) (i + 1) := by
  induction rs generalizing i with
  | nil => rfl
  | cons r rest ih =>
    cases r with
    | close => exact resumed_finished_getRunResults (some a) rest
    | next => exact yieldFrom_next rfl (ih (i + 1))

theorem events_getRunResults_some {answers : Nat → Option ResultsArray} {n : Nat} {a : ResultsArray}
    (h : answers n = some a) (nexts : Nat) :
    (getRunResults answers n (nexts + 1)).events = .goCall n :: loopEvents a (nexts + 1) 0 := by
  simp only [getRunResults, h, loopEvents]
  obtain ⟨events, outcome⟩ := iterateResults a.memory (nexts + 1) 0
  cases outcome with
  | error e => exact congrArg (.goCall n :: ·) (List.append_nil events).symm
  | ok stopped =>
    cases stopped with
    | true => rfl
    | false => rfl

/-- The state machine of `get_run_results` runs as the generator does. -/
theorem resumed_getRunResults (answers : Nat → Option ResultsArray) (rs : List Resumption) :
    resumed (resumeGetRunResults (answers 0)) .created rs =
      (getRunResults answers 0 (leadingNexts rs)).events := by
  match rs with
  | [] => rfl
  | .close :: rest => exact resumed_finished_getRunResults (answers 0) rest
  | .next :: rest =>
    rw [leadingNexts]
    cases hanswer : answers 0 with
    | none =>
      rw [getRunResults, hanswer]
      exact congrArg (.goCall 0 :: ·) (resumed_finished_getRunResults none rest)
    | some a =>
      rw [events_getRunResults_some hanswer]
      have hposition : Standing.created.position = some 0 := rfl
      exact congrArg (.goCall 0 :: ·) (yieldFrom_next hposition (resumed_suspended a rest 0))

/-! ### When arrays are released -/

/-- The generator stops without an exception exactly if its consumer reads to the end. -/
theorem stopped_iff {results : Nat → SdkRunResult} (xs : List SdkRunResult) (nexts i : Nat)
    (h : StandsAt results xs i) :
    (iterateResults results nexts i).outcome = .ok true ↔ ReadToEnd xs nexts := by
  induction nexts generalizing xs i with
  | zero => exact iff_of_false (by simp [iterateResults]) (by cases xs <;> exact id)
  | succ nexts ih =>
    cases xs with
    | nil =>
      have hbreaks : turn (results i) = .breaks := congrArg turn h.2
      rw [iterateResults_breaks hbreaks]
      exact iff_of_true rfl trivial
    | cons r rest =>
      have hturn := turn_eq r
      rw [← show results i = r from h.1 0 r rfl] at hturn
      unfold ReadToEnd
      rw [← h.1 0 r rfl]
      cases hdecodes : (results i).fields.all decodes with
      | false =>
        rw [hdecodes] at hturn
        rw [iterateResults_raises hturn]
        exact iff_of_false (by simp) (by simp)
      | true =>
      cases hblank : (results i).blank with
      | true =>
        rw [hdecodes, hblank] at hturn
        rw [iterateResults_breaks hturn]
        exact iff_of_true rfl ⟨rfl, .inl rfl⟩
      | false =>
      simp only [hdecodes, hblank, if_true, Bool.false_eq_true, if_false] at hturn
      cases hcarried : (results i).carried with
      | none =>
        rw [hcarried] at hturn
        rw [iterateResults_yields hturn, ih rest (i + 1) h.tail]
        simp
      | some e =>
        rw [hcarried] at hturn
        rw [iterateResults_raises hturn]
        exact iff_of_false (by simp) (by simp)

theorem countP_iterateResults (results : Nat → SdkRunResult) (nexts i : Nat) :
    (iterateResults results nexts i).events.countP ArrayEvent.isFreed = 0 := by
  induction nexts generalizing i with
  | zero => rfl
  | succ nexts ih =>
    cases hturn : turn (results i) with
    | yields result =>
      rw [iterateResults_yields hturn]
      simpa [ArrayEvent.isFreed] using ih (i + 1)
    | breaks =>
      rw [iterateResults_breaks hturn]
      rfl
    | raises e =>
      rw [iterateResults_raises hturn]
      rfl

/-- Nothing follows the release of an array if it is the last and only one. -/
theorem ReleasedOnce.of_last {events : List ArrayEvent}
    (h : events.countP ArrayEvent.isFreed = 0) : ReleasedOnce (events ++ [.freed]) := by
  refine ⟨?_, fun before after i heq hread => ?_⟩
  · rw [List.countP_append, h]
    rfl
  · obtain rfl | ⟨init, last, rfl⟩ := List.eq_nil_or_concat' after
    · cases hread
    · have hinit : events = before ++ .freed :: init := by
        have hconcat : events ++ [.freed] = (before ++ .freed :: init) ++ [last] := by
          rw [heq, List.append_assoc, List.cons_append]
        exact (List.append_inj' hconcat rfl).1
      rw [hinit, List.countP_append, List.countP_cons_of_pos rfl] at h
      omega

theorem releasedOnce_loopEvents_iff (a : ResultsArray) (nexts n : Nat) :
    ReleasedOnce (.goCall n :: loopEvents a nexts 0) ↔ ReadToEnd a.elements nexts := by
  rw [← stopped_iff a.elements nexts 0 (standsAt_memory a), loopEvents]
  have hzero := countP_iterateResults a.memory nexts 0
  generalize iterateResults a.memory nexts 0 = loop at hzero
  obtain ⟨events, outcome⟩ := loop
  have hcall : (ArrayEvent.goCall n :: events).countP ArrayEvent.isFreed = 0 := hzero
  have hnot (h : freedAfter outcome = []) :
      ¬ ReleasedOnce (.goCall n :: (events ++ freedAfter outcome)) := by
    rintro ⟨honce, -⟩
    rw [h, List.append_nil, hcall] at honce
    cases honce
  match outcome with
  | .ok true => exact iff_of_true (ReleasedOnce.of_last hcall) rfl
  | .ok false => exact iff_of_false (hnot rfl) (by simp)
  | .error e => exact iff_of_false (hnot rfl) (by simp)

theorem not_freed_iteratePointer (results : Option ResultsArray) (nexts : Nat) :
    (iteratePointer results nexts).events.countP ArrayEvent.isFreed = 0 := by
  cases nexts with
  | zero => rfl
  | succ nexts =>
    cases results with
    | none => rfl
    | some a => exact countP_iterateResults a.memory (nexts + 1) 0

/-- `await_tagged` with its consumer: the call of the Go library and the traversal. -/
theorem awaitTaggedEvents_eq {eager : Eager} (heager : RunsSingle eager)
    (answers : Nat → Option ResultsArray) (reportProgress : Bool) (consumer : List Resumption) :
    awaitTaggedEvents eager answers reportProgress consumer =
      .goCall 0 :: (iteratePointer (answers 0) (leadingNexts consumer)).events := by
  have hcall : awaitTagged eager answers reportProgress 0 =
      ⟨[.goCall 0], .ok (iteratePointer (answers 0))⟩ := by
    unfold awaitTagged
    cases reportProgress with
    | false => rfl
    | true =>
      rw [heager "result" (awaitTaggedRuns answers 0) (iteratePointer (answers 0)) rfl]
      rfl
  unfold awaitTaggedEvents
  rw [hcall, resumed_iteratePointer, leadingNexts_append_close]
  rfl

theorem getRunResults_released_iff (answers : Nat → Option ResultsArray)
    (consumer : List Resumption) :
    ArrayReleased (answers 0) (getRunResultsEvents answers consumer) ↔
      ∀ a, answers 0 = some a → leadingNexts consumer ≠ 0 →
        ReadToEnd a.elements (leadingNexts consumer) := by
  unfold ArrayReleased getRunResultsEvents
  rw [resumed_getRunResults, leadingNexts_append_close]
  cases hnexts : leadingNexts consumer with
  | zero => exact iff_of_true (fun _ hcall => by cases hcall) (fun _ _ hne => absurd rfl hne)
  | succ nexts =>
    cases hanswer : answers 0 with
    | none => exact iff_of_true (fun hsome => by cases hsome) (fun _ ha => by cases ha)
    | some a =>
      rw [events_getRunResults_some hanswer, releasedOnce_loopEvents_iff]
      simp

theorem awaitTagged_released_iff {eager : Eager} (heager : RunsSingle eager)
    (answers : Nat → Option ResultsArray) (reportProgress : Bool) (consumer : List Resumption) :
    ArrayReleased (answers 0) (awaitTaggedEvents eager answers reportProgress consumer) ↔
      answers 0 = none := by
  unfold ArrayReleased
  rw [awaitTaggedEvents_eq heager]
  cases answers 0 with
  | none => exact iff_of_true (fun hsome => by cases hsome) rfl
  | some a =>
    refine iff_of_false (fun hreleased => ?_) (by simp)
    obtain ⟨honce, -⟩ := hreleased rfl List.mem_cons_self
    have hzero := not_freed_iteratePointer (some a) (leadingNexts consumer)
    rw [List.countP_cons_of_neg (by simp [ArrayEvent.isFreed]), hzero] at honce
    cases honce

/-- `get_run_results` releases the array that it obtained exactly if its consumer reads to the end,
`await_tagged` exactly if it obtained none. -/
theorem array_released_iff {eager : Eager} (heager : RunsSingle eager)
    (answers : Nat → Option ResultsArray) (reportProgress : Bool) (consumer : List Resumption) :
    (ArrayReleased (answers 0) (getRunResultsEvents answers consumer) ↔
      ∀ a, answers 0 = some a → leadingNexts consumer ≠ 0 →
        ReadToEnd a.elements (leadingNexts consumer)) ∧
    (ArrayReleased (answers 0) (awaitTaggedEvents eager answers reportProgress consumer) ↔
      answers 0 = none) :=
  ⟨getRunResults_released_iff answers consumer,
    awaitTagged_released_iff heager answers reportProgress consumer⟩

/-- One result, the request id of which is `"run-1"`. -/
def singleResultArray : ResultsArray where
  elements := [{ SdkRunResult.null with requestId := some "run-1".toUTF8 }]
  beyond _ := .null

/-- The consumer asks for the result and for the end of the results. -/
theorem array_released_iff_singleResult :
    let answers : Nat → Option ResultsArray := fun _ => some singleResultArray
    ArrayReleased (answers 0) (getRunResultsEvents answers [.next, .next]) ∧
      ¬ ArrayReleased (answers 0) (awaitTaggedEvents eagerInOrder answers true [.next, .next]) := by
  intro answers
  obtain ⟨hresults, htagged⟩ :=
    array_released_iff runsSingle_eagerInOrder answers true [.next, .next]
  refine ⟨hresults.mpr fun a ha _ => ?_, fun hreleased => ?_⟩
  · obtain rfl := Option.some.inj ha
    exact ⟨by decide +kernel, .inr ⟨by decide +kernel, trivial⟩⟩
  · cases htagged.mp hreleased

/-- A consumer that closes the generator after the first result, and one that reads to the end. -/
theorem array_not_released :
    let answers : Nat → Option ResultsArray := fun _ => some singleResultArray
    ¬ ArrayReleased (answers 0) (getRunResultsEvents answers [.next, .close]) ∧
      ¬ ArrayReleased (answers 0) (awaitTaggedEvents eagerInOrder answers true [.next, .next]) := by
  intro answers
  refine ⟨fun hreleased => ?_, fun hreleased => ?_⟩
  · have hread := (getRunResults_released_iff answers _).mp hreleased singleResultArray rfl (by decide)
    rcases hread.2 with hblank | ⟨-, hend⟩
    · exact absurd hblank (by decide +kernel)
    · exact hend
  · cases (awaitTagged_released_iff runsSingle_eagerInOrder answers true _).mp hreleased

end NexusSdk.Client
