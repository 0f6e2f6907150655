import NexusSdk.Client.Receiver
import NexusSdk.Lib.Traced

/-! `NexusSchedulerClient._iterate_results`, as a generator over the memory behind a results pointer.
A pointer can be indexed without end, so the traversal stops only by what it reads. -/

namespace NexusSdk.Client

open Lib

/-! ### Decoded elements -/

namespace SdkRunResult

/-- An element whose fields are all null ends the array. -/
def null : SdkRunResult := ⟨none, none, none, none, none, none, none⟩

/-- All fields are null or empty, so that the decoded element is empty. -/
def blank (r : SdkRunResult) : Bool := r.fields.all fun field => (decoded field).isNone

/-- The element with its fields decoded. -/
def decodedResult (r : SdkRunResult) : RunResult where
  clientErrorType := .ofOption (decoded r.clientErrorType)
  clientErrorMessage := .ofOption (decoded r.clientErrorMessage)
  algorithm := decoded r.algorithm
  requestId := decoded r.requestId
  resultUri := decoded r.resultUri
  runErrorMessage := decoded r.runErrorMessage
  status := decoded r.status

/-- The error that the element carries, if its error type is one of the known ones. -/
def carried (r : SdkRunResult) : Option PyExc :=
  (carriedError r.clientErrorType).map fun cls =>
    .raised cls (PyText.ofOption (decoded r.clientErrorMessage)).text

end SdkRunResult

theorem isNone_ofOption (o : Option String) : (PyText.ofOption o).isNone = o.isNone := by
  cases o <;> rfl

theorem isEmpty_decodedResult (r : SdkRunResult) : r.decodedResult.isEmpty = r.blank := by
  simp only [SdkRunResult.decodedResult, RunResult.isEmpty, SdkRunResult.blank,
    SdkRunResult.fields, List.all_cons, List.all_nil, isNone_ofOption, Bool.and_true]
  ac_rfl

/-- Reading an element: an exception of the decoder, the end of the array, or the decoded element. -/
theorem fromSdkResult_eq (r : SdkRunResult) :
    RunResult.fromSdkResult (some r) =
      if r.fields.all decodes then .ok (if r.blank then none else some r.decodedResult)
      else .error invalidUtf8 := by
  rw [← isEmpty_decodedResult]
  simp only [RunResult.fromSdkResult, bind_decodeField, ← ite_and, SdkRunResult.fields,
    List.all_cons, List.all_nil, Bool.and_true, Bool.and_eq_true]
  split
  · unfold SdkRunResult.decodedResult
    split <;> rfl
  · rfl

theorem error_decodedResult (r : SdkRunResult) : r.decodedResult.error = r.carried :=
  error_ofOption_decoded_eq _ _

theorem carried_of_blank {r : SdkRunResult} (h : r.blank = true) : r.carried = none := by
  have htype : decoded r.clientErrorType = none := by
    simp only [SdkRunResult.blank, SdkRunResult.fields, List.all_eq_true] at h
    exact Option.isNone_iff_eq_none.mp (h r.clientErrorType (by simp))
  rw [← error_decodedResult]
  simp only [SdkRunResult.decodedResult, htype]
  rfl

/-! ### The generator -/

/-- What a turn of the loop does with the element that it has read. -/
inductive Turn
  | yields (r : RunResult)
  | breaks
  | raises (e : PyExc)

def turn (result : SdkRunResult) : Turn :=
  match RunResult.fromSdkResult (some result) with
  | .error e => .raises e
  | .ok none => .breaks
  | .ok (some maybeResult) =>
    match maybeResult.error with
    | none => .yields maybeResult
    | some err => if err.isObject notFoundError then .breaks else .raises err

/-- What happens to a results array and to the consumer of its elements. -/
inductive ArrayEvent
  /-- the call of the Go library that returns the array -/
  | goCall (n : Nat)
  | read (i : Nat)
  | yielded (r : RunResult)
  /-- `FreeRunResultsPointer` -/
  | freed

/-- `_iterate_results` for a consumer that calls `next` as often as given, from element `i` on: whether
the generator has stopped. -/
def iterateResults (results : Nat → SdkRunResult) : Nat → Nat → Traced ArrayEvent PyExc Bool
  | 0, _ => pure false
  | nexts + 1, i => do
    .emit (.read i)
    match turn (results i) with
    | .yields r =>
      .emit (.yielded r)
      iterateResults results nexts (i + 1)
    | .breaks => pure true
    | .raises e => .raise e

/-- What a turn does, by the fields of the element. -/
theorem turn_eq (r : SdkRunResult) :
    turn r =
      if r.fields.all decodes then
        if r.blank then .breaks
        else match r.carried with
          | none => .yields r.decodedResult
          | some e => .raises e
      else .raises invalidUtf8 := by
  unfold turn
  rw [fromSdkResult_eq]
  cases r.fields.all decodes with
  | false => rfl
  | true =>
    cases r.blank with
    | true => rfl
    | false =>
      simp only [if_true, Bool.false_eq_true, if_false, error_decodedResult]
      cases r.carried <;> rfl

/-! ### Results arrays -/

/-- A results array in memory: its elements, the terminator, and whatever comes after it. -/
structure ResultsArray where
  elements : List SdkRunResult
  beyond : Nat → SdkRunResult

def ResultsArray.memory (a : ResultsArray) (i : Nat) : SdkRunResult :=
  (a.elements ++ [.null])[i]?.getD (a.beyond i)

/-- The traversal that is wanted of an array with the given elements, the first of which is element
`i`: all elements before the first one that carries an error, and silence if that error is a
`NotFoundError`. -/
def traversal : List SdkRunResult → Nat → Nat → Traced ArrayEvent PyExc Bool
  | _, 0, _ => pure false
  | [], _ + 1, i => ⟨[.read i], .ok true⟩
  | r :: rest, nexts + 1, i => do
    .emit (.read i)
    match r.carried with
    | none =>
      .emit (.yielded r.decodedResult)
      traversal rest nexts (i + 1)
    | some e => .of (if e.isInstance notFoundError then .ok true else .error e)

/-- Up to the first element that carries an error, all elements can be decoded and are not blank,
and this error is no `NotFoundError`. -/
def Traversable : List SdkRunResult → Prop
  | [] => True
  | r :: rest => r.fields.all decodes = true ∧ r.blank = false ∧
    match r.carried with
    | none => Traversable rest
    | some e => e.isInstance notFoundError = false

theorem memory_element {a : ResultsArray} {i : Nat} {r : SdkRunResult}
    (h : a.elements[i]? = some r) : a.memory i = r := by
  have hlt : i < a.elements.length := (List.getElem?_eq_some_iff.mp h).1
  rw [ResultsArray.memory, List.getElem?_append_left hlt, h]
  rfl

theorem memory_terminator (a : ResultsArray) : a.memory a.elements.length = .null := by
  rw [ResultsArray.memory, List.getElem?_append_right (Nat.le_refl _), Nat.sub_self]
  rfl

section Steps

variable {results : Nat → SdkRunResult} {r : SdkRunResult} {rest : List SdkRunResult} {e : PyExc}
  {i : Nat}

theorem iterateResults_raises (h : turn (results i) = .raises e) (nexts : Nat) :
    iterateResults results (nexts + 1) i = ⟨[.read i], .error e⟩ := by
  rw [iterateResults, h]
  rfl

theorem iterateResults_breaks (h : turn (results i) = .breaks) (nexts : Nat) :
    iterateResults results (nexts + 1) i = ⟨[.read i], .ok true⟩ := by
  rw [iterateResults, h]
  rfl

theorem iterateResults_yields {result : RunResult} (h : turn (results i) = .yields result)
    (nexts : Nat) :
    iterateResults results (nexts + 1) i =
      ⟨.read i :: .yielded result :: (iterateResults results nexts (i + 1)).events,
        (iterateResults results nexts (i + 1)).outcome⟩ := by
  rw [iterateResults, h]
  rfl

theorem traversal_none (h : r.carried = none) (nexts : Nat) :
    traversal (r :: rest) (nexts + 1) i =
      ⟨.read i :: .yielded r.decodedResult :: (traversal rest nexts (i + 1)).events,
        (traversal rest nexts (i + 1)).outcome⟩ := by
  rw [traversal, h]
  rfl

theorem traversal_some (h : r.carried = some e) (nexts : Nat) :
    traversal (r :: rest) (nexts + 1) i =
      ⟨[.read i], if e.isInstance notFoundError then .ok true else .error e⟩ := by
  rw [traversal, h]
  rfl

end Steps

/-! ### When the traversal is the one that is wanted -/

/-- No error of the Go library is taken for one of the decoder. -/
theorem carried_ne_invalidUtf8 {r : SdkRunResult} {e : PyExc} (h : r.carried = some e) :
    e ≠ invalidUtf8 := by
  obtain ⟨cls, hcls, rfl⟩ := Option.map_eq_some_iff.mp h
  obtain ⟨name, -, hname⟩ := Option.bind_eq_some_iff.mp hcls
  have hmem := errorClass_mem hname
  intro heq
  rw [show cls = unicodeDecodeError from congrArg PyExc.cls heq] at hmem
  exact absurd hmem (by decide)

/-- The elements `xs` stand in memory from element `i` on, and the terminator after them. -/
def StandsAt (results : Nat → SdkRunResult) (xs : List SdkRunResult) (i : Nat) : Prop :=
  (∀ k r, xs[k]? = some r → results (i + k) = r) ∧ results (i + xs.length) = .null

theorem StandsAt.tail {results : Nat → SdkRunResult} {r : SdkRunResult} {rest : List SdkRunResult}
    {i : Nat} (h : StandsAt results (r :: rest) i) : StandsAt results rest (i + 1) := by
  refine ⟨fun k x hx => ?_, ?_⟩
  · rw [Nat.add_assoc, Nat.add_comm 1 k]
    exact h.1 (k + 1) x hx
  · rw [Nat.add_assoc, Nat.add_comm 1]
    exact h.2

section Agreement

variable {results : Nat → SdkRunResult} {r : SdkRunResult} {rest : List SdkRunResult} {i : Nat}

/-- The decoder raises, which the traversal does not. -/
theorem not_agree_of_undecodable (hr : results i = r) (h : r.fields.all decodes = false) :
    iterateResults results 1 i ≠ traversal (r :: rest) 1 i := by
  have hturn : turn (results i) = .raises invalidUtf8 := by
    rw [hr, turn_eq, h]
    rfl
  rw [iterateResults_raises hturn]
  cases hcarried : r.carried with
  | none =>
    rw [traversal_none hcarried]
    simp
  | some e =>
    rw [traversal_some hcarried]
    have hne := carried_ne_invalidUtf8 hcarried
    cases e.isInstance notFoundError with
    | true => simp
    | false => simpa using Ne.symm hne

/-- A blank element ends the loop, as if it were the terminator. -/
theorem not_agree_of_blank (hr : results i = r) (h : r.fields.all decodes = true)
    (hblank : r.blank = true) : iterateResults results 1 i ≠ traversal (r :: rest) 1 i := by
  have hturn : turn (results i) = .breaks := by
    rw [hr, turn_eq, h, hblank]
    rfl
  rw [iterateResults_breaks hturn, traversal_none (carried_of_blank hblank)]
  simp

theorem agree_of_plain (hr : results i = r) (h : r.fields.all decodes = true)
    (hblank : r.blank = false) (hcarried : r.carried = none) :
    (∀ nexts, iterateResults results nexts i = traversal (r :: rest) nexts i) ↔
      ∀ nexts, iterateResults results nexts (i + 1) = traversal rest nexts (i + 1) := by
  have hturn : turn (results i) = .yields r.decodedResult := by
    rw [hr, turn_eq, h, hblank, hcarried]
    rfl
  constructor
  · intro hall nexts
    have hnext := hall (nexts + 1)
    rw [iterateResults_yields hturn, traversal_none hcarried] at hnext
    simpa [Traced.ext_iff] using hnext
  · intro hall nexts
    cases nexts with
    | zero => rfl
    | succ nexts => rw [iterateResults_yields hturn, traversal_none hcarried, hall nexts]

theorem agree_of_carried {e : PyExc} (hr : results i = r) (h : r.fields.all decodes = true)
    (hblank : r.blank = false) (hcarried : r.carried = some e) :
    (∀ nexts, iterateResults results nexts i = traversal (r :: rest) nexts i) ↔
      e.isInstance notFoundError = false := by
  have hturn : turn (results i) = .raises e := by
    rw [hr, turn_eq, h, hblank, hcarried]
    rfl
  constructor
  · intro hall
    have hone := hall 1
    rw [iterateResults_raises hturn, traversal_some hcarried] at hone
    by_contra hfound
    rw [Bool.not_eq_false] at hfound
    simp [hfound] at hone
  · intro hfound nexts
    cases nexts with
    | zero => rfl
    | succ nexts =>
      rw [iterateResults_raises hturn, traversal_some hcarried, hfound]
      rfl

theorem agree_iff (xs : List SdkRunResult) (i : Nat) (h : StandsAt results xs i) :
    (∀ nexts, iterateResults results nexts i = traversal xs nexts i) ↔ Traversable xs := by
  induction xs generalizing i with
  | nil =>
    have hbreaks : turn (results i) = .breaks := congrArg turn h.2
    refine iff_of_true (fun nexts => ?_) trivial
    cases nexts with
    | zero => rfl
    | succ nexts =>
      rw [iterateResults_breaks hbreaks]
      rfl
  | cons r rest ih =>
    have hr : results i = r := h.1 0 r rfl
    unfold Traversable
    cases hdecodes : r.fields.all decodes with
    | false => exact iff_of_false (fun hall => not_agree_of_undecodable hr hdecodes (hall 1)) (by simp)
    | true =>
    cases hblank : r.blank with
    | true => exact iff_of_false (fun hall => not_agree_of_blank hr hdecodes hblank (hall 1)) (by simp)
    | false =>
    cases hcarried : r.carried with
    | none =>
      rw [agree_of_plain hr hdecodes hblank hcarried, ih (i + 1) h.tail]
      simp
    | some e =>
      rw [agree_of_carried hr hdecodes hblank hcarried]
      simp

end Agreement

theorem standsAt_memory (a : ResultsArray) : StandsAt a.memory a.elements 0 := by
  refine ⟨fun k r hr => ?_, ?_⟩
  · rw [Nat.zero_add]
    exact memory_element hr
  · rw [Nat.zero_add]
    exact memory_terminator a

/-- No element beyond the terminator is read, whatever the elements are. -/
theorem read_le {results : Nat → SdkRunResult} (xs : List SdkRunResult) (i nexts j : Nat)
    (h : StandsAt results xs i) (hread : .read j ∈ (iterateResults results nexts i).events) :
    j ≤ i + xs.length := by
  induction xs generalizing i nexts with
  | nil =>
    have hbreaks : turn (results i) = .breaks := congrArg turn h.2
    cases nexts with
    | zero => cases hread
    | succ nexts =>
      rw [iterateResults_breaks hbreaks] at hread
      obtain rfl : j = i := by simpa using hread
      exact Nat.le_add_right ..
  | cons r rest ih =>
    cases nexts with
    | zero => cases hread
    | succ nexts =>
      rw [List.length_cons]
      cases hturn : turn (results i) with
      | yields result =>
        rw [iterateResults_yields hturn] at hread
        simp only [List.mem_cons, ArrayEvent.read.injEq, reduceCtorEq, false_or] at hread
        rcases hread with rfl | hread
        · omega
        · have hle := ih (i + 1) nexts h.tail hread
          omega
      | breaks =>
        rw [iterateResults_breaks hturn] at hread
        obtain rfl : j = i := by simpa using hread
        omega
      | raises e =>
        rw [iterateResults_raises hturn] at hread
        obtain rfl : j = i := by simpa using hread
        omega

/-- For every number of elements that the consumer asks for, a results array is traversed as wanted
exactly if up to the first error its elements can be decoded and are not blank, and this error is no
`NotFoundError`. -/
theorem traversed_as_wanted_iff (a : ResultsArray) :
    (∀ nexts, iterateResults a.memory nexts 0 = traversal a.elements nexts 0) ↔
      Traversable a.elements :=
  agree_iff a.elements 0 (standsAt_memory a)

/-- An element that carries an error, by the type name of the Go library. -/
def SdkRunResult.ofErrorType (name : String) : SdkRunResult :=
  { SdkRunResult.null with clientErrorType := some name.toUTF8 }

theorem carried_ofErrorType (name : String) :
    (SdkRunResult.ofErrorType name).carried =
      (errorClass name).map fun cls => .raised cls "None" := by
  unfold SdkRunResult.carried SdkRunResult.ofErrorType
  rw [carriedError_toUTF8]
  rfl

theorem decodes_ofErrorType (name : String) :
    (SdkRunResult.ofErrorType name).fields.all decodes = true := by
  simp only [SdkRunResult.ofErrorType, SdkRunResult.null, SdkRunResult.fields, List.all_cons,
    List.all_nil, decodes_toUTF8, Bool.and_true]
  rfl

theorem blank_ofErrorType {name : String} (hempty : name.toUTF8.isEmpty = false) :
    (SdkRunResult.ofErrorType name).blank = false := by
  have hdecode : String.fromUTF8? name.toUTF8 = some name := dif_pos name.isValidUTF8
  simp only [SdkRunResult.blank, SdkRunResult.ofErrorType, SdkRunResult.null, SdkRunResult.fields,
    List.all_cons, decoded, Option.bind_some, hempty, hdecode, Bool.false_eq_true, if_false,
    Option.isNone_some, Bool.false_and, Bool.and_false]

/-- One element, which says that nothing was found. -/
def notFoundArray : ResultsArray where
  elements := [.ofErrorType "*models.NotFoundError"]
  beyond _ := .null

/-- A `NotFoundError` is raised instead of ending the results. -/
theorem notFoundError_raised :
    ¬ ∀ nexts, iterateResults notFoundArray.memory nexts 0 =
      traversal notFoundArray.elements nexts 0 := by
  rw [agree_iff notFoundArray.elements 0 (standsAt_memory notFoundArray)]
  rintro ⟨-, -, hfound⟩
  rw [carried_ofErrorType] at hfound
  have hinstance : (PyExc.raised notFoundError "None").isInstance notFoundError = false := hfound
  exact absurd hinstance (by decide)

end NexusSdk.Client
