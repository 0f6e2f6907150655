import NexusSdk.Algorithms.Submission
import NexusSdk.Client.MetadataQueries

/-! `_create_remote_run` with its lookup of existing runs, against all that the Go library can
answer to the query for the runs under the tag and to those for their metadata. -/

namespace NexusSdk.Algorithms

open Lib Input Client

/-! ### The latest run -/

/-- `sorted(described, key=lambda x: x.received_at)`, and its last element. -/
def lastReceived {A : Type} (receivedAt : A → Option String) (described : List (Option A)) :
    Except PyExc (Option A) :=
  match described.mapM id with
  | none => .error (.raised attributeError "'NoneType' object has no attribute 'received_at'")
  | some [a] => .ok (some a)
  | some as =>
    match as.mapM fun a => (receivedAt a).map fun t => (t, a) with
    | none => .error (.raised typeError "'<' not supported between instances of 'NoneType'")
    | some keyed => .ok ((keyed.insertionSort fun a b => a.1 ≤ b.1).getLast?.map Prod.snd)

theorem latest_eq {ι F C : Type} :
    latest = lastReceived (RemoteRun.receivedAt : RemoteRun ι F C → Option String) := by
  funext described
  unfold latest lastReceived
  rcases described.mapM id with _ | _ | ⟨run, _ | ⟨run', runs⟩⟩
  · rfl
  · rfl
  · rfl
  · dsimp only
    generalize List.mapM (m := Option) _ (run :: run' :: runs) = keyed
    cases keyed <;> rfl

section LastReceived

variable {A : Type} {receivedAt : A → Option String}

theorem exists_of_mapM {B : Type} {f : A → Option B} {l : List A} {l' : List B}
    (h : l.mapM f = some l') : ∀ a ∈ l, ∃ b ∈ l', f a = some b := by
  induction l generalizing l' with
  | nil => simp
  | cons a l ih =>
    rw [List.mapM_cons] at h
    obtain ⟨b, hb, h⟩ := Option.bind_eq_some_iff.mp h
    obtain ⟨rest, hrest, h⟩ := Option.bind_eq_some_iff.mp h
    cases h
    intro a' ha'
    rcases List.mem_cons.mp ha' with rfl | ha'
    · exact ⟨b, List.mem_cons_self, hb⟩
    · obtain ⟨b', hb', hf⟩ := ih hrest a' ha'
      exact ⟨b', List.mem_cons_of_mem b hb', hf⟩

theorem mapM_id_map_some (l : List A) : (l.map some).mapM id = some l := by
  induction l with
  | nil => rfl
  | cons a l ih =>
    rw [List.map_cons, List.mapM_cons, ih]
    rfl

variable (receivedAt) in
theorem lastReceived_of_none {described : List (Option A)} (h : none ∈ described) :
    ∃ e, lastReceived receivedAt described = .error e := by
  have hnone : described.mapM id = none := by
    refine Option.eq_none_iff_forall_ne_some.mpr fun as has => ?_
    obtain ⟨a, -, ha⟩ := exists_of_mapM has none h
    cases ha
  unfold lastReceived
  rw [hnone]
  exact ⟨_, rfl⟩

theorem lastReceived_of_untimed {as : List A} (hlength : 1 < as.length)
    (h : ∃ a ∈ as, receivedAt a = none) :
    ∃ e, lastReceived receivedAt (as.map some) = .error e := by
  have hnone : (as.mapM fun a => (receivedAt a).map fun t => (t, a)) = none := by
    refine Option.eq_none_iff_forall_ne_some.mpr fun keyed hkeyed => ?_
    obtain ⟨a, ha, huntimed⟩ := h
    obtain ⟨b, -, hb⟩ := exists_of_mapM hkeyed a ha
    rw [huntimed] at hb
    cases hb
  unfold lastReceived
  rw [mapM_id_map_some]
  split
  · next heq => cases heq
  · next heq =>
    obtain rfl := Option.some.inj heq
    simp at hlength
  · next heq =>
    obtain rfl := Option.some.inj heq
    rw [hnone]
    exact ⟨_, rfl⟩

/-- `a` has no time, or one that is not after the time of `b`. -/
def NotAfter (receivedAt : A → Option String) (a b : A) : Prop :=
  ∀ t ∈ receivedAt a, ∃ t' ∈ receivedAt b, t ≤ t'

/-- The last of a sorted list is after none of it. -/
theorem le_getLast_insertionSort {B : Type} {le : B → B → Prop} [DecidableRel le] [Std.Total le]
    [IsTrans B le] {l : List B} {b : B} (h : (l.insertionSort le).getLast? = some b) (a : B)
    (ha : a ∈ l) : le a b := by
  have hsorted := List.pairwise_insertionSort le l
  have hmem : a ∈ l.insertionSort le := (List.perm_insertionSort le l).mem_iff.mpr ha
  obtain ⟨init, hinit⟩ := List.getLast?_eq_some_iff.mp h
  rw [hinit] at hsorted hmem
  rcases List.mem_append.mp hmem with hmem | hmem
  · exact (List.pairwise_append.mp hsorted).2.2 a hmem b (List.mem_singleton_self b)
  · obtain rfl := List.mem_singleton.mp hmem
    exact (Std.Total.total a a).elim id id

/-- A single run, or runs that all have a time, are sorted; the last one is after none of them. -/
theorem lastReceived_ok {as : List A} (hne : as ≠ [])
    (h : as.length ≤ 1 ∨ ∀ a ∈ as, receivedAt a ≠ none) :
    ∃ a ∈ as, lastReceived receivedAt (as.map some) = .ok (some a) ∧
      ∀ b ∈ as, NotAfter receivedAt b a := by
  unfold lastReceived
  rw [mapM_id_map_some]
  split
  · next heq => cases heq
  · next a heq =>
    obtain rfl := Option.some.inj heq
    refine ⟨a, List.mem_singleton_self a, rfl, fun b hb t ht => ?_⟩
    obtain rfl := List.mem_singleton.mp hb
    exact ⟨t, ht, String.le_refl t⟩
  · next as' hsingle heq =>
    obtain rfl := Option.some.inj heq
    have htimed : ∀ a ∈ as, receivedAt a ≠ none := by
      refine h.resolve_left fun hlength => ?_
      obtain ⟨a, rfl⟩ := List.length_eq_one_iff.mp
        (Nat.le_antisymm hlength (List.length_pos_iff.mpr hne))
      exact hsingle a rfl
    obtain ⟨keyed, hkeyed⟩ := exists_mapM (f := fun a => (receivedAt a).map fun t => (t, a))
      (l := as) fun a ha => by
        obtain ⟨t, ht⟩ := Option.ne_none_iff_exists'.mp (htimed a ha)
        exact ⟨(t, a), by rw [ht]; rfl⟩
    obtain ⟨hlength, hmem⟩ := mapM_spec hkeyed
    have htotal : Std.Total fun a b : String × A => a.1 ≤ b.1 :=
      ⟨fun a b => String.le_total a.1 b.1⟩
    have htrans : IsTrans (String × A) fun a b => a.1 ≤ b.1 := ⟨fun _ _ _ => String.le_trans⟩
    simp only [hkeyed]
    cases hlast : (keyed.insertionSort fun a b => a.1 ≤ b.1).getLast? with
    | none =>
      have hsame := List.length_insertionSort (fun a b : String × A => a.1 ≤ b.1) keyed
      rw [List.getLast?_eq_none_iff.mp hlast, List.length_nil, hlength] at hsame
      exact absurd (List.length_eq_zero_iff.mp hsame.symm) hne
    | some last =>
      obtain ⟨a, ha, heq⟩ := hmem last
        ((List.perm_insertionSort _ _).mem_iff.mp (List.mem_of_getLast? hlast))
      obtain ⟨t, ht, rfl⟩ := Option.map_eq_some_iff.mp heq
      refine ⟨a, ha, rfl, fun b hb t' ht' => ⟨t, ht, ?_⟩⟩
      obtain ⟨keyedB, hkeyedB, heqB⟩ := exists_of_mapM hkeyed b hb
      rw [Option.mem_def.mp ht'] at heqB
      obtain rfl := Option.some.inj heqB
      exact le_getLast_insertionSort hlast _ hkeyedB

end LastReceived

/-! ### `_create_remote_run` -/

/-- What the Go library answers: the array of `get_run_results`, and to attempt `n` of the metadata
query for element `i` of the array. -/
structure LookupAnswers where
  results : Option ResultsArray
  metadata : Nat → Nat → Option SdkRequestMetadata

/-- What a lookup can be seen to do, apart from its queries. -/
inductive LookupEvent (F C : Type)
  /-- a call of `_generate_remote_config_from_remote_payload` -/
  | generateRemoteConfig
  /-- a call of the client's `create_run` -/
  | createRun (request : RunRequest F C)

section Lookup

variable {F C V α R : Type}

/-- The metadata query for an element that was listed. -/
def describeRun (metadata : Nat → Option SdkRequestMetadata) (algorithm : String)
    (result : RunResult) : Except PyExc (Option RequestMetadata) :=
  match result.requestId with
  | none => .error (.raised typeError "encoding without a string argument")
  | some requestId =>
    (NexusSchedulerAsyncClient.getRequestMetadata metadata requestId algorithm).outcome

/-- The metadata of the runs that the generator of `get_run_results` yields, from element `i` on. -/
def runMetadata (metadata : Nat → Nat → Option SdkRequestMetadata) (algorithm : String) (i : Nat) :
    List SdkRunResult → Except PyExc (List (Option RequestMetadata))
  | [] => .ok []
  | result :: rest =>
    match turn result with
    | .breaks => .ok []
    | .raises e => .error e
    | .yields r =>
      match describeRun (metadata i) algorithm r with
      | .error e => .error e
      | .ok described => (runMetadata metadata algorithm (i + 1) rest).map (described :: ·)

def unmappedSdkError : PyExc := .raised runtimeError ("Unmapped SDK error: Go client failed to " ++
  "return coherent result. This is a bug and must be reported to the maintainer team.")

/-- The runs that are found; their array ends with a terminator. -/
def runsOf (algorithm : String) (answers : LookupAnswers) :
    Except PyExc (List (Option RequestMetadata)) :=
  match answers.results with
  | none => .error unmappedSdkError
  | some results => runMetadata answers.metadata algorithm 0 (results.elements ++ [.null])

namespace RemoteAlgorithm

variable (alg : RemoteAlgorithm F C V α R) (l : Submitting V α)

/-- The end of `_create_remote_run`; `createRun` is how the client's `create_run` ends. -/
def createNewRun (parameters : Json F) (createRun : RunRequest F C → Except PyExc (Option String)) :
    Traced (LookupEvent F C) PyExc (Option String) := do
  .emit .generateRemoteConfig
  let request ← .of (alg.request l parameters)
  .emit (.createRun request)
  .of (createRun request)

def createRemoteRun (answers : LookupAnswers)
    (createRun : RunRequest F C → Except PyExc (Option String)) :
    Traced (LookupEvent F C) PyExc (Option String) := do
  let parameters ← .of
    (algorithmParameters alg.deserialize alg.compressor alg.compressPayload (alg.toJson l.payload))
  if !alg.forceRun then
    let described ← .of (runsOf alg.remoteName answers)
    match ← .of (lastReceived RequestMetadata.receivedAt described) with
    | some run => return run.id
    | none => pure ()
  alg.createNewRun l parameters createRun

end RemoteAlgorithm

/-! ### A lookup that tolerates absence -/

/-- The runs that exist, if what was not found is left out. -/
def existingRuns (metadata : Nat → Nat → Option SdkRequestMetadata) (algorithm : String) (i : Nat) :
    List SdkRunResult → Except PyExc (List RequestMetadata)
  | [] => .ok []
  | result :: rest =>
    match turn result with
    | .breaks => .ok []
    | .raises e => if e.isInstance notFoundError then .ok [] else .error e
    | .yields r =>
      match describeRun (metadata i) algorithm r with
      | .error e =>
        if e.isInstance notFoundError then existingRuns metadata algorithm (i + 1) rest
        else .error e
      | .ok none => existingRuns metadata algorithm (i + 1) rest
      | .ok (some run) => (existingRuns metadata algorithm (i + 1) rest).map (run :: ·)

def existingRunsOf (algorithm : String) (answers : LookupAnswers) :
    Except PyExc (List RequestMetadata) :=
  match answers.results with
  | none => .error unmappedSdkError
  | some results => existingRuns answers.metadata algorithm 0 (results.elements ++ [.null])

variable (alg : RemoteAlgorithm F C V α R) (l : Submitting V α)

/-- Exactly one run is created, and its id is returned, unless its arguments or the creation
raise. -/
def CreatesOne (parameters : Json F) (createRun : RunRequest F C → Except PyExc (Option String))
    (x : Traced (LookupEvent F C) PyExc (Option String)) : Prop :=
  match alg.request l parameters with
  | .error e => x = ⟨[.generateRemoteConfig], .error e⟩
  | .ok request => x = ⟨[.generateRemoteConfig, .createRun request], createRun request⟩

/-- One of the runs is reused, and none of them was received after it. -/
def ReusesLast (runs : List RequestMetadata) (x : Traced (LookupEvent F C) PyExc (Option String)) :
    Prop :=
  x.events = [] ∧ ∃ run ∈ runs, x.outcome = .ok run.id ∧
    ∀ other ∈ runs, NotAfter RequestMetadata.receivedAt other run

/-- The lookup found `existing`, or its error: `x` raises the error, creates a run if there is none,
and reuses one otherwise. -/
def FollowsLookup (parameters : Json F) (createRun : RunRequest F C → Except PyExc (Option String))
    (x : Traced (LookupEvent F C) PyExc (Option String)) :
    Except PyExc (List RequestMetadata) → Prop
  | .error e => x = ⟨[], .error e⟩
  | .ok [] => CreatesOne alg l parameters createRun x
  | .ok existing => ReusesLast existing x

/-- What is wanted of `_create_remote_run`, once it has the parameters of the run. -/
def LooksUpFirst (answers : LookupAnswers)
    (createRun : RunRequest F C → Except PyExc (Option String))
    (x : Traced (LookupEvent F C) PyExc (Option String)) : Prop :=
  ∀ parameters, algorithmParameters alg.deserialize alg.compressor alg.compressPayload
      (alg.toJson l.payload) = .ok parameters →
    FollowsLookup alg l parameters createRun x (existingRunsOf alg.remoteName answers)

/-! ### What the answers say -/

/-- What the scheduler says about element `i`; `none` if the array ends there. -/
def elementSaid (metadata : Nat → Option SdkRequestMetadata) (result : SdkRunResult) :
    Option Said :=
  if result.fields.all decodes then
    if result.blank then none
    else match result.carried with
      | some e => some (if e.isInstance notFoundError then .notFound else .fails)
      | none => some (if (decoded result.requestId).isNone then .fails else saidOf metadata)
  else some .fails

/-- What is said up to the first failure or the first thing that is not found. -/
def allSaid (metadata : Nat → Nat → Option SdkRequestMetadata) (i : Nat) :
    List SdkRunResult → List Said
  | [] => []
  | result :: rest =>
    match elementSaid (metadata i) result with
    | none => []
    | some .fails => [.fails]
    | some .notFound => [.notFound]
    | some said => said :: allSaid metadata (i + 1) rest

def LookupAnswers.said (answers : LookupAnswers) : List Said :=
  match answers.results with
  | none => [.fails]
  | some results => allSaid answers.metadata 0 (results.elements ++ [.null])

/-- Nothing is reported as not found, and unless something else fails, every run has metadata, and
several runs all have the time at which they were received. -/
def AllFound (said : List Said) : Prop :=
  .notFound ∉ said ∧
    (.fails ∈ said ∨ .missing ∉ said ∧ (said.length ≤ 1 ∨ .record none ∉ said))

/-! ### From what is said to what is found -/

section Finding

variable {metadata : Nat → Nat → Option SdkRequestMetadata} {algorithm : String}

theorem describes_describeRun (metadata : Nat → Option SdkRequestMetadata) (algorithm : String)
    (result : RunResult) :
    (if result.requestId.isNone then Said.fails else saidOf metadata).Describes
      (describeRun metadata algorithm result) := by
  unfold describeRun
  cases result.requestId with
  | none => exact ⟨_, rfl, by decide⟩
  | some requestId => exact describes_saidOf metadata requestId algorithm

/-- What element `i`, which says this, adds to the runs that are found and to those that exist. -/
def Contributes (metadata : Nat → Nat → Option SdkRequestMetadata) (algorithm : String) (i : Nat)
    (result : SdkRunResult) (rest : List SdkRunResult) : Option Said → Prop
  | none =>
    runMetadata metadata algorithm i (result :: rest) = .ok [] ∧
      existingRuns metadata algorithm i (result :: rest) = .ok []
  | some .fails => ∃ e,
    runMetadata metadata algorithm i (result :: rest) = .error e ∧
      existingRuns metadata algorithm i (result :: rest) = .error e
  | some .notFound => ∃ e, e.isInstance notFoundError = true ∧
    runMetadata metadata algorithm i (result :: rest) = .error e
  | some .missing =>
    runMetadata metadata algorithm i (result :: rest) =
        (runMetadata metadata algorithm (i + 1) rest).map (none :: ·) ∧
      existingRuns metadata algorithm i (result :: rest) =
        existingRuns metadata algorithm (i + 1) rest
  | some (.record receivedAt) => ∃ run : RequestMetadata, run.receivedAt = receivedAt ∧
    runMetadata metadata algorithm i (result :: rest) =
        (runMetadata metadata algorithm (i + 1) rest).map (some run :: ·) ∧
      existingRuns metadata algorithm i (result :: rest) =
        (existingRuns metadata algorithm (i + 1) rest).map (run :: ·)

theorem contributes_of_yields {i : Nat} {result : SdkRunResult} {rest : List SdkRunResult}
    {r : RunResult} (hturn : turn result = .yields r) {said : Said}
    (h : said.Describes (describeRun (metadata i) algorithm r)) :
    Contributes metadata algorithm i result rest (some said) := by
  cases said with
  | record receivedAt =>
    obtain ⟨run, hrun, hreceivedAt⟩ := h
    refine ⟨run, hreceivedAt, ?_, ?_⟩
    · simp only [runMetadata, hturn, hrun]
    · simp only [existingRuns, hturn, hrun]
  | missing =>
    have hnone : describeRun (metadata i) algorithm r = .ok none := h
    refine ⟨?_, ?_⟩
    · simp only [runMetadata, hturn, hnone]
    · simp only [existingRuns, hturn, hnone]
  | notFound =>
    obtain ⟨e, he, hfound⟩ := h
    refine ⟨e, hfound, ?_⟩
    simp only [runMetadata, hturn, he]
  | fails =>
    obtain ⟨e, he, hfound⟩ := h
    refine ⟨e, ?_, ?_⟩
    · simp only [runMetadata, hturn, he]
    · simp only [existingRuns, hturn, he, hfound, Bool.false_eq_true, if_false]

variable (metadata algorithm) in
theorem contributes_elementSaid (i : Nat) (result : SdkRunResult) (rest : List SdkRunResult) :
    Contributes metadata algorithm i result rest (elementSaid (metadata i) result) := by
  have hturn := turn_eq result
  unfold elementSaid
  cases hdecodes : result.fields.all decodes with
  | false =>
    rw [hdecodes] at hturn
    have hclass : invalidUtf8.isInstance notFoundError = false := by decide
    simp only [Bool.false_eq_true, if_false] at hturn ⊢
    refine ⟨invalidUtf8, ?_, ?_⟩
    · simp only [runMetadata, hturn]
    · simp only [existingRuns, hturn, hclass, Bool.false_eq_true, if_false]
  | true =>
  cases hblank : result.blank with
  | true =>
    simp only [hdecodes, hblank, if_true] at hturn ⊢
    refine ⟨?_, ?_⟩
    · simp only [runMetadata, hturn]
    · simp only [existingRuns, hturn]
  | false =>
  simp only [hdecodes, hblank, if_true, Bool.false_eq_true, if_false] at hturn ⊢
  cases hcarried : result.carried with
  | none =>
    rw [hcarried] at hturn
    exact contributes_of_yields hturn
      (describes_describeRun (metadata i) algorithm result.decodedResult)
  | some e =>
    rw [hcarried] at hturn
    show Contributes metadata algorithm i result rest
      (some (if e.isInstance notFoundError then .notFound else .fails))
    cases hfound : e.isInstance notFoundError with
    | true =>
      refine ⟨e, hfound, ?_⟩
      simp only [runMetadata, hturn]
    | false =>
      refine ⟨e, ?_, ?_⟩
      · simp only [runMetadata, hturn]
      · simp only [existingRuns, hturn, hfound, Bool.false_eq_true, if_false]

theorem existingRuns_error (elements : List SdkRunResult) (i : Nat) {e : PyExc}
    (h : existingRuns metadata algorithm i elements = .error e) :
    e.isInstance notFoundError = false := by
  induction elements generalizing i with
  | nil => cases h
  | cons result rest ih =>
    unfold existingRuns at h
    split at h
    · cases h
    · split at h
      · cases h
      · next hfound =>
        cases h
        exact Bool.eq_false_iff.mpr hfound
    · split at h
      · split at h
        · exact ih (i + 1) h
        · next hfound =>
          cases h
          exact Bool.eq_false_iff.mpr hfound
      · exact ih (i + 1) h
      · cases hrest : existingRuns metadata algorithm (i + 1) rest with
        | ok runs =>
          rw [hrest] at h
          cases h
        | error e' =>
          rw [hrest] at h
          obtain rfl := Except.error.inj h
          exact ih (i + 1) hrest

def saidBy : Option RequestMetadata → Said
  | none => .missing
  | some run => .record run.receivedAt

/-- How what is said determines the runs that are found and those that exist. -/
inductive Finding : List Said → Except PyExc (List (Option RequestMetadata)) →
    Except PyExc (List RequestMetadata) → Prop
  | notFound {said : List Said} {e : PyExc} {existing : Except PyExc (List RequestMetadata)}
      (hsaid : .notFound ∈ said) (hfound : e.isInstance notFoundError = true)
      (hexisting : ∀ e', existing = .error e' → e'.isInstance notFoundError = false) :
    Finding said (.error e) existing
  | fails {said : List Said} (e : PyExc) (hnot : .notFound ∉ said) (hsaid : .fails ∈ said) :
    Finding said (.error e) (.error e)
  | found (described : List (Option RequestMetadata)) :
    Finding (described.map saidBy) (.ok described) (.ok (described.filterMap id))

theorem Finding.cons_missing {said : List Said}
    {found : Except PyExc (List (Option RequestMetadata))}
    {existing : Except PyExc (List RequestMetadata)} (h : Finding said found existing) :
    Finding (.missing :: said) (found.map (none :: ·)) existing := by
  cases h with
  | notFound hsaid hfound hexisting =>
    exact .notFound (List.mem_cons_of_mem _ hsaid) hfound hexisting
  | fails e hnot hsaid => exact .fails e (by simpa using hnot) (List.mem_cons_of_mem _ hsaid)
  | found described => exact .found (none :: described)

theorem Finding.cons_record {said : List Said}
    {found : Except PyExc (List (Option RequestMetadata))}
    {existing : Except PyExc (List RequestMetadata)} (h : Finding said found existing)
    (run : RequestMetadata) :
    Finding (.record run.receivedAt :: said) (found.map (some run :: ·))
      (existing.map (run :: ·)) := by
  cases h with
  | notFound hsaid hfound hexisting =>
    refine .notFound (List.mem_cons_of_mem _ hsaid) hfound fun e' he' => ?_
    cases existing with
    | ok runs => cases he'
    | error e'' => exact hexisting e' (by rw [← he']; rfl)
  | fails e hnot hsaid => exact .fails e (by simpa using hnot) (List.mem_cons_of_mem _ hsaid)
  | found described => exact .found (some run :: described)

theorem finding_allSaid (elements : List SdkRunResult) (i : Nat) :
    Finding (allSaid metadata i elements) (runMetadata metadata algorithm i elements)
      (existingRuns metadata algorithm i elements) := by
  induction elements generalizing i with
  | nil => exact .found []
  | cons result rest ih =>
    have hcontributes := contributes_elementSaid metadata algorithm i result rest
    unfold allSaid
    generalize elementSaid (metadata i) result = said at hcontributes
    cases said with
    | none =>
      rw [hcontributes.1, hcontributes.2]
      exact .found []
    | some said =>
    cases said with
    | record receivedAt =>
      obtain ⟨run, rfl, hfound, hexists⟩ := hcontributes
      rw [hfound, hexists]
      exact (ih (i + 1)).cons_record run
    | missing =>
      rw [hcontributes.1, hcontributes.2]
      exact (ih (i + 1)).cons_missing
    | notFound =>
      obtain ⟨e, hfound, herror⟩ := hcontributes
      rw [herror]
      exact .notFound (List.mem_singleton_self _) hfound fun _ => existingRuns_error _ i
    | fails =>
      obtain ⟨e, herror, hexists⟩ := hcontributes
      rw [herror, hexists]
      exact .fails e (by simp) (List.mem_singleton_self _)

theorem finding_said (algorithm : String) (answers : LookupAnswers) :
    Finding answers.said (runsOf algorithm answers) (existingRunsOf algorithm answers) := by
  unfold LookupAnswers.said runsOf existingRunsOf
  cases answers.results with
  | none => exact .fails _ (by simp) (List.mem_singleton_self _)
  | some results => exact finding_allSaid _ 0

end Finding

/-! ### When the lookup tolerates absence -/

section Agreement

variable {alg : RemoteAlgorithm F C V α R} {l : Submitting V α} {parameters : Json F}
  {createRun : RunRequest F C → Except PyExc (Option String)} {answers : LookupAnswers}

theorem createsOne_createNewRun :
    CreatesOne alg l parameters createRun (alg.createNewRun l parameters createRun) := by
  unfold CreatesOne RemoteAlgorithm.createNewRun
  cases alg.request l parameters <;> rfl

theorem CreatesOne.events_ne_nil {x : Traced (LookupEvent F C) PyExc (Option String)}
    (h : CreatesOne alg l parameters createRun x) : x.events ≠ [] := by
  unfold CreatesOne at h
  cases hrequest : alg.request l parameters with
  | error e =>
    rw [hrequest] at h
    simp [h]
  | ok request =>
    rw [hrequest] at h
    simp [h]

/-- The lookup and what it leads to. -/
def afterLookup (alg : RemoteAlgorithm F C V α R) (l : Submitting V α) (parameters : Json F)
    (createRun : RunRequest F C → Except PyExc (Option String)) :
    Except PyExc (List (Option RequestMetadata)) →
      Traced (LookupEvent F C) PyExc (Option String)
  | .error e => ⟨[], .error e⟩
  | .ok described =>
    match lastReceived RequestMetadata.receivedAt described with
    | .error e => ⟨[], .error e⟩
    | .ok (some run) => ⟨[], .ok run.id⟩
    | .ok none => alg.createNewRun l parameters createRun

theorem createRemoteRun_eq (hforce : alg.forceRun = false)
    (hparameters : algorithmParameters alg.deserialize alg.compressor alg.compressPayload
      (alg.toJson l.payload) = .ok parameters) :
    alg.createRemoteRun l answers createRun =
      afterLookup alg l parameters createRun (runsOf alg.remoteName answers) := by
  unfold RemoteAlgorithm.createRemoteRun afterLookup
  rw [hparameters, hforce]
  cases runsOf alg.remoteName answers with
  | error e => rfl
  | ok described =>
    cases hlast : lastReceived RequestMetadata.receivedAt described with
    | error e =>
      simp only [Traced.of_ok_bind, Bool.not_false, if_true, hlast]
      rfl
    | ok run =>
      simp only [Traced.of_ok_bind, Bool.not_false, if_true, hlast]
      cases run <;> rfl

/-- An error of the lookup is the one that is wanted only if the lookup without absence has it. -/
theorem not_followsLookup_error {e : PyExc} {existing : Except PyExc (List RequestMetadata)}
    (h : existing ≠ .error e) :
    ¬ FollowsLookup alg l parameters createRun ⟨[], .error e⟩ existing := by
  intro hfollows
  cases existing with
  | error e' =>
    obtain rfl : e = e' := Except.error.inj (congrArg Traced.outcome hfollows)
    exact h rfl
  | ok runs =>
    cases runs with
    | nil => exact CreatesOne.events_ne_nil hfollows rfl
    | cons run runs =>
      obtain ⟨-, run', -, hrun', -⟩ := hfollows
      cases hrun'

theorem map_some_of_missing_not_mem {described : List (Option RequestMetadata)}
    (h : .missing ∉ described.map saidBy) : described = (described.filterMap id).map some := by
  induction described with
  | nil => rfl
  | cons o described ih =>
    rw [List.map_cons, List.mem_cons, not_or] at h
    cases o with
    | none => exact absurd rfl h.1
    | some run => exact congrArg (some run :: ·) (ih h.2)

theorem not_mem_map_saidBy (described : List (Option RequestMetadata)) :
    .notFound ∉ described.map saidBy ∧ .fails ∉ described.map saidBy := by
  simp only [List.mem_map, not_exists, not_and]
  constructor <;> rintro (_ | run) - <;> simp [saidBy]

theorem mem_map_saidBy_none {runs : List RequestMetadata} :
    .record none ∈ (runs.map some).map saidBy ↔ ∃ run ∈ runs, run.receivedAt = none := by
  simp [saidBy]

/-- The lookup of runs whose metadata was fetched. -/
theorem followsLookup_found_iff (described : List (Option RequestMetadata)) :
    FollowsLookup alg l parameters createRun
        (afterLookup alg l parameters createRun (.ok described)) (.ok (described.filterMap id)) ↔
      AllFound (described.map saidBy) := by
  obtain ⟨hnotFound, hfails⟩ := not_mem_map_saidBy described
  have hall : AllFound (described.map saidBy) ↔ .missing ∉ described.map saidBy ∧
      ((described.map saidBy).length ≤ 1 ∨ .record none ∉ described.map saidBy) := by
    simp only [AllFound, hnotFound, hfails, not_false_eq_true, true_and, false_or]
  rw [hall]
  have hnever {e : PyExc} (he : lastReceived RequestMetadata.receivedAt described = .error e) :
      ¬ FollowsLookup alg l parameters createRun
        (afterLookup alg l parameters createRun (.ok described))
        (.ok (described.filterMap id)) := by
    simp only [afterLookup, he]
    exact not_followsLookup_error (by simp)
  by_cases hmissing : .missing ∈ described.map saidBy
  · refine iff_of_false ?_ fun h => h.1 hmissing
    obtain ⟨o, ho, hsaid⟩ := List.mem_map.mp hmissing
    cases o with
    | some run => cases hsaid
    | none =>
      obtain ⟨e, he⟩ := lastReceived_of_none RequestMetadata.receivedAt ho
      exact hnever he
  · obtain ⟨runs, rfl⟩ : ∃ runs : List RequestMetadata, described = runs.map some :=
      ⟨_, map_some_of_missing_not_mem hmissing⟩
    have hruns : (runs.map some).filterMap id = runs := by simp
    rw [hruns] at hnever ⊢
    rw [mem_map_saidBy_none, List.length_map, List.length_map]
    by_cases htimed : runs.length ≤ 1 ∨ ¬ ∃ run ∈ runs, run.receivedAt = none
    · refine iff_of_true ?_ ⟨hmissing, htimed⟩
      cases runs with
      | nil => exact createsOne_createNewRun
      | cons run rest =>
        obtain ⟨last, hmem, hlast, hafter⟩ := lastReceived_ok (List.cons_ne_nil run rest)
          (htimed.imp_right fun h a ha hnone => h ⟨a, ha, hnone⟩)
        simp only [afterLookup, hlast]
        exact ⟨rfl, last, hmem, rfl, hafter⟩
    · refine iff_of_false ?_ fun h => htimed h.2
      rw [not_or, not_not, Nat.not_le] at htimed
      obtain ⟨e, he⟩ := lastReceived_of_untimed htimed.1 htimed.2
      exact hnever he

theorem followsLookup_iff {said : List Said} {found : Except PyExc (List (Option RequestMetadata))}
    {existing : Except PyExc (List RequestMetadata)} (h : Finding said found existing) :
    FollowsLookup alg l parameters createRun (afterLookup alg l parameters createRun found)
      existing ↔ AllFound said := by
  cases h with
  | notFound hsaid hfound hexisting =>
    refine iff_of_false (not_followsLookup_error fun herror => ?_) fun hall => hall.1 hsaid
    rw [hexisting _ herror] at hfound
    cases hfound
  | fails e hnot hsaid => exact iff_of_true rfl ⟨hnot, .inl hsaid⟩
  | found described => exact followsLookup_found_iff described

end Agreement

/-- The lookup tolerates absence exactly if the answers to it, for a payload that can be sent, show
none: no error says that something was not found, and unless another one ends the lookup, every run
that is listed has metadata, and several runs all have their times. -/
theorem lookup_tolerates_absence_iff (alg : RemoteAlgorithm F C V α R) (l : Submitting V α)
    (answers : LookupAnswers) (createRun : RunRequest F C → Except PyExc (Option String))
    (hforce : alg.forceRun = false) :
    LooksUpFirst alg l answers createRun (alg.createRemoteRun l answers createRun) ↔
      ((algorithmParameters alg.deserialize alg.compressor alg.compressPayload
        (alg.toJson l.payload)).isOk = true → AllFound answers.said) := by
  unfold LooksUpFirst
  cases hparameters : algorithmParameters alg.deserialize alg.compressor alg.compressPayload
      (alg.toJson l.payload) with
  | error e => simp [Except.isOk, Except.toBool]
  | ok parameters =>
    have hiff : FollowsLookup alg l parameters createRun (alg.createRemoteRun l answers createRun)
        (existingRunsOf alg.remoteName answers) ↔ AllFound answers.said := by
      rw [createRemoteRun_eq hforce hparameters]
      exact followsLookup_iff (finding_said alg.remoteName answers)
    simp [Except.isOk, Except.toBool, hiff]

end Lookup

/-! ### Lookups for a forecast -/

theorem algorithmParameters_forecasts (i : Int) :
    algorithmParameters forecasts.deserialize forecasts.compressor forecasts.compressPayload
      (forecasts.toJson i) = .ok (forecastParameters i) :=
  JsonModule.loads_toUTF8 (utf8Json.loads_dumps (wf_counter i))

/-- An element without an error. -/
def listedRun (requestId : String) : SdkRunResult :=
  { SdkRunResult.null with requestId := some requestId.toUTF8 }

/-- The metadata of a run. -/
def metadataOf (requestId receivedAt : String) : SdkRequestMetadata :=
  ⟨none, some requestId.toUTF8, none, none, none, none, none, none, none, none, none, none, none,
    some receivedAt.toUTF8, none, none, none, none, none, none⟩

/-- Two runs, the first of which was received last. -/
def twoRunsAnswers : LookupAnswers where
  results := some ⟨[listedRun "run-1", listedRun "run-2"], fun _ => .null⟩
  metadata i _ :=
    if i = 0 then some (metadataOf "run-1" "2025-01-02T00:00:00Z")
    else some (metadataOf "run-2" "2025-01-01T00:00:00Z")

theorem decoded_toUTF8 {text : String} (hempty : text.toUTF8.isEmpty = false) :
    decoded (some text.toUTF8) = some text := by
  have hdecode : String.fromUTF8? text.toUTF8 = some text := dif_pos text.isValidUTF8
  rw [decoded, Option.bind_some, hempty, hdecode]
  rfl

theorem elementSaid_listedRun (metadata : Nat → Option SdkRequestMetadata) {requestId : String}
    (hempty : requestId.toUTF8.isEmpty = false) :
    elementSaid metadata (listedRun requestId) = some (saidOf metadata) := by
  have hdecodes : (listedRun requestId).fields.all decodes = true := by
    simp only [listedRun, SdkRunResult.null, SdkRunResult.fields, List.all_cons, List.all_nil,
      decodes_toUTF8, Bool.and_true]
    rfl
  have hblank : (listedRun requestId).blank = false := by
    simp only [SdkRunResult.blank, listedRun, SdkRunResult.null, SdkRunResult.fields,
      List.all_cons, decoded_toUTF8 hempty, Option.isNone_some, Bool.false_and, Bool.and_false]
  have hid : decoded (listedRun requestId).requestId = some requestId := decoded_toUTF8 hempty
  rw [elementSaid, if_pos hdecodes, hblank, hid]
  rfl

theorem saidOf_metadataOf (requestId : String) {receivedAt : String}
    (hempty : receivedAt.toUTF8.isEmpty = false) :
    saidOf (fun _ => some (metadataOf requestId receivedAt)) = .record (some receivedAt) := by
  have hdecodes : (metadataOf requestId receivedAt).fields.all decodes = true := by
    simp only [metadataOf, SdkRequestMetadata.fields, List.all_cons, List.all_nil, decodes_toUTF8,
      Bool.and_true]
    rfl
  have hsaid : said (some (metadataOf requestId receivedAt)) = .record (some receivedAt) := by
    rw [said, if_pos hdecodes]
    exact congrArg Said.record (decoded_toUTF8 hempty)
  have hnetwork : reportsNetworkError (some (metadataOf requestId receivedAt)) = false := by
    rw [reportsNetworkError, hdecodes]
    rfl
  rw [saidOf]
  simp only [hnetwork]
  exact hsaid

theorem said_twoRunsAnswers : twoRunsAnswers.said =
    [.record (some "2025-01-02T00:00:00Z"), .record (some "2025-01-01T00:00:00Z")] := by
  have hsaid (i : Nat) {requestId receivedAt : String}
      (hmetadata : twoRunsAnswers.metadata i = fun _ => some (metadataOf requestId receivedAt))
      (hid : requestId.toUTF8.isEmpty = false) (htime : receivedAt.toUTF8.isEmpty = false) :
      elementSaid (twoRunsAnswers.metadata i) (listedRun requestId) =
        some (.record (some receivedAt)) := by
    rw [elementSaid_listedRun _ hid, hmetadata, saidOf_metadataOf requestId htime]
  have hfirst := hsaid 0 rfl (show "run-1".toUTF8.isEmpty = false by decide) (by decide)
  have hsecond := hsaid 1 rfl (show "run-2".toUTF8.isEmpty = false by decide) (by decide)
  show allSaid twoRunsAnswers.metadata 0 [listedRun "run-1", listedRun "run-2", .null] = _
  rw [allSaid, hfirst, allSaid, hsecond]
  rfl

theorem lookup_tolerates_absence_iff_twoRuns :
    LooksUpFirst forecasts (forecastLoop [] 1 []) twoRunsAnswers (fun _ => .ok (some "run-3"))
      (forecasts.createRemoteRun (forecastLoop [] 1 []) twoRunsAnswers
        fun _ => .ok (some "run-3")) :=
  (lookup_tolerates_absence_iff forecasts (forecastLoop [] 1 []) twoRunsAnswers
    (fun _ => .ok (some "run-3")) rfl).mpr fun _ => by
      rw [said_twoRunsAnswers]
      exact ⟨by decide, .inr ⟨by decide, .inr (by decide)⟩⟩

/-- An array whose only element says that nothing was found. -/
def notFoundAnswers : LookupAnswers := ⟨some notFoundArray, fun _ _ => none⟩

theorem said_notFoundAnswers : notFoundAnswers.said = [.notFound] := by
  have hinstance : (PyExc.raised notFoundError "None").isInstance notFoundError = true := by decide
  have hsaid : elementSaid (fun _ => none) (.ofErrorType "*models.NotFoundError") =
      some .notFound := by
    unfold elementSaid
    rw [decodes_ofErrorType, blank_ofErrorType (by decide), carried_ofErrorType]
    rfl
  show allSaid (fun _ _ => none) 0 [.ofErrorType "*models.NotFoundError", .null] = _
  rw [allSaid, hsaid]

theorem runsOf_notFoundAnswers :
    runsOf "forecast" notFoundAnswers = .error (.raised notFoundError "None") := by
  have hturn : turn (.ofErrorType "*models.NotFoundError") =
      .raises (.raised notFoundError "None") := by
    rw [turn_eq, decodes_ofErrorType, blank_ofErrorType (by decide), carried_ofErrorType]
    rfl
  show runMetadata (fun _ _ => none) "forecast" 0 [.ofErrorType "*models.NotFoundError", .null] = _
  rw [runMetadata, hturn]

/-- The error is raised, and no run is created. -/
theorem notFound_raised_by_lookup :
    forecasts.createRemoteRun (forecastLoop [] 1 []) notFoundAnswers (fun _ => .ok (some "run-1")) =
        ⟨[], .error (.raised notFoundError "None")⟩ ∧
      ¬ LooksUpFirst forecasts (forecastLoop [] 1 []) notFoundAnswers (fun _ => .ok (some "run-1"))
        (forecasts.createRemoteRun (forecastLoop [] 1 []) notFoundAnswers
          fun _ => .ok (some "run-1")) := by
  have heq : forecasts.createRemoteRun (forecastLoop [] 1 []) notFoundAnswers
      (fun _ => .ok (some "run-1")) = _ := createRemoteRun_eq rfl (algorithmParameters_forecasts 1)
  refine ⟨?_, fun h => ?_⟩
  · rw [heq, show runsOf forecasts.remoteName notFoundAnswers = _ from runsOf_notFoundAnswers]
    rfl
  · have hfollows := h _ (algorithmParameters_forecasts 1)
    rw [heq, followsLookup_iff (finding_said _ _), said_notFoundAnswers] at hfollows
    exact hfollows.1 (List.mem_singleton_self _)

end NexusSdk.Algorithms
