import NexusSdk.Algorithms.RemotePayload
import NexusSdk.Lib.Run

/-! `RemoteAlgorithm.run`, invoked any number of times against one scheduler.  An invocation moves
from one `await` to the next; what the awaited call answers is part of the schedule, within what the
scheduler can answer.  A call of the client is one step, and every run that was created is listed
from then on. -/

namespace NexusSdk.Algorithms

open Lib Input

/-- A keyword argument; text is told apart from other objects. -/
inductive ArgValue (V : Type)
  | text (s : String)
  | object (v : V)

abbrev RunArgs (V : Type) := Dict String (ArgValue V)

structure SdkParentRequest where
  algorithmName : String
  requestId : String
  deriving DecidableEq

/-- A subclass of `RemoteAlgorithm`: the fields that `run` reads, and the hooks. -/
structure RemoteAlgorithm (F C V α R : Type) where
  remoteName : String
  isHardDependency : Bool
  forceRun : Bool
  remoteConfig : Option C
  compressor : Option Compressor
  compressPayload : Bool
  /-- `_configuration.algorithm_name` -/
  algorithmName : String
  /-- `_configuration.remote_algorithm.dry_run` -/
  dryRun : Bool
  /-- `DictJsonSerializationFormat().deserialize` -/
  deserialize : ByteArray → Except PyExc (Json F)
  toJson : α → String
  /-- `_run` -/
  coreRun : RunArgs V → Except PyExc (List α)
  generateTag : RunArgs V → Except PyExc String
  generateTagFromRemotePayload : α → RunArgs V → Except PyExc (Option String)
  generateRemoteConfigFromRemotePayload : α → RunArgs V → Except PyExc (Option C)
  transformSubmissionResult : List String → String → Except PyExc R

/-! ### The scheduler -/

/-- The arguments of `create_run`. -/
structure RunRequest (F C : Type) where
  algorithmParameters : Json F
  algorithmName : String
  customConfiguration : Option C
  parentRequest : Option SdkParentRequest
  tag : String
  dryRun : Bool

/-- A run of the scheduler.  `origin` is the invocation that created it, and the index of the
payload; it is `none` for the runs of others. -/
structure RemoteRun (ι F C : Type) extends RunRequest F C where
  id : String
  receivedAt : Option String
  origin : Option (ι × Nat)

/-- The run is one of the algorithm under the tag. -/
def RemoteRun.Under {ι F C : Type} (name tag : String) (run : RemoteRun ι F C) : Prop :=
  run.algorithmName = name ∧ run.tag = tag

instance {ι F C : Type} (name tag : String) (run : RemoteRun ι F C) :
    Decidable (run.Under name tag) :=
  inferInstanceAs (Decidable (_ ∧ _))

/-- The runs created so far; their ids are unique. -/
structure Scheduler (ι F C : Type) where
  runs : List (RemoteRun ι F C)
  nodup : (runs.map RemoteRun.id).Nodup

namespace Scheduler

variable {ι F C : Type}

/-- The runs that `get_run_results` lists. -/
def under (s : Scheduler ι F C) (name tag : String) : List (RemoteRun ι F C) :=
  s.runs.filter fun run => run.Under name tag

def find? (s : Scheduler ι F C) (id : String) : Option (RemoteRun ι F C) :=
  s.runs.find? fun run => run.id = id

/-- The scheduler with one more run; an id that is taken is not given again. -/
def create (s : Scheduler ι F C) (run : RemoteRun ι F C) : Option (Scheduler ι F C) :=
  if h : run.id ∈ s.runs.map RemoteRun.id then none
  else some ⟨s.runs ++ [run], by
    rw [List.map_append, List.map_singleton]
    exact List.nodup_append.mpr ⟨s.nodup, List.nodup_singleton _, fun a ha b hb hab =>
      h (List.mem_singleton.mp hb ▸ hab ▸ ha)⟩⟩

end Scheduler

/-! ### The control flow between two awaits -/

section Control

variable {ι F C V α R : Type}

/-- The loop over the payloads: its position, and the ids of the payloads before. -/
structure Submitting (V α : Type) where
  args : RunArgs V
  commonTag : String
  requestIds : List String
  payload : α
  tag : String
  rest : List α

/-- What an invocation of `run` awaits.  `submission` has the arguments of
`_transform_submission_result`, once it was called. -/
inductive Phase (ι F C V α R : Type)
  | resolving (kwargs : RunArgs V)
  | running (args : RunArgs V)
  | lookingUp (l : Submitting V α) (parameters : Json F)
  | describing (l : Submitting V α) (parameters : Json F)
      (described : List (Option (RemoteRun ι F C))) (requestId : String) (remaining : List String)
  | creating (l : Submitting V α) (request : RunRequest F C)
  | done (submission : Option (List String × String)) (result : Except PyExc R)

def Phase.failed (e : PyExc) : Phase ι F C V α R := .done none (.error e)

/-- A call with `**args` and the keywords `names`. -/
def passArgs (names : List String) (args : RunArgs V) : Except PyExc Unit :=
  match names.find? args.contains with
  | some name => .error (.raised typeError s!"got multiple values for keyword argument '{name}'")
  | none => .ok ()

/-- The arguments of `_measured_run`; its decorator takes three more. -/
def measuredArgs (kwargs results : RunArgs V) : Except PyExc (RunArgs V) := do
  passArgs (results.items.map Prod.fst) kwargs
  let args := kwargs.merge results
  passArgs ["metric_tags", "metrics_provider", "logger"] args
  return args

/-- `run_args["request_id"]`, as the text that the parent request encodes. -/
def parentRequestId (args : RunArgs V) : Except PyExc String :=
  match args.get? "request_id" with
  | some (.text s) => .ok s
  | some (.object _) => .error (.raised typeError "encoding without a string argument")
  | none => .error (.raised keyError "request_id")

/-- `sorted(run_metadata, key=lambda x: x.received_at)`, and its last element. -/
def latest (described : List (Option (RemoteRun ι F C))) :
    Except PyExc (Option (RemoteRun ι F C)) :=
  match described.mapM id with
  | none => .error (.raised attributeError "'NoneType' object has no attribute 'received_at'")
  | some [run] => .ok (some run)
  | some runs =>
    match runs.mapM fun run => run.receivedAt.map fun receivedAt => (receivedAt, run) with
    | none => .error (.raised typeError "'<' not supported between instances of 'NoneType'")
    | some keyed => .ok ((keyed.insertionSort fun a b => a.1 ≤ b.1).getLast?.map Prod.snd)

def afterResolve (kwargs results : RunArgs V) : Phase ι F C V α R :=
  match measuredArgs kwargs results with
  | .error e => .failed e
  | .ok args => .running args

namespace RemoteAlgorithm

variable (alg : RemoteAlgorithm F C V α R)

/-- The tag of a payload: its own, or the common tag if it has none or an empty one. -/
def payloadTag (args : RunArgs V) (commonTag : String) (payload : α) : Except PyExc String := do
  passArgs ["payload"] args
  let tag ← alg.generateTagFromRemotePayload payload args
  return match tag with
    | some tag => if tag.isEmpty then commonTag else tag
    | none => commonTag

/-- `_create_remote_run` up to its first await. -/
def prepare (args : RunArgs V) (commonTag : String) (payload : α) :
    Except PyExc (String × Json F) := do
  let tag ← alg.payloadTag args commonTag payload
  passArgs ["payload", "tag"] args
  let parameters ←
    algorithmParameters alg.deserialize alg.compressor alg.compressPayload (alg.toJson payload)
  return (tag, parameters)

def parentRequest (args : RunArgs V) : Except PyExc (Option SdkParentRequest) :=
  if alg.isHardDependency then
    (parentRequestId args).map fun requestId => some ⟨alg.algorithmName, requestId⟩
  else .ok none

/-- The request of a new run. -/
def request (l : Submitting V α) (parameters : Json F) : Except PyExc (RunRequest F C) := do
  let config ← alg.generateRemoteConfigFromRemotePayload l.payload l.args
  let parentRequest ← alg.parentRequest l.args
  return {
    algorithmParameters := parameters
    algorithmName := alg.remoteName
    customConfiguration := config.or alg.remoteConfig
    parentRequest
    tag := l.tag
    dryRun := alg.dryRun }

def create (l : Submitting V α) (parameters : Json F) : Phase ι F C V α R :=
  match alg.request l parameters with
  | .error e => .failed e
  | .ok request => .creating l request

/-- The rest of the loop, and the end of the invocation. -/
def submit (args : RunArgs V) (commonTag : String) (requestIds : List String) :
    List α → Phase ι F C V α R
  | [] => .done (some (requestIds, commonTag)) (alg.transformSubmissionResult requestIds commonTag)
  | payload :: rest =>
    match alg.prepare args commonTag payload with
    | .error e => .failed e
    | .ok (tag, parameters) =>
      let l : Submitting V α := ⟨args, commonTag, requestIds, payload, tag, rest⟩
      if alg.forceRun then alg.create l parameters else .lookingUp l parameters

/-- The payload is submitted as `requestId`. -/
def next (l : Submitting V α) (requestId : String) : Phase ι F C V α R :=
  alg.submit l.args l.commonTag (l.requestIds ++ [requestId]) l.rest

/-- The metadata of the `remaining` runs is fetched; then the latest run is reused. -/
def describe (l : Submitting V α) (parameters : Json F)
    (described : List (Option (RemoteRun ι F C))) : List String → Phase ι F C V α R
  | requestId :: remaining => .describing l parameters described requestId remaining
  | [] =>
    match latest described with
    | .error e => .failed e
    | .ok (some run) => alg.next l run.id
    | .ok none => alg.create l parameters

/-- The payloads are known, and then the common tag. -/
def afterRun (args : RunArgs V) : Phase ι F C V α R :=
  match alg.coreRun args with
  | .error e => .failed e
  | .ok payloads =>
    match alg.generateTag args with
    | .error e => .failed e
    | .ok commonTag => alg.submit args commonTag [] payloads

end RemoteAlgorithm

end Control

/-! ### Steps -/

/-- How an awaited call ends. -/
inductive Answer (V : Type)
  /-- `InputCache.resolve` returns the results -/
  | resolves (results : RunArgs V)
  /-- `_run` ends -/
  | ends
  /-- `get_run_results` lists the ids, in some order -/
  | lists (ids : List String)
  /-- `get_request_metadata` returns the metadata of the run -/
  | describes
  /-- `get_request_metadata` returns `None` -/
  | unknown
  /-- `create_run` returns the id of the new run -/
  | creates (id : String) (receivedAt : Option String)
  /-- `create_run` raises, but the run was created -/
  | createsAndRaises (id : String) (receivedAt : Option String) (e : PyExc)
  /-- any of these calls raises -/
  | raises (e : PyExc)

section Steps

variable {ι F C V α R : Type}

/-- The invocation `i` gets an answer; `none` if its call cannot have this one. -/
def RemoteAlgorithm.resume (alg : RemoteAlgorithm F C V α R) (i : ι) (scheduler : Scheduler ι F C) :
    Phase ι F C V α R → Answer V → Option (Scheduler ι F C × Phase ι F C V α R)
  | .resolving kwargs, .resolves results => some (scheduler, afterResolve kwargs results)
  | .running args, .ends => some (scheduler, alg.afterRun args)
  | .lookingUp l parameters, .lists ids =>
    if ids.Perm ((scheduler.under alg.remoteName l.tag).map RemoteRun.id) then
      some (scheduler, alg.describe l parameters [] ids)
    else none
  | .describing l parameters described requestId remaining, .describes =>
    (scheduler.find? requestId).map fun run =>
      (scheduler, alg.describe l parameters (described ++ [some run]) remaining)
  | .describing l parameters described _ remaining, .unknown =>
    some (scheduler, alg.describe l parameters (described ++ [none]) remaining)
  | .creating l request, .creates id receivedAt =>
    (scheduler.create ⟨request, id, receivedAt, some (i, l.requestIds.length)⟩).map fun scheduler =>
      (scheduler, alg.next l id)
  | .creating l request, .createsAndRaises id receivedAt e =>
    (scheduler.create ⟨request, id, receivedAt, some (i, l.requestIds.length)⟩).map fun scheduler =>
      (scheduler, .failed e)
  | .done _ _, _ => none
  | _, .raises e => some (scheduler, .failed e)
  | _, _ => none

/-- The scheduler and the invocations. -/
structure Submissions (ι F C V α R : Type) where
  scheduler : Scheduler ι F C
  phases : ι → Phase ι F C V α R

variable [DecidableEq ι]

/-- A move names the invocation and its answer; one that is not possible changes nothing. -/
def Submissions.step (algs : ι → RemoteAlgorithm F C V α R) (s : Submissions ι F C V α R)
    (move : ι × Answer V) : Submissions ι F C V α R :=
  match (algs move.1).resume move.1 s.scheduler (s.phases move.1) move.2 with
  | none => s
  | some (scheduler, phase) => ⟨scheduler, Function.update s.phases move.1 phase⟩

end Steps

end NexusSdk.Algorithms
