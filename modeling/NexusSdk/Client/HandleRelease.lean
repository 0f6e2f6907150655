import NexusSdk.Client.Session

/-! The release of the Go client.  The finalizer of a client passes its handle to `FreeClient`; an
async client calls the finalizer of the sync client that it owns, which is finalized once more when
it becomes unreachable itself. -/

namespace NexusSdk.Client

open Lib

/-- Whether a client is used by itself or owned by an async client. -/
inductive Ownership
  | sync
  | async
  deriving DecidableEq

/-- `__del__` of a sync client. -/
def Session.del (s : Session) : Session := { s with log := s.log ++ [.freed s.client] }

/-- `__del__` of an async client. -/
def Session.asyncDel (s : Session) : Session := s.del

/-- The finalizers that run when a client becomes unreachable. -/
def finalize : Ownership → Session → Session
  | .sync, s => s.del
  | .async, s => s.asyncDel.del

/-- What happens to a client from its construction to its end. -/
def SdkClient.lifetime (c : SdkClient) (ownership : Ownership) (calls : List (ApiCall c.cls)) :
    List SessionEvent :=
  (finalize ownership (run c.step .new calls)).log

/-! ### What releasing a handle once is -/

def SessionEvent.created? : SessionEvent → Option Int
  | created _ _ _ handle => some handle
  | _ => none

def SessionEvent.freed? : SessionEvent → Option (Option Int)
  | freed handle => some handle
  | _ => none

def createdHandles (log : List SessionEvent) : List Int := log.filterMap SessionEvent.created?

/-- The arguments of the calls of `FreeClient`. -/
def freedHandles (log : List SessionEvent) : List (Option Int) :=
  log.filterMap SessionEvent.freed?

structure HandleReleased (log : List SessionEvent) : Prop where
  once : ∀ handle ∈ createdHandles log, (freedHandles log).count (some handle) = 1
  only : ∀ freed ∈ freedHandles log, ∃ handle ∈ createdHandles log, freed = some handle
  unused : ∀ before freed after, log = before ++ .freed freed :: after →
    ∀ e ∈ after, e.freed?.isSome = true

/-- What creating the Go client takes: a token, and texts that can be encoded. -/
def SdkClient.CanCreate (c : SdkClient) (call : ApiCall c.cls) : Prop :=
  ∃ t, c.answer call.first = .ok t ∧ Encodable c.url ∧ Encodable t.value

/-- The call creates the Go client if there is none. -/
def SdkClient.Creates (c : SdkClient) (call : ApiCall c.cls) : Prop :=
  call.method.val.initializes = true ∧ c.CanCreate call

/-! ### The handle of a client -/

/-- The handle that was created is the client's, and it has not been freed. -/
structure Owns (s : Session) : Prop where
  created : createdHandles s.log = s.client.toList
  unfreed : freedHandles s.log = []

variable {c : SdkClient} {s s' : Session} {call : ApiCall c.cls}

theorem Owns.snoc {e : SessionEvent} (h : Owns s) (hcreated : e.created? = none)
    (hfreed : e.freed? = none) (hlog : s'.log = s.log ++ [e]) (hclient : s'.client = s.client) :
    Owns s' := by
  refine ⟨?_, ?_⟩
  · rw [hlog, hclient, ← h.created, createdHandles, List.filterMap_append,
      List.filterMap_cons_none hcreated]
    exact List.append_nil _
  · rw [hlog, freedHandles, List.filterMap_append, List.filterMap_cons_none hfreed]
    exact (List.append_nil _).trans h.unfreed

theorem Owns.keep (h : Owns s) (hlog : s'.log = s.log) (hclient : s'.client = s.client) :
    Owns s' :=
  ⟨by rw [hlog, hclient, h.created], by rw [hlog, h.unfreed]⟩

theorem Owns.create {e : SessionEvent} {handle : Int} (h : Owns s)
    (hcreated : e.created? = some handle) (hnone : s.client = none)
    (hlog : s'.log = s.log ++ [e]) (hclient : s'.client = some handle) : Owns s' := by
  have hfreed : e.freed? = none := by
    cases e <;> first | rfl | cases hcreated
  refine ⟨?_, ?_⟩
  · have hbefore := h.created
    rw [hnone, Option.toList_none, createdHandles] at hbefore
    rw [hlog, hclient, createdHandles, List.filterMap_append, hbefore, List.nil_append,
      List.filterMap_cons_some hcreated]
    rfl
  · rw [hlog, freedHandles, List.filterMap_append, List.filterMap_cons_none hfreed]
    exact (List.append_nil _).trans h.unfreed

/-- The client has come from `s` to `s'`, with a Go client if it had one or `P` holds. -/
structure Tracks (s s' : Session) (P : Prop) : Prop where
  owns : Owns s'
  client : s'.client ≠ none ↔ s.client ≠ none ∨ P

theorem Tracks.failed {P : Prop} (howns : Owns s') (hclient : s'.client = none)
    (hs : s.client = none) (hnot : ¬ P) : Tracks s s' P :=
  ⟨howns, by simp [hclient, hs, hnot]⟩

theorem Tracks.unchanged (howns : Owns s') (hclient : s'.client = s.client) :
    Tracks s s' False :=
  ⟨howns, by rw [hclient, or_false]⟩

theorem ends_createIfMissing_tracks (h : Owns s) :
    Ends (c.createIfMissing call) s (fun _ s' => Tracks s s' (c.CanCreate call))
      (fun _ s' => Tracks s s' (c.CanCreate call)) := by
  unfold SdkClient.createIfMissing
  simp only [ends_bind, ends_get]
  cases hclient : s.client with
  | some handle => exact ⟨h, by simp [hclient]⟩
  | none =>
    simp only [Option.isNone_none, if_true, ends_obtainToken, ends_record, ends_bind, ends_modify,
      ends_ofExcept]
    have hasked (token : Option AccessToken) :
        Owns { s with
          currentToken := token
          log := s.log ++ [.asked s.currentToken (c.answer call.first)] } :=
      h.snoc rfl rfl rfl rfl
    cases hanswer : c.answer call.first with
    | error e =>
      refine Tracks.failed (hanswer ▸ hasked _) hclient hclient ?_
      rintro ⟨t, ht, -⟩
      cases hanswer.symm.trans ht
    | ok t =>
      rw [hanswer] at hasked
      dsimp only
      cases hurl : encode c.url with
      | error e =>
        refine Tracks.failed (hasked _) hclient hclient ?_
        rintro ⟨-, -, ⟨url, hencodes⟩, -⟩
        rw [hencodes, encode_ofString] at hurl
        cases hurl
      | ok url =>
        dsimp only
        cases hvalue : encode t.value with
        | error e =>
          refine Tracks.failed (hasked _) hclient hclient ?_
          rintro ⟨t', ht', -, ⟨value, hencodes⟩⟩
          obtain rfl := Except.ok.inj (hanswer.symm.trans ht')
          rw [hencodes, encode_ofString] at hvalue
          cases hvalue
        | ok value =>
          have hcan : c.CanCreate call :=
            ⟨t, hanswer, encodable_of_encode hurl, encodable_of_encode hvalue⟩
          exact ⟨(hasked none).create rfl hclient rfl rfl, by simp [hcan]⟩

theorem ends_refreshIfExpired_tracks (h : Owns s) :
    Ends (c.refreshIfExpired call) s (fun _ s' => Tracks s s' False)
      (fun _ s' => Tracks s s' False) := by
  unfold SdkClient.refreshIfExpired
  simp only [ends_bind, ends_get]
  cases hcurrent : s.currentToken with
  | none => exact .unchanged h rfl
  | some t =>
    simp only [ends_record, ends_bind, ends_ofExcept]
    have hchecked : Owns { s with log := s.log ++ [.checked t call.now] } :=
      h.snoc rfl rfl rfl rfl
    have hasked : Owns { s with
        log := s.log ++ [.checked t call.now] ++ [.asked s.currentToken (c.answer call.second)] } :=
      hchecked.snoc rfl rfl rfl rfl
    cases t.isValid call.now with
    | error e => exact Tracks.unchanged hchecked rfl
    | ok valid =>
      cases valid with
      | true => exact Tracks.unchanged hchecked rfl
      | false =>
        simp only [Bool.not_false, if_true, ends_obtainToken, ends_record, ends_bind, ends_modify,
          ends_ofExcept]
        cases hanswer : c.answer call.second with
        | error e => exact Tracks.unchanged (hanswer ▸ hasked) rfl
        | ok t' =>
          rw [hanswer] at hasked
          dsimp only
          cases encode t'.value with
          | error e => exact Tracks.unchanged (hasked.keep rfl rfl) rfl
          | ok value => exact Tracks.unchanged (hasked.snoc rfl rfl rfl rfl) rfl

theorem Tracks.trans {s'' : Session} {P Q : Prop} (h : Tracks s s' P) (h' : Tracks s' s'' Q) :
    Tracks s s'' (P ∨ Q) :=
  ⟨h'.owns, by rw [h'.client, h.client, or_assoc]⟩

theorem ends_perform_tracks (call : ApiCall c.cls) (h : Owns s) :
    Ends (c.perform call) s (fun _ s' => Tracks s s' (c.Creates call))
      (fun _ s' => Tracks s s' (c.Creates call)) := by
  unfold SdkClient.perform
  rw [ends_bind]
  have hinit : Ends (c.initIfNeeded call) s (fun _ s' => Tracks s s' (c.Creates call))
      (fun _ s' => Tracks s s' (c.Creates call)) := by
    unfold SdkClient.initIfNeeded
    by_cases hmethod : call.method.val.initializes = true
    · have hcreates : c.Creates call ↔ c.CanCreate call := and_iff_right hmethod
      rw [if_pos hmethod, hcreates, SdkClient.initClient, ends_bind]
      refine (ends_createIfMissing_tracks h).mono (fun _ s₁ hfirst => ?_) fun _ _ hfirst => hfirst
      have hsecond {s₂ : Session} (hs₂ : Tracks s₁ s₂ False) : Tracks s s₂ (c.CanCreate call) :=
        by simpa only [or_false] using hfirst.trans hs₂
      exact (ends_refreshIfExpired_tracks hfirst.owns).mono (fun _ _ => hsecond) fun _ _ => hsecond
    · rw [if_neg hmethod]
      exact ⟨h, by simp [SdkClient.Creates, hmethod]⟩
  refine hinit.mono (fun _ s' hs' => ?_) fun _ _ hs' => hs'
  simp only [ends_bind, ends_ofExcept]
  cases call.arguments with
  | error e => exact hs'
  | ok _ => exact ⟨hs'.owns.snoc rfl rfl rfl rfl, hs'.client⟩

theorem tracks_step (call : ApiCall c.cls) (h : Owns s) :
    Tracks s (c.step s call) (c.Creates call) := by
  have hperform := ends_perform_tracks call h
  unfold SdkClient.step
  cases hresult : c.perform call s with
  | ok _ s' => exact hperform.of_ok hresult
  | error e s' => exact hperform.of_error hresult

/-- After a run of calls the client owns a Go client exactly if one of the calls creates it. -/
theorem tracks_run (h : Owns s) (calls : List (ApiCall c.cls)) :
    Tracks s (run c.step s calls) (∃ call ∈ calls, c.Creates call) := by
  induction calls generalizing s with
  | nil => exact ⟨h, by simp [run_nil]⟩
  | cons call rest ih =>
    have hfirst := tracks_step call h
    have hrest := hfirst.trans (ih hfirst.owns)
    simpa only [run_cons, List.exists_mem_cons_iff] using hrest

/-! ### The end of a client -/

/-- Nothing but calls of `FreeClient` follows a call of `FreeClient` among the last events. -/
theorem freed_of_mem_after {log frees before after : List SessionEvent} {freed : Option Int}
    (hlog : freedHandles log = []) (hfrees : ∀ e ∈ frees, e.freed?.isSome = true)
    (h : log ++ frees = before ++ .freed freed :: after) :
    ∀ e ∈ after, e.freed?.isSome = true := by
  rcases List.append_eq_append_iff.mp h with ⟨as, -, rfl⟩ | ⟨bs, rfl, hbs⟩
  · exact fun e he => hfrees e (List.mem_append_right as (List.mem_cons_of_mem _ he))
  · cases bs with
    | nil =>
      rw [List.nil_append] at hbs
      exact fun e he => hfrees e (hbs ▸ List.mem_cons_of_mem _ he)
    | cons e bs =>
      obtain ⟨rfl, -⟩ := List.cons.inj hbs
      have hmem : freed ∈ freedHandles (before ++ .freed freed :: bs) :=
        List.mem_filterMap.mpr ⟨.freed freed, List.mem_append_right _ List.mem_cons_self, rfl⟩
      rw [hlog] at hmem
      cases hmem

theorem createdHandles_append_freed (log : List SessionEvent) (frees : List (Option Int)) :
    createdHandles (log ++ frees.map .freed) = createdHandles log := by
  have hnone : (frees.map SessionEvent.freed).filterMap SessionEvent.created? = [] := by
    induction frees with
    | nil => rfl
    | cons _ rest ih => exact ih
  rw [createdHandles, List.filterMap_append, hnone, List.append_nil, createdHandles]

theorem freedHandles_append_freed {log : List SessionEvent} (h : freedHandles log = [])
    (frees : List (Option Int)) : freedHandles (log ++ frees.map .freed) = frees := by
  have hall : (frees.map SessionEvent.freed).filterMap SessionEvent.freed? = frees := by
    induction frees with
    | nil => rfl
    | cons x rest ih => exact congrArg (x :: ·) ih
  rw [freedHandles, List.filterMap_append, hall]
  exact congrArg (· ++ frees) h

/-- The arguments with which the finalizers call `FreeClient`. -/
def Session.finalFrees (s : Session) : Ownership → List (Option Int)
  | .sync => [s.client]
  | .async => [s.client, s.client]

theorem log_finalize (ownership : Ownership) (s : Session) :
    (finalize ownership s).log = s.log ++ (s.finalFrees ownership).map .freed := by
  cases ownership with
  | sync => rfl
  | async => exact List.append_assoc _ _ _

/-- A sync client that is never called passes `None` to `FreeClient`. -/
example : freedHandles (providedScheduler.lifetime .sync []) = [none] := rfl

end NexusSdk.Client
