import NexusSdk.Exceptions
import NexusSdk.Lib.Run
import NexusSdk.Lib.Stateful

/-! The Go client behind a scheduler or receiver client: `_init_client` creates it at the first call
and keeps its access token fresh.  An exception leaves the attributes as they were set before it. -/

namespace NexusSdk.Client

open Lib

/-! ### Texts and tokens -/

/-- A code point of a Python string, in which a surrogate may stand alone. -/
inductive CodePoint
  | char (c : Char)
  /-- U+D800 + n -/
  | surrogate (n : Fin 2048)
  deriving DecidableEq

abbrev PyStr := List CodePoint

def PyStr.ofString (s : String) : PyStr := s.toList.map .char

def CodePoint.char? : CodePoint → Option Char
  | char c => some c
  | surrogate _ => none

def unicodeEncodeError : PyClass :=
  { PyClass.extend "UnicodeEncodeError" [.extend "UnicodeError" [valueError]] with
    takesOneArgument := false }

/-- `bytes(s, encoding="utf-8")`, as the text that the bytes encode. -/
def encode (s : PyStr) : Except PyExc String :=
  match s.mapM CodePoint.char? with
  | some chars => .ok (.ofList chars)
  | none => .error (.raised unicodeEncodeError "utf-8")

/-- No surrogate stands alone. -/
def Encodable (s : PyStr) : Prop := ∃ text, s = .ofString text

/-- The `valid_until` of a token, in microseconds; `datetime.now()` has no time zone. -/
inductive Datetime
  | naive (t : Nat)
  | aware (t : Nat)
  deriving DecidableEq

structure AccessToken where
  value : PyStr
  validUntil : Datetime
  deriving DecidableEq

namespace AccessToken

def isValid (token : AccessToken) (now : Nat) : Except PyExc Bool :=
  match token.validUntil with
  | .naive t => .ok (now < t)
  | .aware _ =>
    .error (.raised typeError "can't compare offset-naive and offset-aware datetimes")

/-- The token with the empty value, which expires at `datetime(2999, 1, 1)`. -/
def empty : AccessToken := ⟨[], .naive (1094997 * 86400000000)⟩

end AccessToken

/-! ### Clients -/

/-- A method of a client, by the function of the Go library that it calls. -/
structure Method where
  goFunction : String
  /-- whether it calls `_init_client` before -/
  initializes : Bool := true

/-- The Go functions of a class of clients. -/
structure ClientClass where
  createClient : String
  updateToken : String
  methods : List Method

def nexusSchedulerClient : ClientClass where
  createClient := "CreateSchedulerClient"
  updateToken := "UpdateToken"
  methods := [⟨"GetRunResult", true⟩, ⟨"GetRunResults", true⟩, ⟨"CreateRun", true⟩,
    ⟨"AwaitRun", true⟩, ⟨"AwaitRuns", true⟩, ⟨"GetRequestMetadata", true⟩, ⟨"CancelRun", true⟩,
    ⟨"IsRunFinished", false⟩, ⟨"HasRunSucceeded", false⟩]

def nexusReceiverClient : ClientClass where
  createClient := "CreateReceiverClient"
  updateToken := "UpdateReceiverToken"
  methods := [⟨"CompleteRun", true⟩, ⟨"CheckRun", true⟩]

structure SdkClient where
  cls : ClientClass
  url : PyStr
  hasProvider : Bool

/-- What happens to a client, in order. -/
inductive SessionEvent
  /-- a new token is asked for, from the provider if there is one -/
  | asked (current : Option AccessToken) (answer : Except PyExc AccessToken)
  /-- `is_valid` reads the clock -/
  | checked (token : AccessToken) (now : Nat)
  | created (function url token : String) (handle : Int)
  | updated (function token : String)
  | sent (function : String)
  | freed (handle : Option Int)

/-- The attributes of a client, and what has happened to it. -/
structure Session where
  client : Option Int
  currentToken : Option AccessToken
  /-- the token that the Go library was last given -/
  goToken : Option String
  log : List SessionEvent

def Session.new : Session := ⟨none, none, none, []⟩

/-- A call of a method: the clock at the check of the token, what the provider answers at the two
places where it may be asked, the handle that the Go library would return, and how the arguments of
the Go function are made. -/
structure ApiCall (K : ClientClass) where
  method : {m : Method // m ∈ K.methods}
  now : Nat
  first : Except PyExc AccessToken
  second : Except PyExc AccessToken
  handle : Int
  arguments : Except PyExc Unit

/-- A method body: an exception keeps the attributes that were set before. -/
abbrev Body := EStateM PyExc Session

def record (e : SessionEvent) : Body Unit := modify fun s => { s with log := s.log ++ [e] }

namespace SdkClient

variable (c : SdkClient)

/-- What is obtained where the provider would answer so. -/
def answer (answer : Except PyExc AccessToken) : Except PyExc AccessToken :=
  if c.hasProvider then answer else .ok .empty

/-- `self._current_token = self._token_provider() if ... else AccessToken.empty()`. -/
def obtainToken (answer : Except PyExc AccessToken) : Body AccessToken := do
  record (.asked (← get).currentToken (c.answer answer))
  let token ← ofExcept (c.answer answer)
  modify fun s => { s with currentToken := some token }
  return token

variable (call : ApiCall c.cls)

/-- The first half of `_init_client`. -/
def createIfMissing : Body Unit := do
  if (← get).client.isNone then
    let token ← c.obtainToken call.first
    let url ← ofExcept (encode c.url)
    let value ← ofExcept (encode token.value)
    record (.created c.cls.createClient url value call.handle)
    modify fun s => { s with client := some call.handle, goToken := some value }

/-- The second half of `_init_client`. -/
def refreshIfExpired : Body Unit := do
  match (← get).currentToken with
  | none => throw (noneHasNo "is_valid")
  | some token =>
    record (.checked token call.now)
    if !(← ofExcept (token.isValid call.now)) then
      let token ← c.obtainToken call.second
      let value ← ofExcept (encode token.value)
      record (.updated c.cls.updateToken value)
      modify fun s => { s with goToken := some value }

def initClient : Body Unit := do
  c.createIfMissing call
  c.refreshIfExpired call

/-- The start of a method. -/
def initIfNeeded : Body Unit :=
  if call.method.val.initializes then c.initClient call else pure ()

/-- A method, up to its call of the Go function. -/
def perform : Body Unit := do
  c.initIfNeeded call
  ofExcept call.arguments
  record (.sent call.method.val.goFunction)

/-- The attributes after a call, however it ended. -/
def step (s : Session) (call : ApiCall c.cls) : Session :=
  match c.perform call s with
  | .ok _ s' => s'
  | .error _ s' => s'

/-- What happens in a call. -/
def events (s : Session) : List SessionEvent := (c.step s call).log.drop s.log.length

end SdkClient

theorem ends_record {s : Session} {Q : PUnit → Session → Prop} {E : PyExc → Session → Prop}
    (e : SessionEvent) : Ends (record e) s Q E ↔ Q ⟨⟩ { s with log := s.log ++ [e] } :=
  Iff.rfl

/-- An exception of the provider leaves the token as it was. -/
theorem ends_obtainToken (c : SdkClient) {s : Session} {Q : AccessToken → Session → Prop}
    {E : PyExc → Session → Prop} (answer : Except PyExc AccessToken) :
    Ends (c.obtainToken answer) s Q E ↔ match c.answer answer with
      | .ok t => Q t { s with
          currentToken := some t
          log := s.log ++ [.asked s.currentToken (c.answer answer)] }
      | .error e => E e { s with log := s.log ++ [.asked s.currentToken (c.answer answer)] } := by
  unfold SdkClient.obtainToken
  simp only [ends_bind, ends_get, ends_record, ends_ofExcept, ends_modify, ends_pure]
  cases c.answer answer <;> rfl

/-! ### Freshness -/

/-- The token of the Go library is the current one. -/
def Agree (s : Session) : Prop :=
  ∃ t text, s.currentToken = some t ∧ s.goToken = some text ∧ t.value = .ofString text

/-- There is no Go client yet, and no token, or the tokens agree. -/
inductive Sound (s : Session) : Prop
  | fresh (client : s.client = none) (current : s.currentToken = none)
  | running (client : s.client ≠ none) (agree : Agree s)

/-- A token is asked for only where there is none, or right after the current one has been found
expired. -/
def Warranted (before : List SessionEvent) : SessionEvent → Prop
  | .asked current _ => current = none ∨ ∃ t now u, current = some t ∧
      before.getLast? = some (.checked t now) ∧ t.validUntil = .naive u ∧ u ≤ now
  | _ => True

/-- The token was found unexpired. -/
def FoundValid (t : AccessToken) (new : List SessionEvent) : Prop :=
  ∃ now u, .checked t now ∈ new ∧ t.validUntil = .naive u ∧ now < u

/-- The token was obtained. -/
def Obtained (t : AccessToken) (new : List SessionEvent) : Prop :=
  ∃ current, .asked current (.ok t) ∈ new

/-- What a call from `s` keeps of the freshness of the token. -/
structure FreshCall (c : SdkClient) (s : Session) (call : ApiCall c.cls) : Prop where
  completed : call.method.val.initializes = true → ∀ s', c.initClient call s = .ok () s' →
    Agree s' ∧ ∃ t, s'.currentToken = some t ∧
      (FoundValid t (s'.log.drop s.log.length) ∨ Obtained t (s'.log.drop s.log.length))
  asked : Justified Warranted (c.events call s)
  raised : ∀ current e, .asked current (.error e) ∈ c.events call s →
    (∀ f, .sent f ∉ c.events call s) ∧
      ((c.step s call).client = none ∨ Agree (c.step s call))

/-! ### When texts can be encoded -/

/-- The token that `_init_client` checks. -/
def SdkClient.tokenToCheck (c : SdkClient) (s : Session) (call : ApiCall c.cls) :
    Option AccessToken :=
  if s.client.isNone then (c.answer call.first).toOption else s.currentToken

/-- The tokens that the call obtains, and the URL if it creates the Go client, can be encoded. -/
structure Encodes (c : SdkClient) (s : Session) (call : ApiCall c.cls) : Prop where
  created : s.client = none → ∀ t, c.answer call.first = .ok t →
    Encodable c.url ∧ Encodable t.value
  refreshed : ∀ t u, c.tokenToCheck s call = some t → t.validUntil = .naive u → u ≤ call.now →
    ∀ t', c.answer call.second = .ok t' → Encodable t'.value

theorem encode_ofString (text : String) : encode (.ofString text) = .ok text := by
  have hmap : (PyStr.ofString text).mapM CodePoint.char? = some text.toList := by
    rw [PyStr.ofString]
    induction text.toList with
    | nil => rfl
    | cons c rest ih =>
      rw [List.map_cons, List.mapM_cons, ih]
      rfl
  rw [encode, hmap]
  exact congrArg Except.ok String.ofList_toList

theorem encodable_of_encode {value : PyStr} {text : String} (h : encode value = .ok text) :
    Encodable value := by
  unfold encode at h
  split at h
  · next chars hchars =>
    refine ⟨.ofList chars, ?_⟩
    rw [PyStr.ofString, String.toList_ofList]
    clear h
    induction value generalizing chars with
    | nil =>
      cases hchars
      rfl
    | cons point rest ih =>
      rw [List.mapM_cons] at hchars
      obtain ⟨char, hchar, hchars⟩ := Option.bind_eq_some_iff.mp hchars
      obtain ⟨chars', hrest, hchars⟩ := Option.bind_eq_some_iff.mp hchars
      obtain rfl := Option.some.inj hchars
      cases point with
      | char d =>
        obtain rfl := Option.some.inj hchar
        rw [List.map_cons, ← ih chars' hrest]
      | surrogate n => cases hchar
  · cases h

/-! ### What `_init_client` does -/

variable {c : SdkClient} {s s' : Session} {call : ApiCall c.cls} {new new' : List SessionEvent}

/-- Events of `_init_client`: tokens are asked for with reason, and no operation is sent. -/
structure InitEvents (new : List SessionEvent) : Prop where
  warranted : ∀ before, Justified Warranted before → Justified Warranted (before ++ new)
  unsent : ∀ f, .sent f ∉ new

theorem InitEvents.nil : InitEvents [] :=
  ⟨fun before h => by rwa [List.append_nil], fun _ => List.not_mem_nil⟩

theorem InitEvents.append (h : InitEvents new) (h' : InitEvents new') :
    InitEvents (new ++ new') where
  warranted before hbefore := by
    rw [← List.append_assoc]
    exact h'.warranted _ (h.warranted before hbefore)
  unsent f hmem := (List.mem_append.mp hmem).elim (h.unsent f) (h'.unsent f)

theorem InitEvents.snoc {e : SessionEvent} (h : InitEvents new)
    (he : ∀ before, Warranted (before ++ new) e) (hsent : ∀ f, .sent f ≠ e) :
    InitEvents (new ++ [e]) where
  warranted before hbefore := by
    rw [← List.append_assoc]
    exact (h.warranted before hbefore).snoc (he before)
  unsent f hmem := by
    rcases List.mem_append.mp hmem with hmem | hmem
    · exact h.unsent f hmem
    · exact hsent f (List.mem_singleton.mp hmem)

/-- No token was asked for in vain. -/
def Unrefused (new : List SessionEvent) : Prop := ∀ current e, .asked current (.error e) ∉ new

theorem Unrefused.append (h : Unrefused new) (h' : Unrefused new') : Unrefused (new ++ new') :=
  fun current e hmem => (List.mem_append.mp hmem).elim (h current e) (h' current e)

/-- The events of a call that creates the Go client. -/
theorem initEvents_asked {current : Option AccessToken} (hcurrent : current = none)
    (answer : Except PyExc AccessToken) : InitEvents [.asked current answer] :=
  InitEvents.nil.snoc (fun _ => .inl hcurrent) (by simp)

/-- The events of a call that finds the token expired. -/
theorem initEvents_refused {t : AccessToken} {now u : Nat} (hu : t.validUntil = .naive u)
    (hexpired : u ≤ now) (answer : Except PyExc AccessToken) :
    InitEvents [.checked t now, .asked (some t) answer] :=
  (InitEvents.nil.snoc (e := .checked t now) (fun _ => trivial) (by simp)).snoc
    (fun before => .inr ⟨t, now, u, rfl, by simp, hu, hexpired⟩) (by simp)

/-- What the first half of `_init_client` does. -/
theorem ends_createIfMissing (hs : Sound s) (h : Encodes c s call) :
    Ends (c.createIfMissing call) s
      (fun _ s' => ∃ new, s'.log = s.log ++ new ∧ InitEvents new ∧ Unrefused new ∧
        s'.client ≠ none ∧ Agree s' ∧ s'.currentToken = c.tokenToCheck s call)
      (fun _ s' => ∃ new, s'.log = s.log ++ new ∧ InitEvents new ∧ Sound s') := by
  unfold SdkClient.createIfMissing
  simp only [ends_bind, ends_get]
  cases hs with
  | running client agree =>
    have hclient : s.client.isNone = false := by simpa [Option.isSome_iff_ne_none] using client
    simp only [hclient]
    exact ⟨[], (List.append_nil _).symm, .nil, fun _ _ => List.not_mem_nil, client, agree,
      by rw [SdkClient.tokenToCheck, hclient]; rfl⟩
  | fresh client current =>
    have hclient : s.client.isNone = true := by rw [client]; rfl
    simp only [hclient, if_true, ends_obtainToken, ends_record, ends_bind, ends_modify,
      ends_ofExcept]
    cases hanswer : c.answer call.first with
    | error e => exact ⟨_, rfl, initEvents_asked current _, .fresh client current⟩
    | ok t =>
      obtain ⟨⟨url, hurl⟩, value, hvalue⟩ := h.created client t hanswer
      simp only [hurl, hvalue, encode_ofString]
      refine ⟨_, List.append_assoc _ _ _, (initEvents_asked current _).snoc (fun _ => trivial)
        (by simp), by simp [Unrefused], by simp, ⟨t, value, rfl, rfl, hvalue⟩, ?_⟩
      rw [SdkClient.tokenToCheck, hclient, hanswer]
      rfl

/-- What the second half does. -/
theorem ends_refreshIfExpired {t : AccessToken} (hclient : s.client ≠ none) (hagree : Agree s)
    (ht : s.currentToken = some t)
    (h : ∀ u, t.validUntil = .naive u → u ≤ call.now →
      ∀ t', c.answer call.second = .ok t' → Encodable t'.value) :
    Ends (c.refreshIfExpired call) s
      (fun _ s' => ∃ new, s'.log = s.log ++ new ∧ InitEvents new ∧ Unrefused new ∧
        s'.client ≠ none ∧ Agree s' ∧ ∃ t', s'.currentToken = some t' ∧
          (FoundValid t' new ∨ Obtained t' new))
      (fun _ s' => ∃ new, s'.log = s.log ++ new ∧ InitEvents new ∧ Sound s') := by
  unfold SdkClient.refreshIfExpired
  simp only [ends_bind, ends_get, ht, ends_record, ends_ofExcept]
  have hchecked : InitEvents [.checked t call.now] :=
    InitEvents.nil.snoc (e := .checked t call.now) (fun _ => trivial) (by simp)
  have hkept (log : List SessionEvent) : Agree { s with currentToken := some t, log := log } := by
    obtain ⟨t', text, ht', htext, hvalue⟩ := hagree
    obtain rfl := Option.some.inj (ht.symm.trans ht')
    exact ⟨t, text, rfl, htext, hvalue⟩
  cases hvalid : t.validUntil with
  | aware u =>
    simp only [AccessToken.isValid, hvalid]
    exact ⟨_, rfl, hchecked, .running hclient (hkept _)⟩
  | naive u =>
    simp only [AccessToken.isValid, hvalid]
    by_cases hnow : call.now < u
    · simp only [hnow, decide_true, Bool.not_true, Bool.false_eq_true, if_false, ends_pure]
      exact ⟨_, rfl, hchecked, by simp [Unrefused], hclient, hkept _, t, rfl,
        .inl ⟨call.now, u, by simp, hvalid, hnow⟩⟩
    · simp only [hnow, decide_false, Bool.not_false, if_true, ends_obtainToken, ends_record,
        ends_bind, ends_modify, ends_ofExcept]
      have hexpired : u ≤ call.now := Nat.not_lt.mp hnow
      cases hanswer : c.answer call.second with
      | error e =>
        exact ⟨_, List.append_assoc _ _ _, initEvents_refused hvalid hexpired _,
          .running hclient (hkept _)⟩
      | ok t' =>
        obtain ⟨value, hvalue⟩ := h u hvalid hexpired t' hanswer
        simp only [hvalue, encode_ofString]
        have hevents := (initEvents_refused hvalid hexpired (.ok t')).snoc
          (e := .updated c.cls.updateToken value) (fun _ => trivial) (by simp)
        exact ⟨_, (List.append_assoc _ _ _).trans (List.append_assoc _ _ _), hevents,
          by simp [Unrefused], hclient, ⟨t', value, rfl, rfl, hvalue⟩, t', rfl,
          .inr ⟨some t, by simp⟩⟩

/-- `_init_client` keeps the tokens in agreement, also when it raises; when it completes, the
current token has been found valid or obtained. -/
theorem ends_initClient (hs : Sound s) (h : Encodes c s call) :
    Ends (c.initClient call) s
      (fun _ s' => ∃ new, s'.log = s.log ++ new ∧ InitEvents new ∧ Unrefused new ∧
        s'.client ≠ none ∧ Agree s' ∧ ∃ t, s'.currentToken = some t ∧
          (FoundValid t new ∨ Obtained t new))
      (fun _ s' => ∃ new, s'.log = s.log ++ new ∧ InitEvents new ∧ Sound s') := by
  unfold SdkClient.initClient
  rw [ends_bind]
  refine (ends_createIfMissing hs h).mono (fun _ s₁ hfirst => ?_) fun _ _ hraised => hraised
  obtain ⟨new, hlog, hnew, hunrefused, hclient, hagree, hcurrent⟩ := hfirst
  obtain ⟨t, -, ht, -⟩ := id hagree
  have hsecond := ends_refreshIfExpired hclient hagree ht fun u hu hexpired =>
    h.refreshed t u (hcurrent.symm.trans ht) hu hexpired
  refine hsecond.mono ?_ ?_
  · rintro - s' ⟨new', hlog', hnew', hunrefused', hclient', hagree', t', ht', hfresh⟩
    refine ⟨new ++ new', by rw [hlog', hlog, List.append_assoc], hnew.append hnew',
      hunrefused.append hunrefused', hclient', hagree', t', ht', hfresh.imp ?_ ?_⟩
    · rintro ⟨now, u, hmem, hvalid⟩
      exact ⟨now, u, List.mem_append_right new hmem, hvalid⟩
    · rintro ⟨current, hmem⟩
      exact ⟨current, List.mem_append_right new hmem⟩
  · rintro - s' ⟨new', hlog', hnew', hsound⟩
    exact ⟨new ++ new', by rw [hlog', hlog, List.append_assoc], hnew.append hnew', hsound⟩

/-! ### Runs of calls -/

/-- A call that initializes the client meets `Encodes`. -/
def Meets (c : SdkClient) (s : Session) (call : ApiCall c.cls) : Prop :=
  call.method.val.initializes = true → Encodes c s call

/-- What a call does. -/
theorem ends_perform (hs : Sound s) (h : Meets c s call) :
    Ends (c.perform call) s
      (fun _ s' => ∃ new, s'.log = s.log ++ new ∧ Justified Warranted new ∧ Unrefused new ∧
        Sound s')
      (fun _ s' => ∃ new, s'.log = s.log ++ new ∧ InitEvents new ∧ Sound s') := by
  unfold SdkClient.perform
  rw [ends_bind]
  have hinit : Ends (c.initIfNeeded call) s
      (fun _ s' => ∃ new, s'.log = s.log ++ new ∧ InitEvents new ∧ Unrefused new ∧ Sound s')
      (fun _ s' => ∃ new, s'.log = s.log ++ new ∧ InitEvents new ∧ Sound s') := by
    unfold SdkClient.initIfNeeded
    split
    · next hmethod =>
      refine (ends_initClient hs (h hmethod)).mono ?_ fun _ _ hraised => hraised
      rintro - s' ⟨new, hlog, hnew, hunrefused, hclient, hagree, -⟩
      exact ⟨new, hlog, hnew, hunrefused, .running hclient hagree⟩
    · exact ⟨[], (List.append_nil _).symm, .nil, fun _ _ => List.not_mem_nil, hs⟩
  refine hinit.mono ?_ fun _ _ hraised => hraised
  rintro - s' ⟨new, hlog, hnew, hunrefused, hsound⟩
  simp only [ends_bind, ends_ofExcept]
  cases call.arguments with
  | error e => exact ⟨new, hlog, hnew, hsound⟩
  | ok _ =>
    have hjustified : Justified Warranted new := hnew.warranted [] (.nil _)
    have hsent : Warranted new (.sent call.method.val.goFunction) := trivial
    refine ⟨new ++ [.sent call.method.val.goFunction], ?_, hjustified.snoc hsent,
      hunrefused.append (by simp [Unrefused]), ?_⟩
    · show s'.log ++ _ = _
      rw [hlog, List.append_assoc]
    · cases hsound with
      | fresh client current => exact .fresh client current
      | running client agree => exact .running client agree

theorem log_step (hs : Sound s) (h : Meets c s call) :
    Sound (c.step s call) ∧ (c.step s call).log = s.log ++ c.events call s ∧
      Justified Warranted (c.events call s) ∧
      (Unrefused (c.events call s) ∨ ∀ f, .sent f ∉ c.events call s) := by
  have hperform := ends_perform hs h
  have hevents {s' : Session} {new : List SessionEvent} (hlog : s'.log = s.log ++ new) :
      s'.log.drop s.log.length = new := by
    rw [hlog, List.drop_left]
  unfold SdkClient.events SdkClient.step
  cases hresult : c.perform call s with
  | ok _ s' =>
    obtain ⟨new, hlog, hjustified, hunrefused, hsound⟩ := hperform.of_ok hresult
    simp only [hevents hlog]
    exact ⟨hsound, hlog, hjustified, .inl hunrefused⟩
  | error e s' =>
    obtain ⟨new, hlog, hnew, hsound⟩ := hperform.of_error hresult
    simp only [hevents hlog]
    exact ⟨hsound, hlog, hnew.warranted [] (.nil _), .inr hnew.unsent⟩

theorem Sound.fresh_or_agree (h : Sound s) : s.client = none ∨ Agree s := by
  cases h with
  | fresh client _ => exact .inl client
  | running _ agree => exact .inr agree

theorem freshCall_of_meets (hs : Sound s) (h : Meets c s call) : FreshCall c s call := by
  obtain ⟨hsound, -, hjustified, hsent⟩ := log_step hs h
  refine ⟨fun hmethod s' hcompleted => ?_, hjustified, fun current e hasked => ?_⟩
  · obtain ⟨new, hlog, -, -, -, hagree, t, ht, hfresh⟩ :=
      (ends_initClient hs (h hmethod)).of_ok hcompleted
    rw [hlog, List.drop_left]
    exact ⟨hagree, t, ht, hfresh⟩
  · refine ⟨hsent.resolve_left fun hunrefused => hunrefused current e hasked, ?_⟩
    exact hsound.fresh_or_agree

/-- In a run whose calls obtain only texts that can be encoded, every call keeps the token fresh. -/
theorem token_fresh (c : SdkClient) (calls : List (ApiCall c.cls))
    (h : Along c.step (Meets c) .new calls) : Along c.step (FreshCall c) .new calls :=
  h.of_invariant (fun _ _ hs hmeets => (log_step hs hmeets).1) (fun _ _ => freshCall_of_meets)
    (Sound.fresh rfl rfl)

/-! ### A token that cannot be encoded -/

/-- A client of the scheduler with a provider of tokens. -/
def providedScheduler : SdkClient :=
  ⟨nexusSchedulerClient, .ofString "http://localhost:8080", true⟩

/-- A call at time `now`, of the first method, for a provider that answers `token`. -/
def callAt (now : Nat) (token : AccessToken) : ApiCall nexusSchedulerClient where
  method := ⟨_, List.mem_cons_self⟩
  now := now
  first := .ok token
  second := .ok token
  handle := 7
  arguments := .ok ()

def readableToken : AccessToken := ⟨.ofString "a", .naive 10⟩

/-- A token whose value is a single surrogate. -/
def brokenToken : AccessToken := ⟨[.surrogate 0], .naive 20⟩

theorem not_encodable_brokenToken : ¬ Encodable brokenToken.value := by
  rintro ⟨text, heq⟩
  have hmem : CodePoint.surrogate 0 ∈ PyStr.ofString text := heq ▸ List.mem_cons_self
  obtain ⟨c, -, hc⟩ := List.mem_map.mp hmem
  cases hc

theorem meets_callAt {now : Nat} {token : AccessToken} (h : Encodable token.value) :
    Meets providedScheduler s (callAt now token) := by
  refine fun _ => ⟨fun _ t ht => ?_, fun _ _ _ _ _ t ht => ?_⟩
  · obtain rfl := Except.ok.inj ht
    exact ⟨⟨_, rfl⟩, h⟩
  · obtain rfl := Except.ok.inj ht
    exact h

theorem token_fresh_renewed :
    let calls := [callAt 0 readableToken, callAt 10 ⟨.ofString "b", .naive 20⟩]
    Along providedScheduler.step (FreshCall providedScheduler) .new calls :=
  token_fresh providedScheduler _ ⟨meets_callAt ⟨_, rfl⟩, meets_callAt ⟨_, rfl⟩, trivial⟩

/-- The second call raises after it has set the broken token.  The third one finds it unexpired and
completes, with the first token in the Go library. -/
theorem broken_token_kept :
    let calls := [callAt 0 readableToken, callAt 10 brokenToken, callAt 15 brokenToken]
    let s := run providedScheduler.step .new calls
    s.currentToken = some brokenToken ∧ s.goToken = some "a" ∧
      ¬ Along providedScheduler.step (FreshCall providedScheduler) .new calls := by
  refine ⟨rfl, rfl, ?_⟩
  rintro ⟨-, -, hthird, -⟩
  obtain ⟨⟨t, text, ht, -, hvalue⟩, -⟩ := hthird.completed rfl _ rfl
  obtain rfl := Option.some.inj ht
  exact not_encodable_brokenToken ⟨text, hvalue⟩

end NexusSdk.Client
