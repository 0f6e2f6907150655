import NexusSdk.Core.AppBootstrap
import NexusSdk.Core.RunOutcome
import NexusSdk.Lib.Run
import NexusSdk.Lib.Stateful

/-! `QueryEnabledStoreCollection`, and what happens to its stores in a run of `Nexus.activate`.
Opening and closing a store is code outside of the framework; an exception of it leaves the
collection as it was before. -/

namespace NexusSdk.Core

open Lib

/-- A store; the number tells it apart from the others. -/
structure QueryEnabledStore (κ : Type) where
  number : Nat
  cls : κ

/-- What happens to stores. -/
inductive StoreEvent
  | opened (number : Nat)
  | closed (number : Nat) (outcome : Except PyExc Unit)

/-- The code of the stores.  The first argument of a call is the number of events before it. -/
structure StoreDriver (κ S : Type) where
  /-- `QueryEnabledStore.from_string` -/
  fromString : Nat → String → Except PyExc κ
  close : Nat → QueryEnabledStore κ → Except PyExc Unit
  suggestStore : S → Option κ
  isInstance : κ → κ → Bool

/-- `_stores`, and what has happened so far. -/
structure QueryEnabledStoreCollection (κ : Type) where
  stores : List (QueryEnabledStore κ)
  log : List StoreEvent

namespace QueryEnabledStoreCollection

variable {κ S : Type}

def new : QueryEnabledStoreCollection κ := ⟨[], []⟩

/-- A method body. -/
abbrev Body (κ : Type) := EStateM PyExc (QueryEnabledStoreCollection κ)

/-- How a method call ends. -/
def outcome {β : Type} (x : Body κ β) (s : QueryEnabledStoreCollection κ) : Except PyExc β :=
  match x s with
  | .ok a _ => .ok a
  | .error e _ => .error e

/-- The collection after a method call. -/
def after {β : Type} (x : Body κ β) (s : QueryEnabledStoreCollection κ) :
    QueryEnabledStoreCollection κ :=
  match x s with
  | .ok _ s' => s'
  | .error _ s' => s'

/-- The stores that were opened. -/
def openedNumbers (log : List StoreEvent) : List Nat :=
  log.filterMap fun
    | .opened n => some n
    | .closed _ _ => none

section Methods

variable (driver : StoreDriver κ S)

def closeStore (store : QueryEnabledStore κ) : Body κ Unit := do
  let s ← get
  let outcome := driver.close s.log.length store
  modify fun s => { s with log := s.log ++ [.closed store.number outcome] }
  ofExcept outcome

def openStore (connection : String) : Body κ Unit := do
  let s ← get
  let cls ← ofExcept (driver.fromString s.log.length connection)
  let number := (openedNumbers s.log).length
  modify fun s => { stores := s.stores ++ [⟨number, cls⟩], log := s.log ++ [.opened number] }

/-- Close all stores. -/
def close : Body κ Unit := do
  let s ← get
  s.stores.forM (closeStore driver)

/-- Populate this collection from the configuration. -/
def loadStores (storeConnections : List String) : Body κ Unit := do
  close driver
  modify fun s => { s with stores := [] }
  storeConnections.forM (openStore driver)

/-- Retrieve a store for the provided socket. -/
def storeFor (s : QueryEnabledStoreCollection κ) (socket : S) : Option (QueryEnabledStore κ) :=
  match driver.suggestStore socket with
  | none => none
  | some matchingStoreType =>
    s.stores.find? fun store => driver.isInstance store.cls matchingStoreType

/-- A call of a method, after which the collection is used further even if it raised. -/
inductive Operation
  | loadStores (storeConnections : List String)
  | close

def Operation.body : Operation → Body κ Unit
  | .loadStores storeConnections => QueryEnabledStoreCollection.loadStores driver storeConnections
  | .close => QueryEnabledStoreCollection.close driver

def step (s : QueryEnabledStoreCollection κ) (op : Operation) : QueryEnabledStoreCollection κ :=
  after (op.body driver) s

end Methods

/-! ### What the loops do -/

/-- The event of a store whose `close` returned. -/
def closedOk (store : QueryEnabledStore κ) : StoreEvent := .closed store.number (.ok ())

/-- Stores with the numbers from `k` on. -/
def numbered (k : Nat) : List κ → List (QueryEnabledStore κ)
  | [] => []
  | cls :: rest => ⟨k, cls⟩ :: numbered (k + 1) rest

/-- The collection after stores of these classes were opened. -/
def opening (s : QueryEnabledStoreCollection κ) (classes : List κ) :
    QueryEnabledStoreCollection κ where
  stores := s.stores ++ numbered (openedNumbers s.log).length classes
  log := s.log ++
    (numbered (openedNumbers s.log).length classes).map fun store => .opened store.number

theorem openedNumbers_append (log log' : List StoreEvent) :
    openedNumbers (log ++ log') = openedNumbers log ++ openedNumbers log' :=
  List.filterMap_append

theorem openedNumbers_closedOk (stores : List (QueryEnabledStore κ)) :
    openedNumbers (stores.map closedOk) = [] := by
  simp [openedNumbers, closedOk]

theorem openedNumbers_opened (stores : List (QueryEnabledStore κ)) :
    openedNumbers (stores.map fun store => .opened store.number) =
      stores.map QueryEnabledStore.number := by
  simp [openedNumbers, List.filterMap_map]

theorem numbered_append (k : Nat) (classes classes' : List κ) :
    numbered k (classes ++ classes') =
      numbered k classes ++ numbered (k + classes.length) classes' := by
  induction classes generalizing k with
  | nil => rfl
  | cons cls rest ih =>
    rw [List.cons_append, numbered, ih, numbered, List.cons_append, List.length_cons,
      Nat.add_assoc, Nat.add_comm 1]

theorem map_number_numbered (k : Nat) (classes : List κ) :
    (numbered k classes).map QueryEnabledStore.number = List.range' k classes.length := by
  induction classes generalizing k with
  | nil => rfl
  | cons cls rest ih => rw [numbered, List.map_cons, ih, List.length_cons, List.range'_succ]

@[simp] theorem opening_nil (s : QueryEnabledStoreCollection κ) : s.opening [] = s := by
  simp [opening, numbered]

theorem openedNumbers_opening (s : QueryEnabledStoreCollection κ) (classes : List κ) :
    openedNumbers (s.opening classes).log = openedNumbers s.log ++
      List.range' (openedNumbers s.log).length classes.length := by
  rw [opening, openedNumbers_append, openedNumbers_opened, map_number_numbered]

theorem opening_opening (s : QueryEnabledStoreCollection κ) (classes classes' : List κ) :
    (s.opening classes).opening classes' = s.opening (classes ++ classes') := by
  have hlength : (openedNumbers (s.opening classes).log).length =
      (openedNumbers s.log).length + classes.length := by
    rw [openedNumbers_opening, List.length_append, List.length_range']
  unfold opening at hlength ⊢
  simp only [hlength, numbered_append, List.map_append, List.append_assoc]

variable {driver : StoreDriver κ S} {s s' : QueryEnabledStoreCollection κ}

/-- The stores are closed in their order; the first one that raises is the last. -/
theorem close_ends (driver : StoreDriver κ S) (s : QueryEnabledStoreCollection κ) :
    Ends (close driver) s
      (fun _ s' => s' = { s with log := s.log ++ s.stores.map closedOk })
      (fun e s' => ∃ done store rest, s.stores = done ++ store :: rest ∧
        s' = { s with
          log := s.log ++ done.map closedOk ++ [.closed store.number (.error e)] }) := by
  simp only [close, ends_bind, ends_get]
  refine Ends.forM (I := fun done s' => s' = { s with log := s.log ++ done.map closedOk })
    (fun done store rest hstores s' hs' => ?_) ?_
  · subst hs'
    simp only [closeStore, ends_bind, ends_get, ends_modify, ends_ofExcept]
    cases driver.close (s.log ++ done.map closedOk).length store with
    | ok _ => simp [closedOk]
    | error e => exact ⟨done, store, rest, hstores, rfl⟩
  · simp

/-- The stores are opened in the order of the connections; the first one that raises is not among
them. -/
theorem openStores_ends (driver : StoreDriver κ S) (storeConnections : List String)
    (s : QueryEnabledStoreCollection κ) :
    Ends (storeConnections.forM (openStore driver)) s
      (fun _ s' => ∃ classes, classes.length = storeConnections.length ∧ s' = s.opening classes)
      (fun _ s' => ∃ classes, classes.length < storeConnections.length ∧
        s' = s.opening classes) := by
  refine Ends.forM (I := fun done s' =>
    ∃ classes : List κ, classes.length = done.length ∧ s' = s.opening classes)
    (fun done connection rest hconnections s' hs' => ?_) ⟨[], rfl, by simp⟩
  obtain ⟨classes, hlength, rfl⟩ := hs'
  simp only [openStore, ends_bind, ends_get, ends_modify, ends_ofExcept]
  cases driver.fromString (s.opening classes).log.length connection with
  | error e => exact ⟨classes, by simp [hconnections, hlength], rfl⟩
  | ok cls =>
    refine ⟨classes ++ [cls], by simp [hlength], ?_⟩
    rw [← opening_opening]
    rfl

/-- The collection without stores, after the stores that it held were closed. -/
def emptied (s : QueryEnabledStoreCollection κ) : QueryEnabledStoreCollection κ :=
  ⟨[], s.log ++ s.stores.map closedOk⟩

/-- Stores are loaded into an empty collection, or a store could not be closed. -/
theorem loadStores_ends (driver : StoreDriver κ S) (storeConnections : List String)
    (s : QueryEnabledStoreCollection κ) :
    Ends (loadStores driver storeConnections) s
      (fun _ s' => ∃ classes, classes.length = storeConnections.length ∧
        s' = s.emptied.opening classes)
      (fun e s' =>
        (∃ done store rest, s.stores = done ++ store :: rest ∧
          s' = { s with
            log := s.log ++ done.map closedOk ++ [.closed store.number (.error e)] }) ∨
        ∃ classes, classes.length < storeConnections.length ∧
          s' = s.emptied.opening classes) := by
  simp only [loadStores, ends_bind, ends_modify]
  refine (close_ends driver s).mono (fun _ s' hs' => ?_) fun _ _ => .inl
  subst hs'
  exact (openStores_ends driver storeConnections s.emptied).mono (fun _ _ => id) fun _ _ => .inr

/-- A postcondition that is the same for a return and for an exception. -/
theorem after_of_ends {P : QueryEnabledStoreCollection κ → Prop} {β : Type} {x : Body κ β}
    (h : Ends x s (fun _ => P) (fun _ => P)) : P (after x s) := by
  unfold after
  unfold Ends at h
  split at h
  · next hrun => rwa [hrun]
  · next hrun => rwa [hrun]

/-- Everything that an operation can do: it closes some of the stores that are held, or all of them
before it opens others. -/
theorem step_cases (driver : StoreDriver κ S) (s : QueryEnabledStoreCollection κ)
    (op : Operation) :
    (∃ closings : List StoreEvent, step driver s op = { s with log := s.log ++ closings } ∧
      ∀ e ∈ closings, ∃ store ∈ s.stores, ∃ outcome, e = .closed store.number outcome) ∨
    ∃ classes, step driver s op = s.emptied.opening classes := by
  have hclosed {done rest : List (QueryEnabledStore κ)} (tail : List StoreEvent)
      (hstores : s.stores = done ++ rest)
      (htail : ∀ e ∈ tail, ∃ store ∈ s.stores, ∃ outcome, e = .closed store.number outcome) :
      ∀ e ∈ done.map closedOk ++ tail,
        ∃ store ∈ s.stores, ∃ outcome, e = .closed store.number outcome := by
    intro e he
    rcases List.mem_append.mp he with he | he
    · obtain ⟨store, hstore, rfl⟩ := List.mem_map.mp he
      exact ⟨store, by simp [hstores, hstore], _, rfl⟩
    · exact htail e he
  have hraised {done rest : List (QueryEnabledStore κ)} {store : QueryEnabledStore κ} (e : PyExc)
      (hstores : s.stores = done ++ store :: rest) :
      ∀ event ∈ done.map closedOk ++ [.closed store.number (.error e)],
        ∃ store ∈ s.stores, ∃ outcome, event = .closed store.number outcome :=
    hclosed _ hstores fun _ hevent =>
      ⟨store, by simp [hstores], _, List.mem_singleton.mp hevent⟩
  refine after_of_ends (P := fun s' =>
    (∃ closings : List StoreEvent, s' = { s with log := s.log ++ closings } ∧
      ∀ e ∈ closings, ∃ store ∈ s.stores, ∃ outcome, e = .closed store.number outcome) ∨
    ∃ classes, s' = s.emptied.opening classes) ?_
  cases op with
  | close =>
    refine (close_ends driver s).mono ?_ ?_
    · rintro _ s' rfl
      have hall := hclosed [] (List.append_nil s.stores).symm (List.forall_mem_nil _)
      rw [List.append_nil] at hall
      exact .inl ⟨_, rfl, hall⟩
    · rintro e s' ⟨done, store, rest, hstores, rfl⟩
      exact .inl ⟨_, by rw [List.append_assoc], hraised e hstores⟩
  | loadStores storeConnections =>
    refine (loadStores_ends driver storeConnections s).mono ?_ ?_
    · rintro _ s' ⟨classes, -, rfl⟩
      exact .inr ⟨classes, rfl⟩
    · rintro e s' (⟨done, store, rest, hstores, rfl⟩ | ⟨classes, -, rfl⟩)
      · exact .inl ⟨_, by rw [List.append_assoc], hraised e hstores⟩
      · exact .inr ⟨classes, rfl⟩

/-! ### The ledger -/

/-- How the calls of `close` of a store ended. -/
def closings (n : Nat) (log : List StoreEvent) : List (Except PyExc Unit) :=
  log.filterMap fun
    | .closed m outcome => if m = n then some outcome else none
    | .opened _ => none

/-- The log and the stores that are held: stores have different numbers, those held were opened, as
were those closed, and those opened are held or were closed. -/
structure Ledger (s : QueryEnabledStoreCollection κ) : Prop where
  numbers : openedNumbers s.log = List.range (openedNumbers s.log).length
  distinct : (s.stores.map QueryEnabledStore.number).Nodup
  held : ∀ store ∈ s.stores, store.number ∈ openedNumbers s.log
  kept : ∀ n ∈ openedNumbers s.log,
    n ∈ s.stores.map QueryEnabledStore.number ∨ .ok () ∈ closings n s.log
  closed : ∀ n, closings n s.log ≠ [] → n ∈ openedNumbers s.log

theorem closings_append (n : Nat) (log log' : List StoreEvent) :
    closings n (log ++ log') = closings n log ++ closings n log' :=
  List.filterMap_append

theorem closings_opened (n : Nat) (stores : List (QueryEnabledStore κ)) :
    closings n (stores.map fun store => .opened store.number) = [] := by
  simp [closings]

theorem ok_mem_closings_closedOk {n : Nat} {stores : List (QueryEnabledStore κ)}
    (h : n ∈ stores.map QueryEnabledStore.number) : .ok () ∈ closings n (stores.map closedOk) := by
  obtain ⟨store, hstore, rfl⟩ := List.mem_map.mp h
  refine List.mem_filterMap.mpr ⟨closedOk store, List.mem_map_of_mem hstore, ?_⟩
  simp [closedOk]

theorem closings_closedOk {n : Nat} {stores : List (QueryEnabledStore κ)}
    (hdistinct : (stores.map QueryEnabledStore.number).Nodup)
    (h : n ∈ stores.map QueryEnabledStore.number) :
    closings n (stores.map closedOk) = [.ok ()] := by
  induction stores with
  | nil => cases h
  | cons store rest ih =>
    rw [List.map_cons, List.nodup_cons] at hdistinct
    have hcons : closings n ((store :: rest).map closedOk) =
        (if store.number = n then [.ok ()] else []) ++ closings n (rest.map closedOk) := by
      by_cases hn : store.number = n <;> simp [closings, closedOk, hn]
    rw [hcons]
    rcases List.mem_cons.mp h with rfl | hrest
    · have hnone : closings store.number (rest.map closedOk) = [] := by
        refine List.filterMap_eq_nil_iff.mpr fun e he => ?_
        obtain ⟨store', hstore', rfl⟩ := List.mem_map.mp he
        refine if_neg fun heq : store'.number = store.number => hdistinct.1 ?_
        exact heq ▸ List.mem_map_of_mem hstore'
      rw [hnone, if_pos rfl, List.append_nil]
    · have hne : store.number ≠ n := fun heq => hdistinct.1 (heq ▸ hrest)
      rw [if_neg hne, List.nil_append, ih hdistinct.2 hrest]

/-- Only stores that are held are closed. -/
theorem closings_of_held {n : Nat} {events : List StoreEvent}
    (hevents : ∀ e ∈ events, ∃ store ∈ s.stores, ∃ outcome, e = .closed store.number outcome)
    (h : closings n events ≠ []) : n ∈ s.stores.map QueryEnabledStore.number := by
  obtain ⟨outcome, houtcome⟩ := List.exists_mem_of_ne_nil _ h
  obtain ⟨e, he, heq⟩ := List.mem_filterMap.mp houtcome
  obtain ⟨store, hstore, outcome', rfl⟩ := hevents e he
  simp only [Option.ite_none_right_eq_some] at heq
  exact List.mem_map.mpr ⟨store, hstore, heq.1⟩

theorem openedNumbers_of_held {events : List StoreEvent}
    (hevents : ∀ e ∈ events, ∃ store ∈ s.stores, ∃ outcome, e = .closed store.number outcome) :
    openedNumbers events = [] := by
  refine List.filterMap_eq_nil_iff.mpr fun e he => ?_
  obtain ⟨store, -, outcome, rfl⟩ := hevents e he
  rfl

theorem Ledger.new : Ledger (new : QueryEnabledStoreCollection κ) where
  numbers := rfl
  distinct := List.nodup_nil
  held := List.forall_mem_nil _
  kept := List.forall_mem_nil _
  closed _ h := absurd rfl h

theorem Ledger.closing {events : List StoreEvent} (h : Ledger s)
    (hevents : ∀ e ∈ events, ∃ store ∈ s.stores, ∃ outcome, e = .closed store.number outcome) :
    Ledger { s with log := s.log ++ events } := by
  have hopened : openedNumbers (s.log ++ events) = openedNumbers s.log := by
    rw [openedNumbers_append, openedNumbers_of_held hevents, List.append_nil]
  refine ⟨?_, h.distinct, ?_, ?_, ?_⟩
  · exact hopened ▸ h.numbers
  · exact hopened ▸ h.held
  · intro n hn
    rcases h.kept n (hopened ▸ hn) with hheld | hclosed
    · exact .inl hheld
    · exact .inr (by rw [closings_append]; exact List.mem_append_left _ hclosed)
  · intro n hn
    show n ∈ openedNumbers (s.log ++ events)
    rw [hopened]
    by_cases hold : closings n s.log = []
    · rw [closings_append, hold, List.nil_append] at hn
      obtain ⟨store, hstore, rfl⟩ := List.mem_map.mp (closings_of_held hevents hn)
      exact h.held store hstore
    · exact h.closed n hold

/-- A store that is closed may be dropped. -/
theorem Ledger.emptied (h : Ledger s) : Ledger s.emptied := by
  have hclosing : Ledger { s with log := s.log ++ s.stores.map closedOk } := by
    refine h.closing fun e he => ?_
    obtain ⟨store, hstore, rfl⟩ := List.mem_map.mp he
    exact ⟨store, hstore, _, rfl⟩
  refine ⟨hclosing.numbers, List.nodup_nil, List.forall_mem_nil _, fun n hn => .inr ?_,
    hclosing.closed⟩
  rcases hclosing.kept n hn with hheld | hclosed
  · show .ok () ∈ closings n (s.log ++ s.stores.map closedOk)
    rw [closings_append]
    exact List.mem_append_right _ (ok_mem_closings_closedOk hheld)
  · exact hclosed

/-- A store that is opened gets a number that no store had. -/
theorem Ledger.opening (h : Ledger s) (classes : List κ) : Ledger (s.opening classes) := by
  have hopened := openedNumbers_opening s classes
  have hmap : (s.opening classes).stores.map QueryEnabledStore.number =
      s.stores.map QueryEnabledStore.number ++
        List.range' (openedNumbers s.log).length classes.length := by
    simp only [QueryEnabledStoreCollection.opening, List.map_append, map_number_numbered]
  have hclosings (n : Nat) : closings n (s.opening classes).log = closings n s.log := by
    rw [QueryEnabledStoreCollection.opening, closings_append, closings_opened, List.append_nil]
  have hlt {n : Nat} (hn : n ∈ s.stores.map QueryEnabledStore.number) :
      n < (openedNumbers s.log).length := by
    obtain ⟨store, hstore, rfl⟩ := List.mem_map.mp hn
    have hmem := h.held store hstore
    rw [h.numbers] at hmem
    exact List.mem_range.mp hmem
  refine ⟨?_, ?_, ?_, ?_, ?_⟩
  · rw [hopened, List.length_append, List.length_range', List.range_add, ← h.numbers,
      List.range'_eq_map_range]
  · rw [hmap]
    refine List.nodup_append.mpr ⟨h.distinct, List.nodup_range', fun n hn m hm heq => ?_⟩
    have hm := (List.mem_range'_1.mp hm).1
    have hn := hlt hn
    omega
  · intro store hstore
    have hmem : store.number ∈ (s.opening classes).stores.map QueryEnabledStore.number :=
      List.mem_map_of_mem hstore
    rw [hmap] at hmem
    rw [hopened]
    rcases List.mem_append.mp hmem with hold | hnew
    · obtain ⟨old, hold, heq⟩ := List.mem_map.mp hold
      exact List.mem_append_left _ (heq ▸ h.held old hold)
    · exact List.mem_append_right _ hnew
  · intro n hn
    rw [hopened] at hn
    rw [hmap, hclosings]
    rcases List.mem_append.mp hn with hold | hnew
    · exact (h.kept n hold).imp_left (List.mem_append_left _)
    · exact .inl (List.mem_append_right _ hnew)
  · intro n hn
    rw [hclosings] at hn
    rw [hopened]
    exact List.mem_append_left _ (h.closed n hn)

theorem Ledger.step (h : Ledger s) (op : Operation) :
    Ledger (QueryEnabledStoreCollection.step driver s op) := by
  rcases step_cases driver s op with ⟨events, hstep, hevents⟩ | ⟨classes, hstep⟩
  · exact hstep ▸ h.closing hevents
  · exact hstep ▸ h.emptied.opening classes

theorem Ledger.run (h : Ledger s) (ops : List Operation) :
    Ledger (Lib.run (QueryEnabledStoreCollection.step driver) s ops) :=
  run_invariant (fun _ op h => h.step op) h ops

/-- The store was opened and left the collection. -/
def HasLeft (s : QueryEnabledStoreCollection κ) (n : Nat) : Prop :=
  n ∈ openedNumbers s.log ∧ n ∉ s.stores.map QueryEnabledStore.number

/-- A store that has left stays outside, and is not closed again. -/
theorem HasLeft.step {n : Nat} (h : Ledger s) (hleft : s.HasLeft n) (op : Operation) :
    (QueryEnabledStoreCollection.step driver s op).HasLeft n ∧
      closings n (QueryEnabledStoreCollection.step driver s op).log = closings n s.log := by
  rcases step_cases driver s op with ⟨events, hstep, hevents⟩ | ⟨classes, hstep⟩
  · rw [hstep]
    refine ⟨⟨?_, hleft.2⟩, ?_⟩
    · show n ∈ openedNumbers (s.log ++ events)
      rw [openedNumbers_append]
      exact List.mem_append_left _ hleft.1
    · rw [closings_append, not_not.mp (mt (closings_of_held hevents) hleft.2), List.append_nil]
  · have hopened : openedNumbers s.emptied.log = openedNumbers s.log := by
      rw [QueryEnabledStoreCollection.emptied, openedNumbers_append, openedNumbers_closedOk,
        List.append_nil]
    have hlt : n < (openedNumbers s.log).length := by
      have hmem := hleft.1
      rw [h.numbers] at hmem
      exact List.mem_range.mp hmem
    rw [hstep]
    refine ⟨⟨?_, ?_⟩, ?_⟩
    · rw [openedNumbers_opening, hopened]
      exact List.mem_append_left _ hleft.1
    · show n ∉ ([] ++ numbered _ classes).map QueryEnabledStore.number
      rw [List.nil_append, map_number_numbered, hopened]
      exact fun hmem => Nat.not_lt.mpr (List.mem_range'_1.mp hmem).1 hlt
    · have hclosed : closings n (s.stores.map closedOk) = [] := by
        refine not_not.mp (mt (closings_of_held (s := s) fun e he => ?_) hleft.2)
        obtain ⟨store, hstore, rfl⟩ := List.mem_map.mp he
        exact ⟨store, hstore, _, rfl⟩
      rw [QueryEnabledStoreCollection.opening, closings_append, closings_opened,
        QueryEnabledStoreCollection.emptied, closings_append, hclosed, List.append_nil,
        List.append_nil]

theorem HasLeft.run {n : Nat} (h : Ledger s) (hleft : s.HasLeft n) (ops : List Operation) :
    (Lib.run (QueryEnabledStoreCollection.step driver) s ops).HasLeft n ∧
      closings n (Lib.run (QueryEnabledStoreCollection.step driver) s ops).log =
        closings n s.log := by
  have hstep (s' : QueryEnabledStoreCollection κ) (op : Operation)
      (h' : Ledger s' ∧ s'.HasLeft n ∧ closings n s'.log = closings n s.log) :
      let s'' := QueryEnabledStoreCollection.step driver s' op
      Ledger s'' ∧ s''.HasLeft n ∧ closings n s''.log = closings n s.log := by
    obtain ⟨hledger, hleft', hclosings⟩ := h'
    obtain ⟨hstays, heq⟩ := hleft'.step hledger op
    exact ⟨hledger.step op, hstays, heq.trans hclosings⟩
  exact (run_invariant hstep ⟨h, hleft, rfl⟩ ops).2

theorem mem_of_storeFor {socket : S} {store : QueryEnabledStore κ}
    (h : storeFor driver s socket = some store) : store ∈ s.stores := by
  unfold storeFor at h
  split at h
  · cases h
  · exact List.mem_of_find?_eq_some h

/-- However loading and closing are called and whichever stores raise, a store leaves the collection
only after its `close` has returned, and is neither touched nor handed out again. -/
theorem store_leaves_once (driver : StoreDriver κ S) (ops ops' : List Operation) :
    Ledger (run (step driver) new ops) ∧
      (∀ n, (run (step driver) new ops).HasLeft n →
        .ok () ∈ closings n (run (step driver) new ops).log ∧
        closings n (run (step driver) new (ops ++ ops')).log =
          closings n (run (step driver) new ops).log) ∧
      ∀ socket store, storeFor driver (run (step driver) new (ops ++ ops')) socket = some store →
        ¬ (run (step driver) new ops).HasLeft store.number := by
  have hledger : Ledger (run (step driver) new ops) := Ledger.new.run ops
  rw [run_append]
  refine ⟨hledger, fun n hleft => ?_, fun socket store hstore hleft => ?_⟩
  · exact ⟨(hledger.kept n hleft.1).resolve_left hleft.2, (hleft.run hledger ops').2⟩
  · exact (hleft.run hledger ops').1.2 (List.mem_map_of_mem (mem_of_storeFor hstore))

end QueryEnabledStoreCollection

/-! ### The stores of a run -/

/-- A run of an application with its stores. -/
structure StoreRun (κ S α O X F : Type) where
  driver : StoreDriver κ S
  app : Application α O X F
  /-- the outcome of the download of the payload -/
  response : Except PyExc ByteArray
  /-- the stages apart from `bootstrap` and the closing of the stores -/
  others : Stages

namespace StoreRun

open QueryEnabledStoreCollection

variable {κ S α O X F : Type} (r : StoreRun κ S α O X F)

/-- The application, whose stores are loaded into a collection of their own. -/
def application : Application α O X F :=
  { r.app with
    services := { r.app.services with
      loadStores := fun storeConnections =>
        outcome (loadStores r.driver storeConnections) new } }

/-- `QueryEnabledStoreCollectionFactory.get_collection`: the collection that it leaves. -/
def loaded : QueryEnabledStoreCollection κ :=
  if r.app.startModel.queryEnabledStore.enabled then
    after (loadStores r.driver r.app.startModel.queryEnabledStore.storeConnections) new
  else new

def stages : Stages :=
  { r.others with
    bootstrap := (r.application.bootstrap r.response).outcome.map fun _ => ()
    closeStores := outcome (close r.driver) r.loaded }

/-- The collection at the end of the run. -/
def final : QueryEnabledStoreCollection κ :=
  match firstError [r.others.load, r.others.enter] with
  | .error _ => new
  | .ok () =>
    match firstError r.stages.untilStores with
    | .error _ => r.loaded
    | .ok () => after (close r.driver) r.loaded

/-- Every store that was opened was closed exactly once. -/
def AllClosed (s : QueryEnabledStoreCollection κ) : Prop :=
  ∀ n ∈ openedNumbers s.log, closings n s.log = [.ok ()]

theorem exists_loaded (r : StoreRun κ S α O X F) : ∃ classes, r.loaded = new.opening classes := by
  unfold loaded
  split
  · refine after_of_ends (P := fun s => ∃ classes, s = new.opening classes) ?_
    refine (loadStores_ends r.driver _ new).mono ?_ ?_
    · rintro _ s ⟨classes, -, rfl⟩
      exact ⟨classes, rfl⟩
    · rintro e s (⟨done, store, rest, hstores, -⟩ | ⟨classes, -, rfl⟩)
      · cases done <;> cases hstores
      · exact ⟨classes, rfl⟩
  · exact ⟨[], (opening_nil new).symm⟩

/-- The stores that were opened are those that the collection holds, and none was closed. -/
theorem loaded_spec (r : StoreRun κ S α O X F) :
    openedNumbers r.loaded.log = r.loaded.stores.map QueryEnabledStore.number ∧
      (r.loaded.stores.map QueryEnabledStore.number).Nodup ∧
      ∀ n, closings n r.loaded.log = [] := by
  obtain ⟨classes, hloaded⟩ := r.exists_loaded
  have hledger : Ledger r.loaded := hloaded ▸ Ledger.new.opening classes
  refine ⟨?_, hledger.distinct, fun n => ?_⟩
  · rw [hloaded, openedNumbers_opening]
    simp only [opening, List.map_append, map_number_numbered]
    rfl
  · rw [hloaded]
    simp only [opening, closings_append, closings_opened]
    rfl

/-- The closing of the stores at the end of a run that reaches it. -/
theorem close_loaded (r : StoreRun κ S α O X F) :
    (r.stages.closeStores = .ok () ∧ after (close r.driver) r.loaded =
        { r.loaded with log := r.loaded.log ++ r.loaded.stores.map closedOk }) ∨
      ∃ e done store rest, r.stages.closeStores = .error e ∧
        r.loaded.stores = done ++ store :: rest ∧ after (close r.driver) r.loaded =
          { r.loaded with log := r.loaded.log ++
              (done.map closedOk ++ [.closed store.number (.error e)]) } := by
  have hends := close_ends r.driver r.loaded
  simp only [stages, outcome, after]
  unfold Ends at hends
  cases hrun : close r.driver r.loaded with
  | ok _ s =>
    rw [hrun] at hends
    exact .inl ⟨rfl, hends⟩
  | error e s =>
    rw [hrun] at hends
    obtain ⟨done, store, rest, hstores, rfl⟩ := hends
    exact .inr ⟨e, done, store, rest, rfl, hstores, by simp only [List.append_assoc]⟩

theorem closings_final_of_unreached {r : StoreRun κ S α O X F} {exit : Exit}
    (h : firstError r.stages.untilStores = .error exit) (n : Nat) :
    closings n r.final.log = [] := by
  unfold final
  cases firstError [r.others.load, r.others.enter] with
  | error e => rfl
  | ok _ => simpa only [h] using r.loaded_spec.2.2 n

theorem final_of_reached {r : StoreRun κ S α O X F}
    (h : firstError r.stages.untilStores = .ok ()) :
    r.final = after (close r.driver) r.loaded := by
  obtain ⟨hload, henter, -⟩ := untilStores_eq_ok.mp h
  have hstart : firstError [r.others.load, r.others.enter] = .ok () := by
    rw [show r.others.load = .ok () from hload, show r.others.enter = .ok () from henter]
    rfl
  simp only [final, hstart, h]

/-- A run closes all the stores that it opened exactly if it opened none, or if it reaches their
closing and none raises; a run that returns does. -/
theorem stores_closed_iff (r : StoreRun κ S α O X F) :
    (AllClosed r.final ↔ openedNumbers r.final.log = [] ∨
      firstError r.stages.untilStores = .ok () ∧ r.stages.closeStores = .ok ()) ∧
    ((activate r.stages).outcome = .ok () → AllClosed r.final) := by
  obtain ⟨hopened, hdistinct, hunclosed⟩ := r.loaded_spec
  have hnothing (h : openedNumbers r.final.log = []) : AllClosed r.final := by
    intro n hn
    rw [h] at hn
    cases hn
  cases huntil : firstError r.stages.untilStores with
  | error exit =>
    refine ⟨⟨fun h => .inl ?_, fun h => hnothing (by simpa using h)⟩, fun h => ?_⟩
    · refine List.eq_nil_iff_forall_not_mem.mpr fun n hn => ?_
      exact absurd ((closings_final_of_unreached huntil n).symm.trans (h n hn)) (by simp)
    · exact absurd h (activate_of_unreached huntil (.ok ())).2
  | ok _ =>
    rcases r.close_loaded with
      ⟨houtcome, hafter⟩ | ⟨e, done, store, rest, houtcome, hstores, hafter⟩
    · have hclosed : AllClosed r.final := by
        rw [final_of_reached huntil, hafter]
        intro n hn
        rw [openedNumbers_append, openedNumbers_closedOk, List.append_nil, hopened] at hn
        rw [closings_append, hunclosed, closings_closedOk hdistinct hn]
        rfl
      exact ⟨iff_of_true hclosed (.inr ⟨rfl, houtcome⟩), fun _ => hclosed⟩
    -- the store that raised was opened, and its only closing is not a return
    · have hmem : store.number ∈ openedNumbers r.final.log := by
        rw [final_of_reached huntil, hafter, openedNumbers_append, hopened, hstores]
        simp
      have hunclosed : ¬ AllClosed r.final := by
        intro h
        have hraised : .error e ∈ closings store.number r.final.log := by
          rw [final_of_reached huntil, hafter, closings_append, closings_append]
          simp [closings]
        rw [h store.number hmem] at hraised
        simp at hraised
      refine ⟨iff_of_false hunclosed ?_, fun h => ?_⟩
      · rintro (hnone | ⟨-, houtcome'⟩)
        · rw [hnone] at hmem
          cases hmem
        · exact absurd (houtcome.symm.trans houtcome') (by simp)
      · rw [activate_of_reached huntil, houtcome] at h
        obtain ⟨exit, hexit⟩ := leaving_error r.stages (.raised e)
        exact absurd (hexit.symm.trans h) (by simp)

end StoreRun

end NexusSdk.Core
