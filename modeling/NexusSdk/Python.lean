import Mathlib.Data.List.Basic

/-! The parts of Python on which the SDK's error handling rests: exception classes with their method
resolution order, exceptions with their cause and context, and `isinstance`. -/

namespace NexusSdk

/-- An exception class: its qualified name and the qualified names of the classes of its `__mro__`,
itself among them. -/
structure PyClass where
  name : String
  mro : List String
  self_mem : name ∈ mro
  /-- Whether the constructor takes a single positional argument. -/
  takesOneArgument : Bool
  /-- The truth value of its instances. -/
  truthy : Bool
  deriving DecidableEq

namespace PyClass

/-- `class name(*bases)`, with a constructor of one argument. -/
def extend (name : String) (bases : List PyClass) : PyClass where
  name := name
  mro := name :: bases.flatMap mro
  self_mem := List.mem_cons_self
  takesOneArgument := true
  truthy := true

def isSubclass (c d : PyClass) : Bool := decide (d.name ∈ c.mro)

@[simp] theorem isSubclass_self (c : PyClass) : c.isSubclass c = true := by
  simp [isSubclass, c.self_mem]

end PyClass

def baseException : PyClass := .extend "BaseException" []
def exception : PyClass := .extend "Exception" [baseException]
def runtimeError : PyClass := .extend "RuntimeError" [exception]
def typeError : PyClass := .extend "TypeError" [exception]
def attributeError : PyClass := .extend "AttributeError" [exception]
def valueError : PyClass := .extend "ValueError" [exception]
def unicodeDecodeError : PyClass :=
  { PyClass.extend "UnicodeDecodeError" [.extend "UnicodeError" [valueError]] with
    takesOneArgument := false }
def keyError : PyClass := .extend "KeyError" [.extend "LookupError" [exception]]
def stopIteration : PyClass := .extend "StopIteration" [exception]
def systemExit : PyClass := .extend "SystemExit" [baseException]
def keyboardInterrupt : PyClass := .extend "KeyboardInterrupt" [baseException]
def cancelledError : PyClass := .extend "asyncio.exceptions.CancelledError" [baseException]

/-- An exception with its chain: `raised` has neither cause nor context, `raisedFrom` was raised
with `raise ... from cause`, and `during e context` is `e` with `context` as its `__context__`. -/
inductive PyExc
  | raised (cls : PyClass) (arg : String)
  | raisedFrom (cls : PyClass) (arg : String) (cause : PyExc)
  | during (e context : PyExc)
  deriving DecidableEq

namespace PyExc

/-- `type(e)`. -/
def cls : PyExc → PyClass
  | raised c _ => c
  | raisedFrom c _ _ => c
  | during e _ => e.cls

/-- The argument with which `e` was constructed. -/
def arg : PyExc → String
  | raised _ a => a
  | raisedFrom _ a _ => a
  | during e _ => e.arg

def cause : PyExc → Option PyExc
  | raised _ _ => none
  | raisedFrom _ _ e => some e
  | during e _ => e.cause

def isInstance (e : PyExc) (c : PyClass) : Bool := e.cls.isSubclass c

/-- `e is c`: an exception object is not the object of a class. -/
def isObject (_e : PyExc) (_c : PyClass) : Bool := false

def truthy (e : PyExc) : Bool := e.cls.truthy

/-- `asyncio` marks a task that ends with such an exception as cancelled. -/
def isCancelled (e : PyExc) : Bool := e.isInstance cancelledError

/-- The exception of `raise cls(arg)`. -/
def new (c : PyClass) (a : String) : PyExc :=
  if c.takesOneArgument then raised c a else raised typeError c.name

/-- The exception that `asyncio` makes where none is stored. -/
def newCancelled : PyExc := raised cancelledError ""

/-- The exception without the contexts in which it was raised. -/
def bare : PyExc → PyExc
  | during e _ => e.bare
  | e => e

/-- The exception without contexts, its causes without theirs. -/
def plain : PyExc → PyExc
  | raised c a => raised c a
  | raisedFrom c a e => raisedFrom c a e.plain
  | during e _ => e.plain

@[simp] theorem cls_raised (c : PyClass) (a : String) : (raised c a).cls = c := rfl

@[simp] theorem bare_during (e context : PyExc) : (e.during context).bare = e.bare := rfl

@[simp] theorem plain_during (e context : PyExc) : (e.during context).plain = e.plain := rfl

@[simp] theorem isInstance_during (e context : PyExc) (c : PyClass) :
    (e.during context).isInstance c = e.isInstance c := rfl

@[simp] theorem cls_plain (e : PyExc) : e.plain.cls = e.cls := by
  induction e with
  | during e _ ih _ => exact ih
  | _ => rfl

@[simp] theorem isInstance_plain (e : PyExc) (c : PyClass) :
    e.plain.isInstance c = e.isInstance c := congrArg (·.isSubclass c) e.cls_plain

/-! ### Coroutines and `StopIteration` -/

/-- The `RuntimeError` in the place of a `StopIteration`. -/
def replaceStopIteration (message : String) (e : PyExc) : PyExc :=
  if e.isInstance stopIteration then .raisedFrom runtimeError message e else e

/-- What leaves a coroutine whose body raises `e`. -/
def leavingCoroutine : PyExc → PyExc := replaceStopIteration "coroutine raised StopIteration"

/-- What a future raises for a callable that raises `e` in a thread; before Python 3.12, the future
of a `StopIteration` is never done. -/
def throughFuture : PyExc → PyExc :=
  replaceStopIteration
    "StopIteration interacts badly with generators and cannot be raised into a Future"

variable {message : String} {e : PyExc}

theorem replaceStopIteration_of_not (h : e.isInstance stopIteration = false) :
    e.replaceStopIteration message = e := if_neg (by simp [h])

@[simp] theorem not_stopIteration_replaced (message : String) (e : PyExc) :
    (e.replaceStopIteration message).isInstance stopIteration = false := by
  unfold replaceStopIteration
  split
  · rfl
  · next h => simpa using h

theorem cls_replaceStopIteration (h : e.isInstance stopIteration = true) :
    (e.replaceStopIteration message).cls = runtimeError := by
  rw [replaceStopIteration, if_pos h]
  rfl

/-- No `StopIteration` comes through a future. -/
@[simp] theorem leavingCoroutine_throughFuture (e : PyExc) :
    e.throughFuture.leavingCoroutine = e.throughFuture :=
  replaceStopIteration_of_not (not_stopIteration_replaced _ e)

/-- An instance of a class that `RuntimeError` is not below has not been replaced. -/
theorem isInstance_replaced {c : PyClass} (hc : runtimeError.isSubclass c = false)
    (h : (e.replaceStopIteration message).isInstance c = true) :
    e.isInstance stopIteration = false ∧ e.isInstance c = true := by
  unfold replaceStopIteration at h
  cases hstop : e.isInstance stopIteration with
  | true =>
    rw [hstop] at h
    exact absurd h (by simp [isInstance, cls, hc])
  | false =>
    rw [hstop] at h
    exact ⟨rfl, h⟩

/-- The replacement does not look at contexts. -/
theorem plain_replaceStopIteration (message : String) (e : PyExc) :
    (e.replaceStopIteration message).plain = e.plain.replaceStopIteration message := by
  unfold replaceStopIteration
  rw [isInstance_plain]
  split <;> rfl

end PyExc

/-- A sequence of two computations returns if both do. -/
theorem bind_eq_ok {α β : Type} {x : Except PyExc α} {f : α → Except PyExc β} {b : β} :
    x >>= f = .ok b ↔ ∃ a, x = .ok a ∧ f a = .ok b := by
  cases x with
  | error e => simp [bind, Except.bind]
  | ok a => simp [bind, Except.bind]

/-- The exception of `None.name`. -/
def noneHasNo (name : String) : PyExc :=
  .raised attributeError s!"'NoneType' object has no attribute '{name}'"

/-! ### Bytes -/

def invalidUtf8 : PyExc := .raised unicodeDecodeError "utf-8"

/-- `b.decode()`. -/
def decodeUtf8 (b : ByteArray) : Except PyExc String :=
  match String.fromUTF8? b with
  | some s => .ok s
  | none => .error invalidUtf8

theorem decodeUtf8_toUTF8 (s : String) : decodeUtf8 s.toUTF8 = .ok s := by
  have hvalid : s.toUTF8.IsValidUTF8 := s.isValidUTF8
  simp only [decodeUtf8, String.fromUTF8?, dif_pos hvalid]
  rfl

end NexusSdk
