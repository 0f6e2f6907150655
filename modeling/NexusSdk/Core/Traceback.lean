import NexusSdk.Core.Report

/-! What `traceback.format_exception` prints of an exception and of those that caused it, and what a
completion carries of it. -/

namespace NexusSdk

/-- `origin` is `e` itself, perhaps before it got a context, or is reached from it by following
causes. -/
inductive PyExc.LeadsTo : PyExc → PyExc → Prop
  | refl (e : PyExc) : LeadsTo e e
  | during {e origin : PyExc} (context : PyExc) (h : LeadsTo e origin) :
      LeadsTo (e.during context) origin
  | cause {e origin : PyExc} (cls : PyClass) (arg : String) (h : LeadsTo e origin) :
      LeadsTo (.raisedFrom cls arg e) origin

namespace Core

open Lib

section Format

-- the printed stack of an exception, and its `str`
variable (stack str : PyExc → String)

/-- The last line of a traceback. -/
def exceptionOnly (e : PyExc) : String :=
  e.cls.name ++ (if str e = "" then "" else ": " ++ str e) ++ "\n"

/-- An exception by itself. -/
def printed (e : PyExc) : String := stack e ++ exceptionOnly str e

def causeMessage : String :=
  "\nThe above exception was the direct cause of the following exception:\n\n"

def contextMessage : String :=
  "\nDuring handling of the above exception, another exception occurred:\n\n"

/-- `"".join(traceback.format_exception(e))`.  A context is not printed where there is a cause. -/
def formatException : PyExc → String
  | .raised cls arg => printed stack str (.raised cls arg)
  | .raisedFrom cls arg cause =>
    formatException cause ++ causeMessage ++ printed stack str (.raisedFrom cls arg cause)
  | .during e context =>
    if e.cause.isSome then formatException e
    else formatException context ++ contextMessage ++ formatException e

theorem formatException_during (e context : PyExc) :
    ∃ before, formatException stack str (e.during context) =
      before ++ formatException stack str e := by
  rw [formatException]
  split
  · exact ⟨"", by rw [String.empty_append]⟩
  · exact ⟨_, rfl⟩

theorem formatException_ends (e : PyExc) :
    ∃ before, formatException stack str e = before ++ printed stack str e.bare := by
  induction e with
  | raised cls arg => exact ⟨"", by rw [String.empty_append]; rfl⟩
  | raisedFrom cls arg cause _ => exact ⟨_, rfl⟩
  | during e context ih _ =>
    obtain ⟨before, hbefore⟩ := formatException_during stack str e context
    obtain ⟨first, hfirst⟩ := ih
    exact ⟨before ++ first, by rw [hbefore, hfirst, PyExc.bare_during, String.append_assoc]⟩

theorem formatException_ne_empty (e : PyExc) : formatException stack str e ≠ "" := by
  obtain ⟨before, hbefore⟩ := formatException_ends stack str e
  intro hempty
  have hchars := congrArg String.toList (hbefore.symm.trans hempty)
  simp [printed, exceptionOnly] at hchars

/-- The traceback of an exception contains every exception to which it leads. -/
theorem printed_in_formatException {e origin : PyExc} (h : e.LeadsTo origin) :
    ∃ before after,
      formatException stack str e = before ++ printed stack str origin.bare ++ after := by
  induction h with
  | refl e =>
    obtain ⟨before, hbefore⟩ := formatException_ends stack str e
    exact ⟨before, "", by rw [hbefore, String.append_empty]⟩
  | @during e _ context _ ih =>
    obtain ⟨first, hfirst⟩ := formatException_during stack str e context
    obtain ⟨before, after, h⟩ := ih
    refine ⟨first ++ before, after, ?_⟩
    rw [hfirst, h]
    simp only [String.append_assoc]
  | @cause e _ cls arg _ ih =>
    obtain ⟨before, after, h⟩ := ih
    refine ⟨before, after ++ (causeMessage ++ printed stack str (.raisedFrom cls arg e)), ?_⟩
    rw [formatException, h]
    simp only [String.append_assoc]

end Format

/-! ### The details of a completion -/

variable {env : Stages} {r : PyExc} {c : Completion}

/-- The only completion after a failed task is that of its exception, which is truthy. -/
theorem completion_of_failed (hran : env.TaskRan) (hrun : env.run = .error r)
    (hc : c ∈ completions (activate env).events) : c = .error r ∧ r.truthy = true := by
  have htruth := completions_truthful env c hc
  have heq : c = .error r := by
    cases c with
    | result uri => exact absurd (hrun.symm.trans htruth.2.1) (by simp)
    | error e =>
      rcases htruth with ⟨hboot, -⟩ | ⟨-, hrun', -⟩
      · exact absurd (hboot.symm.trans (hran _ (by simp))) (by simp)
      · rw [Except.error.inj (hrun.symm.trans hrun')]
  refine ⟨heq, ?_⟩
  obtain ⟨accepted, hmem⟩ := mem_completions.mp hc
  rw [activate_of_taskRan hran, events_withExit] at hmem
  rcases runAlgorithm_cases env with ⟨exit, -, hraise⟩ | ⟨ex, -, htask, -⟩
  · rw [hraise] at hmem
    simp [Traced.raise] at hmem
  · cases htruthy : r.truthy with
    | true => rfl
    | false =>
      rw [hrun] at htask
      simp only [taskStage, htruthy, Bool.not_false, Bool.or_true, if_true] at htask
      split at htask <;> cases htask

/-- The details that are sent for a failed task are the traceback of its exception. -/
theorem errorDetails_of_failed (stack str : PyExc → String) (hran : env.TaskRan)
    (hrun : env.run = .error r) (hc : c ∈ completions (activate env).events) :
    (c.submitted str (formatException stack str)).errorDetails =
      some (formatException stack str r) := by
  obtain ⟨rfl, htruthy⟩ := completion_of_failed hran hrun hc
  simp [Completion.submitted, SdkCompletedRunResult.create, Option.filter, htruthy, nonEmpty,
    formatException_ne_empty stack str r]

end Core

end NexusSdk
