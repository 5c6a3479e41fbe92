import Componentry.Json.Basic
/-!
# The control thread

All changes of a tree are jobs of one thread, which runs them one at a time.  A job that asks for
another job from inside runs it inline, so that it never waits for itself.  A job that panics has no
answer and takes the job around it along; the thread goes on with the next one.
-/

namespace Componentry.ControlThread

/-- The name of the thread. -/
def threadName : String := "ignite-control"

/-- What a job does. -/
inductive Job where
  /-- Answers with a value. -/
  | give (value : Json)
  /-- Answers whether it runs on the control thread. -/
  | isCurrent
  /-- Answers with the name of the thread that it runs on. -/
  | threadName
  | panic
  /-- Answers with the answers of two jobs, the second of which it runs from inside. -/
  | both (first second : Job)

/-- Why a job has no answer. -/
inductive Fault where
  | panicked
  deriving DecidableEq, Repr

/-- The wording of a fault. -/
def Fault.message : Fault → String
  | .panicked => "control task panicked before replying"

/-- Runs a job on the thread. -/
def run : Job → Except Fault Json
  | .give value => .ok value
  | .isCurrent => .ok (.bool true)
  | .threadName => .ok (.string ControlThread.threadName)
  | .panic => .error .panicked
  | .both first second => do return .array [← run first, ← run second]

/-- Runs jobs one after the other. -/
def runAll (jobs : List Job) : List (Except Fault Json) := jobs.map run

end Componentry.ControlThread
