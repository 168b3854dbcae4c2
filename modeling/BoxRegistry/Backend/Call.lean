import BoxRegistry.Lifecycle.Record
import BoxRegistry.Spec
import BoxRegistry.Time.Span

namespace BoxRegistry

/--
What is asked of a backend. It is also told when a process is no longer of interest, which takes no
answer and is an `Effect.release`.
-/
inductive Call where
  | launch (order : LaunchOrder)
  | terminate (pid : Pid) (force : Bool)
  | wait (pid : Pid)
  | pause (pid : Pid)
  | resume (pid : Pid)
deriving DecidableEq, Repr, Inhabited

inductive Reply where
  | done
  | launched (pid : Pid)
  | ended (how : ProcessEnd)
  | failed (fault : Fault)
  | panicked (message : String)
  -- The backend did not answer within the bound of the call.
  | late
deriving DecidableEq, Repr, Inhabited

inductive Bound where
  | unlimited
  | within (span : Time.Span)
  -- For what is left of the time that the previous call of the same operation was given.
  | remaining
deriving DecidableEq, Repr, Inhabited

end BoxRegistry
