import ShaderNodes.Graph.Basic
import ShaderNodes.Skip

/-!
# Events

What an operation reports beside its result, for a log.
-/

namespace ShaderNodes

/-- How much attention an event asks for. -/
inductive Level where
  | warn
  | debug
  | trace
  deriving DecidableEq, Repr

def Level.label : Level → String
  | .warn => "warn"
  | .debug => "debug"
  | .trace => "trace"

/-- Something worth a line in a log. -/
inductive Event where
  /-- A kind took the place of another of its name. -/
  | kindReplaced (kind : Name)
  /-- A shared function was there already. -/
  | functionShared (name : Name)
  /-- A graph has not exactly one sink. -/
  | sinksCounted (count : Nat)
  | passStarted (number : UInt64) (nodes : Nat)
  | nodeEvaluated (id : NodeId) (kind : Name) (outputs : Nat)
  | nodeSkipped (id : NodeId) (kind : Name) (skip : Skip)
  | passCompleted (number : UInt64) (statements : Nat)
  | passAborted (number : UInt64) (visited total : Nat)
  deriving DecidableEq, Repr

namespace Event

def level : Event → Level
  | kindReplaced _ | sinksCounted _ => .warn
  | functionShared _ | nodeEvaluated _ _ _ => .trace
  | passStarted _ _ | nodeSkipped _ _ _ | passCompleted _ _ | passAborted _ _ _ => .debug

def message : Event → String
  | kindReplaced kind => "Node kind `" ++ kind ++ "` registered twice, keeping the latest"
  | functionShared name => "Shared function `" ++ name ++ "` already registered"
  | sinksCounted count =>
    "Graph has " ++ toString count ++ " sink nodes, expected exactly one"
  | passStarted number nodes =>
    "Starting pass " ++ toString number ++ " over " ++ toString nodes ++ " nodes"
  | nodeEvaluated id kind outputs =>
    "Evaluated `" ++ id ++ "` (" ++ kind ++ "): " ++ toString outputs ++ " outputs"
  | nodeSkipped id kind skip => "Skipping `" ++ id ++ "` (" ++ kind ++ "): " ++ skip.message
  | passCompleted number statements =>
    "Completed pass " ++ toString number ++ " with " ++ toString statements ++ " statements"
  | passAborted number visited total =>
    "Aborting pass " ++ toString number ++ " after " ++ toString visited ++ "/" ++ toString total
      ++ " nodes"

end Event

end ShaderNodes
