import MultiClaw.Workflow.Models

/-! Assignments to agents and to teams of agents: their statuses and their validated requests. -/
namespace MultiClaw

inductive JobStatus where
  | queued
  | running
  | awaitingUser
  | completed
  | failed
  | cancelled
  | interrupted
  deriving DecidableEq, Repr

/-- `TERMINAL_JOBS`. -/
def JobStatus.isTerminal : JobStatus → Bool
  | .completed | .failed | .cancelled => true
  | _ => false

inductive TeamStatus where
  | active
  | completed
  | failed
  | cancelled
  deriving DecidableEq, Repr

inductive TaskStatus where
  | pending
  | running
  | completed
  | failed
  | cancelled
  deriving DecidableEq, Repr

def TaskStatus.isTerminal : TaskStatus → Bool
  | .completed | .failed | .cancelled => true
  | _ => false

def TaskStatus.value : TaskStatus → String
  | .pending => "pending"
  | .running => "running"
  | .completed => "completed"
  | .failed => "failed"
  | .cancelled => "cancelled"

/-- The status that a task takes over from its finished job. -/
def JobStatus.taskStatus? : JobStatus → Option TaskStatus
  | .completed => some .completed
  | .failed => some .failed
  | .cancelled => some .cancelled
  | _ => none

inductive MemberRole where
  | leader
  | member
  deriving DecidableEq, Repr

inductive AgentProfile where
  | reader
  | writer
  deriving DecidableEq, Repr

structure AgentRequest where
  goal : String
  context : String := ""
  profile : AgentProfile := .reader
  model : Option String := none
  projectPath : String := "."
  instructions : String := ""
  deriving DecidableEq, Repr

/-- The field constraints of `AgentRequest`. -/
def AgentRequest.isValid (r : AgentRequest) : Bool :=
  1 ≤ r.goal.length && r.goal.length ≤ 12000 && r.context.length ≤ 16000 &&
    r.model.all (fun m => 1 ≤ m.length && m.length ≤ 255) &&
    1 ≤ r.projectPath.length && r.projectPath.length ≤ 1000 && r.instructions.length ≤ 8000

structure MemberRequest where
  name : String
  role : MemberRole := .member
  profile : AgentProfile := .reader
  model : Option String := none
  instructions : String := ""
  deriving DecidableEq, Repr

def isNameChar (c : Char) : Bool :=
  'a' ≤ c && c ≤ 'z' || 'A' ≤ c && c ≤ 'Z' || '0' ≤ c && c ≤ '9' || c == '_' || c == '-'

/-- The field constraints of `MemberRequest`; a model may be the empty string. -/
def MemberRequest.isValid (r : MemberRequest) : Bool :=
  1 ≤ r.name.length && r.name.length ≤ 80 && r.name.toList.all isNameChar &&
    r.model.all (·.length ≤ 255) && r.instructions.length ≤ 8000

structure TeamRequest where
  objective : String
  members : List MemberRequest
  projectPath : String := "."
  deriving DecidableEq, Repr

def TeamRequest.isValid (r : TeamRequest) : Bool :=
  1 ≤ r.objective.length && r.objective.length ≤ 12000 &&
    2 ≤ r.members.length && r.members.length ≤ 6 && r.members.all (·.isValid) &&
    1 ≤ r.projectPath.length && r.projectPath.length ≤ 1000 &&
    decide (r.members.map (·.name)).Nodup && r.members.countP (·.role = .leader) == 1

/-- What an executor reports about its assignment, as far as it is read again. -/
structure JobResult where
  summary : Option String := none
  deriving DecidableEq, Repr

/-- `{**result, **other}`. -/
def JobResult.merge (result other : JobResult) : JobResult := ⟨other.summary.or result.summary⟩

structure TeamConfig where
  projectPath : String
  finalJobId : Option String := none
  summary : Option String := none
  deriving DecidableEq, Repr

end MultiClaw
