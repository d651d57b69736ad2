import MultiClaw.Workflow.Models

/-! What the background run manager admits: setups, producers and queues of sessions. -/
namespace MultiClaw

structure SessionKey where
  tenantId : String
  workspaceId : String
  sessionId : String
  deriving DecidableEq, Repr

def RunScope.sessionKey (run : RunScope) : SessionKey :=
  ⟨run.tenantId, run.workspaceId, run.sessionId⟩

inductive AdmissionError where
  | http (status : Nat) (detail : String)
  | value (message : String)
  deriving DecidableEq, Repr

def sessionKey (context : TenantContext) : Except AdmissionError SessionKey :=
  match context.sessionId.filter (· ≠ "") with
  | none => .error (.value "session is required")
  | some sessionId => .ok ⟨context.tenantId, context.workspaceId, sessionId⟩

def runKey (context : TenantContext) : Except AdmissionError RunScope :=
  match context.sessionId.filter (· ≠ ""), context.runId.filter (· ≠ "") with
  | some sessionId, some runId => .ok ⟨context.tenantId, context.workspaceId, sessionId, runId⟩
  | _, _ => .error (.value "session and run are required")

structure RunManager where
  maxQueue : Nat
  producers : List RunScope
  setups : List SessionKey
  queues : List (SessionKey × List String)
  queueWorkers : List SessionKey
  closed : Bool
  revoked : List String
  admitted : List SessionKey
  deriving DecidableEq

namespace RunManager

def new (maxQueue : Nat) : RunManager := ⟨maxQueue, [], [], [], [], false, [], []⟩

/-- `HTTPException(503, 'runtime temporarily unavailable')` -/
def unavailable : AdmissionError := .http 503 "runtime temporarily unavailable"

variable (m : RunManager) (context : TenantContext)

def refuses : Bool := m.closed || m.revoked.contains context.tenantId

def queue (key : SessionKey) : List String := (m.queues.lookup key).getD []

def activeSession (key : SessionKey) : Bool :=
  m.setups.contains key || m.producers.any (·.sessionKey == key)

def startQueueWorker (key : SessionKey) : RunManager :=
  if m.closed || m.revoked.contains key.tenantId || m.activeSession key ||
      m.admitted.contains key then m
  else if m.queue key ≠ [] ∧ key ∉ m.queueWorkers then
    { m with queueWorkers := key :: m.queueWorkers }
  else m

def releaseSession (key : SessionKey) : RunManager :=
  startQueueWorker { m with admitted := m.admitted.filter (· ≠ key) } key

def runSetup (releaseAdmission : Bool) : Except AdmissionError Unit × RunManager :=
  match sessionKey context with
  | .error e => (.error (if m.refuses context && !releaseAdmission then unavailable else e), m)
  | .ok key =>
    if m.refuses context then
      (.error unavailable, if releaseAdmission then m.releaseSession key else m)
    else if key ∈ m.setups then (.error (.http 409 "session setup is already executing"), m)
    else (.ok (), { m with setups := key :: m.setups })

def start : Except AdmissionError Unit × RunManager :=
  if m.refuses context then (.error unavailable, m)
  else match runKey context with
    | .error e => (.error e, m)
    | .ok key =>
      if key ∈ m.producers then (.error (.http 409 "run is already executing"), m)
      else (.ok (), { m with producers := key :: m.producers })

def setQueue (key : SessionKey) (ids : List String) : RunManager :=
  { m with queues := (key, ids) :: m.queues.filter (·.1 ≠ key) }

def enqueue (queueId : String) : Except AdmissionError Unit × RunManager :=
  if m.refuses context then (.error unavailable, m)
  else match sessionKey context with
    | .error e => (.error e, m)
    | .ok key =>
      if m.maxQueue ≤ (m.queue key).length then (.error (.http 429 "session queue is full"), m)
      else (.ok (), (m.setQueue key (m.queue key ++ [queueId])).startQueueWorker key)

def queueMessage (queueId : String) : Except AdmissionError Unit × RunManager :=
  match sessionKey context with
  | .error e => (.error e, m)
  | .ok key =>
    if m.refuses context then (.error unavailable, m)
    else if m.maxQueue ≤ (m.queue key).length then
      (.error (.http 429 "session queue is full"), m)
    else m.enqueue context queueId

/-- The sessions of a tenant are cancelled one by one: their queues, setups and producers. -/
def revoke (tenantId : String) : RunManager :=
  let cancelled := fun key : SessionKey => key.tenantId == tenantId &&
    (m.activeSession key || m.queues.any (·.1 == key))
  { m with
    revoked := if tenantId ∈ m.revoked then m.revoked else tenantId :: m.revoked
    queues := m.queues.filter fun q => !cancelled q.1
    setups := m.setups.filter fun key => !cancelled key
    queueWorkers := m.queueWorkers.filter fun key => !cancelled key
    producers := m.producers.filter fun run => !cancelled run.sessionKey }

def close : RunManager :=
  { m with
    closed := true, queues := [], queueWorkers := [], setups := [], producers := []
    admitted := [] }

end RunManager

/-- What requests and tasks do with the manager. -/
inductive ManagerOp where
  | runSetup (context : TenantContext) (releaseAdmission : Bool)
  | setupEnded (key : SessionKey) (releaseAdmission : Bool)
  | start (context : TenantContext)
  | runEnded (run : RunScope)
  | enqueue (context : TenantContext) (queueId : String)
  | queueMessage (context : TenantContext) (queueId : String)
  | drain (key : SessionKey)
  | close

/-- The manager after an operation; a refused one may still release its session. -/
def ManagerOp.apply (m : RunManager) : ManagerOp → RunManager
  | runSetup context releaseAdmission => (m.runSetup context releaseAdmission).2
  | setupEnded key releaseAdmission =>
    let ended := { m with setups := m.setups.filter (· ≠ key) }
    if releaseAdmission then ended.releaseSession key else ended
  | start context => (m.start context).2
  | runEnded run =>
    RunManager.startQueueWorker { m with producers := m.producers.filter (· ≠ run) } run.sessionKey
  | enqueue context queueId => (m.enqueue context queueId).2
  | queueMessage context queueId => (m.queueMessage context queueId).2
  | drain key =>
    if m.closed || m.revoked.contains key.tenantId || m.activeSession key ||
        m.admitted.contains key || m.queueWorkers.contains key = false then m
    else { m.setQueue key (m.queue key).tail with admitted := key :: m.admitted }
  | close => m.close

/-- One of the four ways to hand work to the manager answers that the runtime is unavailable. -/
def RunManager.Refuses (m : RunManager) (context : TenantContext) (queueId : String)
    (releaseAdmission : Bool) : Prop :=
  (m.runSetup context releaseAdmission).1 = .error unavailable ∨
    (m.start context).1 = .error unavailable ∨
    (m.enqueue context queueId).1 = .error unavailable ∨
    (m.queueMessage context queueId).1 = .error unavailable

namespace RunManager

variable {m : RunManager} {context : TenantContext} {queueId : String} {releaseAdmission : Bool}

theorem sessionKey_ne_unavailable (context : TenantContext) :
    sessionKey context ≠ .error unavailable := by
  unfold sessionKey
  split <;> simp [unavailable]

theorem runKey_ne_unavailable (context : TenantContext) :
    runKey context ≠ .error unavailable := by
  unfold runKey
  split <;> simp [unavailable]

theorem enqueue_unavailable_iff :
    (m.enqueue context queueId).1 = .error unavailable ↔ m.refuses context = true := by
  unfold enqueue
  split
  · simp [*]
  · rename_i hno
    have hkey := sessionKey_ne_unavailable context
    simp only [hno, Bool.false_eq_true, iff_false]
    split
    · simp_all
    · split <;> simp [unavailable]

theorem start_unavailable_iff :
    (m.start context).1 = .error unavailable ↔ m.refuses context = true := by
  unfold start
  split
  · simp [*]
  · rename_i hno
    have hkey := runKey_ne_unavailable context
    simp only [hno, Bool.false_eq_true, iff_false]
    split
    · simp_all
    · split <;> simp [unavailable]

theorem refuses_of_runSetup (h : (m.runSetup context releaseAdmission).1 = .error unavailable) :
    m.refuses context = true := by
  have hkey := sessionKey_ne_unavailable context
  by_contra hno
  unfold runSetup at h
  split at h
  · simp_all
  · rw [if_neg hno] at h
    split at h <;> simp [unavailable] at h

theorem refuses_of_queueMessage (h : (m.queueMessage context queueId).1 = .error unavailable) :
    m.refuses context = true := by
  have hkey := sessionKey_ne_unavailable context
  by_contra hno
  unfold queueMessage at h
  split at h
  · simp_all
  · rw [if_neg hno] at h
    split at h
    · simp [unavailable] at h
    · exact hno (enqueue_unavailable_iff.mp h)

theorem refuses_iff : m.Refuses context queueId releaseAdmission ↔ m.refuses context = true := by
  constructor
  · rintro (h | h | h | h)
    · exact refuses_of_runSetup h
    · exact start_unavailable_iff.mp h
    · exact enqueue_unavailable_iff.mp h
    · exact refuses_of_queueMessage h
  · exact fun h => .inr (.inl (start_unavailable_iff.mpr h))

theorem startQueueWorker_revoked (key : SessionKey) :
    (m.startQueueWorker key).revoked = m.revoked := by
  unfold startQueueWorker
  split
  · rfl
  · split <;> rfl

theorem releaseSession_revoked (key : SessionKey) : (m.releaseSession key).revoked = m.revoked :=
  startQueueWorker_revoked key

theorem enqueue_revoked : (m.enqueue context queueId).2.revoked = m.revoked := by
  unfold enqueue
  split
  · rfl
  · split
    · rfl
    · split
      · rfl
      · exact startQueueWorker_revoked _

theorem mem_revoke {tenantId other : String} :
    other ∈ (m.revoke tenantId).revoked ↔ other = tenantId ∨ other ∈ m.revoked := by
  unfold revoke
  split
  · rename_i h
    simp only [iff_or_self]
    rintro rfl
    exact h
  · exact List.mem_cons

end RunManager

/-- No operation of the manager takes a revocation back. -/
theorem ManagerOp.apply_revoked (op : ManagerOp) (m : RunManager) :
    (op.apply m).revoked = m.revoked := by
  cases op with
  | runSetup context releaseAdmission =>
    rw [apply, RunManager.runSetup]
    split
    · rfl
    · split
      · split
        · exact RunManager.releaseSession_revoked _
        · rfl
      · split <;> rfl
  | setupEnded key releaseAdmission =>
    rw [apply]
    split
    · exact RunManager.releaseSession_revoked _
    · rfl
  | start context =>
    rw [apply, RunManager.start]
    split
    · rfl
    · split
      · rfl
      · split <;> rfl
  | runEnded run => exact RunManager.startQueueWorker_revoked _
  | enqueue context queueId => exact RunManager.enqueue_revoked
  | queueMessage context queueId =>
    rw [apply, RunManager.queueMessage]
    split
    · rfl
    · split
      · rfl
      · split
        · rfl
        · exact RunManager.enqueue_revoked
  | drain key =>
    rw [apply]
    split <;> rfl
  | close => rfl

end MultiClaw
