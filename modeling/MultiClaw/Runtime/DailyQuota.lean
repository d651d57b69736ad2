import MultiClaw.Runtime.Inference

/-! The daily token limit of a tenant, as the calls of several routers reserve against it. -/
namespace MultiClaw

/-- The settings that the routers of a tenant have in common. A limit of zero is no limit. -/
structure DailySettings where
  tenantDailyTokenLimit : Nat
  contextResponseReserveTokens : Nat
  deriving DecidableEq

/-- Where a call stands between its reservation and its release. -/
inductive DailyStage where
  | idle
  /-- Before the quota lock of its router. -/
  | queued (estimate : Nat)
  /-- With the lock, and with what the run has left; before the usage of the day is read. -/
  | reading (estimate : Nat) (remaining : Int)
  /-- With the lock, before the reservation is made. -/
  | granting (estimate reservation used : Nat)
  | calling (estimate reservation : Nat)
  /-- Before the transaction that adds to the usage of the day. -/
  | recording (reservation tokens : Nat)
  /-- Before the quota lock of `_release`. -/
  | releasing (reservation : Nat) (recorded : Bool)
  deriving DecidableEq

namespace DailyStage

def holdsQuotaLock : DailyStage → Bool
  | reading .. | granting .. => true
  | _ => false

/-- The usage of the day has been read, and nothing reserved yet. -/
def hasReadUsage : DailyStage → Bool
  | granting .. => true
  | _ => false

/-- The reservation a call has made and not released. -/
def outstanding : DailyStage → Nat
  | calling _ r | recording r _ | releasing r _ => r
  | _ => 0

/-- The reservation of a call that has not recorded its usage. -/
def unrecorded : DailyStage → Nat
  | calling _ r | recording r _ | releasing r false => r
  | _ => 0

end DailyStage

/-- The usage that is stored for the day, and what each router has in memory. Call `i` goes through
router `router i`. -/
structure DailyState (m n : Nat) where
  router : Fin n → Fin m
  used : Nat := 0
  reservedTokens : Fin m → Int := fun _ => 0
  stage : Fin n → DailyStage := fun _ => .idle

inductive DailyMove where
  | request (estimate : Nat)
  /-- The lock is taken; the run has this much left. -/
  | lockQuota (remaining : Int)
  | readUsage
  | reserve
  /-- The provider's answer, or the end of its stream. -/
  | respond (usage : ReportedUsage) (outputEstimate : Nat)
  | failCall
  | record
  /-- Cancelled before the usage is stored, or not stored because of a failure. -/
  | failRecord
  | release
  /-- Cancelled before a reservation is made. -/
  | cancel
  /-- Cancelled before the quota lock of `_release`. -/
  | cancelRelease
  deriving DecidableEq

namespace DailyState

variable {m n : Nat}

/-- No call has the lock of the router. -/
def lockFree (s : DailyState m n) (r : Fin m) : Prop :=
  ∀ i, s.router i = r → (s.stage i).holdsQuotaLock = false

instance (s : DailyState m n) (r : Fin m) : Decidable (s.lockFree r) :=
  inferInstanceAs (Decidable (∀ _, _))

def moveTo (s : DailyState m n) (i : Fin n) (stage : DailyStage) : DailyState m n :=
  { s with stage := Function.update s.stage i stage }

/-- Add to what the router of a call has reserved. -/
def addReserved (s : DailyState m n) (i : Fin n) (tokens : Int) : DailyState m n :=
  { s with reservedTokens :=
      Function.update s.reservedTokens (s.router i) (s.reservedTokens (s.router i) + tokens) }

def move? (settings : DailySettings) (s : DailyState m n) (i : Fin n) (move : DailyMove) :
    Option (DailyState m n) :=
  match s.stage i, move with
  | .idle, .request estimate => some (s.moveTo i (.queued estimate))
  | .queued estimate, .lockQuota remaining =>
    if s.lockFree (s.router i) then some (s.moveTo i (.reading estimate remaining)) else none
  | .reading estimate remaining, .readUsage =>
    let reservation :=
      estimate + min settings.contextResponseReserveTokens (remaining - estimate).toNat
    if remaining ≤ estimate then some (s.moveTo i .idle)
    else some (s.moveTo i (.granting estimate reservation s.used))
  | .granting estimate reservation used, .reserve =>
    if settings.tenantDailyTokenLimit ≠ 0 ∧
        (settings.tenantDailyTokenLimit : Int) <
          used + s.reservedTokens (s.router i) + reservation then
      some (s.moveTo i .idle)
    else some ((s.addReserved i reservation).moveTo i (.calling estimate reservation))
  | .calling estimate reservation, .respond usage outputEstimate =>
    some (s.moveTo i (.recording reservation (usage.tokens estimate outputEstimate)))
  | .calling _ reservation, .failCall => some (s.moveTo i (.releasing reservation false))
  | .recording reservation tokens, .record =>
    some { s.moveTo i (.releasing reservation true) with used := s.used + tokens }
  | .recording reservation _, .failRecord => some (s.moveTo i (.releasing reservation false))
  | .releasing reservation _, .release =>
    if s.lockFree (s.router i) then some ((s.addReserved i (-reservation)).moveTo i .idle)
    else none
  | .releasing .., .cancelRelease =>
    if s.lockFree (s.router i) then none else some (s.moveTo i .idle)
  | .queued _, .cancel | .reading .., .cancel | .granting .., .cancel => some (s.moveTo i .idle)
  | _, _ => none

def run? (settings : DailySettings) (s : DailyState m n) :
    List (Fin n × DailyMove) → Option (DailyState m n)
  | [] => some s
  | (i, move) :: trace => (s.move? settings i move).bind (run? settings · trace)

/-- The reservations of the calls that have not recorded their usage. -/
def unrecordedTokens (s : DailyState m n) : Nat :=
  ∑ i, (s.stage i).unrecorded

end DailyState

end MultiClaw
