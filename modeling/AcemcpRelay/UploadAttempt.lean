import AcemcpRelay.IndexQuota
import AcemcpRelay.Store.Attempt
import AcemcpRelay.Store.Transition
import AcemcpRelay.Transactions
import AcemcpRelay.UploadCall

/-!
# An upload call that may fail at any point

`uploadIndexBatch` with everything that can go wrong: the lease, the two transactions
and the statement between them, the quota, LCE, and the read after the second
transaction. Before each statement others may have committed anything.
-/
namespace AcemcpRelay

open Store Store.Attempt

/-- What the environment does to one statement of a call. -/
structure Moment where
  /-- What others commit before it. -/
  others : List Event := []
  /-- The time between its `NOW()` and its commit. -/
  waited : Nat := 0
  fate : Fate := .done

structure UploadEnvironment where
  /-- The result of `acquireSharedIndexOperation`. -/
  lease : Except String Unit := .ok ()
  prepare : Moment := {}
  beat : Moment := {}
  /-- The answer of `chargeIndexFiles`. -/
  quota : IndexQuotaDecision := { allowed := true, limit := 0 }
  /-- The reply of LCE, or the error of the call. -/
  stage : Except String StageReply
  commit : Moment := {}
  reload : Moment := {}

/-- What `uploadIndexBatch` makes of the quota's answer. -/
def admitQuota (config : QuotaConfig) (now : Nat) (quota : IndexQuotaDecision) : Except String Unit :=
  if quota.unavailable then
    .error "index quota accounting temporarily unavailable; retry later"
  else if !quota.allowed then
    .error ("daily index quota exceeded (used=" ++ toString quota.used ++ ", limit=" ++
      toString quota.limit ++ ", remaining=" ++ toString (max (quota.limit - quota.used) 0) ++
      " bytes); retry after " ++ quotaRetryAfterHeader config now ++ " seconds")
  else .ok ()

namespace World

/-- The state after what others commit. -/
def others (events : List Event) (world : World) : World := runFrom World.step world events

/-- A write to the tables. -/
def writes (result : Except String Database) (world : World) : Except String World :=
  result.map fun db => { world with db }

/-- `loadIndexJob`. -/
def reload (userID jobID : String) (world : World) : Except String IndexJob :=
  match world.db.loadIndexJob userID jobID with
  | none => .error "sql: no rows in result set"
  | some job => .ok job

end World

/-- `uploadIndexBatch`, up to the reply of LCE. -/
def stageIndexBatch (sha256 : String → String) (config : QuotaConfig) (env : UploadEnvironment)
    (userID : String) (req : UploadRequest) : Attempt World (PreparedBatch × StageReply) := do
  let req ← check (validateUpload req)
  check env.lease
  -- transaction A only reads
  meanwhile (World.others env.prepare.others)
  let batch ← read env.prepare.fate fun world => world.db.prepareIndexBatch sha256 userID req
  meanwhile (World.others env.beat.others)
  write env.beat.fate fun world =>
    world.writes (world.db.uploadHeartbeat (world.clock - env.beat.waited) userID batch.job.id)
  let _ ← check (validateIndexBatchSize batch.staged)
  let _ ← check (validateMCPToolCallBody "codebase_remote_index"
    (stageArgs userID batch.job.id req.rootID batch.staged batch.deleted))
  read .done fun world => admitQuota config world.clock env.quota
  let reply ← check env.stage
  return (batch, reply)

/-- Transaction B of a batch that LCE has staged. -/
def World.commitBatch (waited : Nat) (userID : String) (batch : PreparedBatch) (reply : StageReply)
    (world : World) : Except String World :=
  let chunks := if reply.exactCount then reply.chunks
    else reply.chunks + (batch.staged.map (·.estimatedChunks)).sum
  world.writes (world.db.commitIndexBatch (world.clock - waited) userID batch.job.id
    (batch.staged.map (·.path)) chunks (!reply.exactCount) (batch.deleted ≠ []))

/-- `uploadIndexBatch`. -/
def uploadIndexBatch (sha256 : String → String) (config : QuotaConfig) (env : UploadEnvironment)
    (userID : String) (req : UploadRequest) : Attempt World IndexJob := do
  let staged ← stageIndexBatch sha256 config env userID req
  meanwhile (World.others env.commit.others)
  write env.commit.fate (World.commitBatch env.commit.waited userID staged.1 staged.2)
  meanwhile (World.others env.reload.others)
  read env.reload.fate (World.reload userID staged.1.job.id)

end AcemcpRelay
