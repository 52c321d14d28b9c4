import OpenLedger.Postgres.Batch
import OpenLedger.Postgres.Close
import OpenLedger.Postgres.Register

/-!
# The Postgres repository

Every request of the port as the statement the adapter runs for it: what it
answers and what it writes, given the statement's snapshot and the current
content of the tables.
-/

namespace OpenLedger.Postgres

/-- One statement of the open bracket.  The two ends of the bracket and its
beginning write nothing themselves. -/
def statement (env : Env) (snapshot current : Book) :
    (request : Request) → request.Reply × Writes
  | .begin => (.ok (), .none)
  | .claimAndAppend command hash payload append =>
      claimAndAppend env snapshot current command hash payload append
  | .claimAndAppendBatch members => claimAndAppendBatch env snapshot current members
  | .storedResult command hash =>
      (.ok (storedResult snapshot command.tenantId command.idempotencyKey hash), .none)
  | .storedResultBatch members => (.ok (storedResultBatch snapshot members), .none)
  | .chartTripleForPurpose purpose => (.ok (chartTripleForPurpose snapshot purpose), .none)
  | .claimAndOpenAccount command hash payload triple =>
      claimAndOpenAccount env current command hash payload triple
  | .storedAccount command hash => (.ok (storedAccount snapshot command hash), .none)
  | .claimAndDefinePeriod command hash payload =>
      claimAndDefinePeriod env current command hash payload
  | .storedPeriod command hash => (.ok (storedPeriod snapshot command hash), .none)
  | .periodCloseContext command => (.ok (periodCloseContext snapshot command), .none)
  | .claimAndClosePeriod command hash payload plan =>
      claimAndClosePeriod env snapshot current command hash payload plan
  | .checkpointTheClose command plan transactionId computedAtXid =>
      checkpointTheClose env snapshot current command plan transactionId computedAtXid
  | .storedClose command hash => (.ok (storedClose snapshot command hash), .none)
  | .commit => (.ok (), .none)
  | .rollback => (.ok (), .none)

end OpenLedger.Postgres
