import OpenLedger.Refusals

/-!
# One supersession

A transaction is resolved or reversed at most once, a resolution names a pending
transaction and a reversal one that supersedes nothing and closes nothing.  The
gate of the single call and the diagnosis of its row agree on every target.
-/

namespace OpenLedger

open Postgres

/-- A row of the single call's answer beside the target it was read with. -/
structure Postgres.ClaimedRow.Reads (row : ClaimedRow) (target : Option SupersedeTarget) :
    Prop where
  status : row.targetStatus = target.map SupersedeTarget.status
  kind : row.targetKind = target.map SupersedeTarget.kind
  isSuperseding : row.targetIsSuperseding = target.map SupersedeTarget.isSuperseding
  alreadySuperseded :
    row.targetAlreadySuperseded = target.map SupersedeTarget.targetAlreadySuperseded

section Gate

variable {command : PostTransaction} {target : Option SupersedeTarget} {row : ClaimedRow}

theorem gate_resolves (reads : row.Reads target) {id : Uuid}
    (resolves : command.resolvesId = some id) (notReverses : command.reversesId = none) :
    gateAdmits command target = false ↔
      ∃ refusal, diagnoseSupersedeRefusal command row = .ok refusal := by
  unfold gateAdmits diagnoseSupersedeRefusal
  rw [resolves, notReverses, reads.status, reads.alreadySuperseded]
  rcases target with - | ⟨effectiveAt, status, kind, isSuperseding, already⟩
  · simp
  · cases status <;> cases already <;> simp

theorem gate_reverses (reads : row.Reads target) {id : Uuid}
    (notResolves : command.resolvesId = none) (reverses : command.reversesId = some id) :
    gateAdmits command target = false ↔
      ∃ refusal, diagnoseSupersedeRefusal command row = .ok refusal := by
  unfold gateAdmits diagnoseSupersedeRefusal
  rw [notResolves, reverses, reads.kind, reads.isSuperseding, reads.alreadySuperseded]
  rcases target with - | ⟨effectiveAt, status, kind, isSuperseding, already⟩
  · simp
  · by_cases posting : kind = "posting"
    · cases isSuperseding <;> cases already <;> simp [posting]
    · simp [posting]

/-- The gate withholds a transaction exactly when the diagnosis names why. -/
theorem gate_iff_diagnosed (command : PostTransaction) (reads : row.Reads target) :
    gateAdmits command target = false ↔
      ∃ refusal, diagnoseSupersedeRefusal command row = .ok refusal := by
  cases reverses : command.reversesId with
  | some id =>
      have notResolves : command.resolvesId = none :=
        command.reversalAlone (by rw [reverses]; rfl)
      exact gate_reverses reads notResolves reverses
  | none =>
      cases resolves : command.resolvesId with
      | some id =>
          exact gate_resolves reads resolves reverses
      | none =>
          simp [gateAdmits, diagnoseSupersedeRefusal, resolves, reverses]

/-- Every row the single call answers reads the command's own target, and tells
whether the gate withheld the transaction. -/
theorem appendRows_reads {env : Env} {snapshot current : Book} {append : Append}
    (isRow : row ∈ appendRows env snapshot current command append) :
    row.Reads (supersedeTarget snapshot command) ∧
      (row.transactionId = none →
        gateAdmits command (supersedeTarget snapshot command) = false) := by
  have gated : ((txn env snapshot command).head?).map TransactionRow.id = none →
      gateAdmits command (supersedeTarget snapshot command) = false := by
    intro withheld
    by_contra admitted
    rw [Bool.not_eq_false] at admitted
    rw [txn, if_pos admitted] at withheld
    cases withheld
  unfold appendRows at isRow
  dsimp only at isRow
  split at isRow
  · obtain rfl := List.mem_singleton.mp isRow
    exact ⟨⟨rfl, rfl, rfl, rfl⟩, gated⟩
  · obtain ⟨d, _, rfl⟩ := List.mem_map.mp isRow
    exact ⟨⟨rfl, rfl, rfl, rfl⟩, gated⟩

/-- The single call never answers that it was gated for no reason it names. -/
theorem claimAndAppend_ne_message (env : Env) (snapshot current : Book)
    (command : PostTransaction) (hash : List UInt8) (payload : Json) (append : Append)
    (text : String) :
    (claimAndAppend env snapshot current command hash payload append).1 ≠
      .error (.message text) := by
  unfold claimAndAppend
  split
  · split
    · exact fun equal => by cases equal
    · exact fun equal => by cases equal
  · rename_i rows writes ran
    unfold claimedFromTheRows
    split
    · exact fun equal => by cases equal
    · rename_i first rest
      split
      · rename_i withheld
        have isRow : first ∈ appendRows env snapshot current command append := by
          unfold claimAndAppendStatement at ran
          split at ran
          · cases ran
          · simp only [bind, Except.bind] at ran
            split at ran
            · cases ran
            · split at ran
              · cases ran
              · obtain ⟨isRows, _⟩ := Prod.mk.inj (Except.ok.inj ran)
                rw [isRows]
                exact List.mem_cons_self
        obtain ⟨reads, gated⟩ := appendRows_reads isRow
        obtain ⟨refusal, diagnosed⟩ := (gate_iff_diagnosed command reads).mp (gated withheld)
        rw [diagnosed]
        exact fun equal => by cases equal
      · exact fun equal => by cases equal

end Gate

/-- At most one transaction of a tenant names an id. -/
theorem Kept.names_once {book : Book} (kept : Kept book) (tenantId : String) (id : Uuid) :
    (book.transactions.filter fun other =>
      decide (other.tenantId = tenantId) && other.names id).length ≤ 1 := by
  have keys : ∀ other ∈ book.transactions.filter fun other =>
      decide (other.tenantId = tenantId) && other.names id,
      other.supersessionKey = some (tenantId, id) := by
    intro other isNamer
    obtain ⟨member, isNamer⟩ := List.mem_filter.mp isNamer
    simp only [TransactionRow.names, Bool.and_eq_true, Bool.or_eq_true, decide_eq_true_eq]
      at isNamer
    obtain ⟨sameTenant, resolves | reverses⟩ := isNamer
    · simp [TransactionRow.supersessionKey, TransactionRow.supersedes, resolves, sameTenant]
    · have notResolves : other.resolvesId = none := by
        rcases kept.notBoth other member with none | none
        · exact none
        · rw [none] at reverses
          cases reverses
      simp [TransactionRow.supersessionKey, TransactionRow.supersedes, notResolves, reverses,
        sameTenant]
  have allOne : ((book.transactions.filter fun other =>
      decide (other.tenantId = tenantId) && other.names id).filterMap
        TransactionRow.supersessionKey).Nodup :=
    (List.filter_sublist.filterMap _).nodup kept.uqTxnOneSupersession
  generalize book.transactions.filter (fun other =>
    decide (other.tenantId = tenantId) && other.names id) = namers at keys allOne ⊢
  rcases namers with - | ⟨first, - | ⟨second, rest⟩⟩
  · simp
  · simp
  · have firstKey := keys first (by simp)
    have secondKey := keys second (by simp)
    simp [firstKey, secondKey] at allOne

/-- In every interleaving a transaction is superseded at most once, a resolution
names a pending transaction and a reversal a posting that supersedes nothing,
never a close.  Whatever the target, the gate withholds the transaction exactly
when the diagnosis names a refusal, so the single call never answers the arms
that name none.  A refusal asks for no commit, and alone it changes nothing. -/
theorem supersession_safe {sha256 : List UInt8 → List UInt8} {chart : Chart}
    {machine : Machine} (interleaved : Interleaved sha256 chart machine) :
    (∀ tenantId id, (machine.committed.transactions.filter fun other =>
        decide (other.tenantId = tenantId) && other.names id).length ≤ 1) ∧
      (∀ x ∈ machine.committed.transactions, ∀ id, x.resolvesId = some id →
        ∃ target, machine.committed.transaction? x.tenantId id = some target ∧
          target.status = .pending) ∧
      (∀ x ∈ machine.committed.transactions, ∀ id, x.reversesId = some id →
        ∃ target, machine.committed.transaction? x.tenantId id = some target ∧
          target.kind = "posting" ∧ target.resolvesId = none ∧ target.reversesId = none) ∧
      (∀ x ∈ machine.committed.transactions, ∀ close ∈ machine.committed.transactions,
        close.kind = "period_close" → close.tenantId = x.tenantId →
          x.reversesId ≠ some close.id) ∧
      (∀ command target (row : ClaimedRow), row.Reads target →
        (gateAdmits command target = false ↔
          ∃ refusal, diagnoseSupersedeRefusal command row = .ok refusal)) ∧
      (∀ env snapshot current command hash payload append text,
        (claimAndAppend env snapshot current command hash payload append).1 ≠
          .error (.message text)) ∧
      (∀ session ∈ machine.sessions, ∀ outcome, session.program = .done outcome →
        ((∃ refusal, outcome = .posted (.error refusal)) ∨
          ∃ answers, outcome = .postedBatch answers ∧
            ∃ answer ∈ answers, namesTarget answer = true) →
        ∀ ran ∈ session.trace, ran.request ≠ .commit) ∧
      ∀ command env book refusal,
        ((Operation.post command).perform sha256 env book).1 = .posted (.error refusal) →
          ((Operation.post command).perform sha256 env book).2 = book := by
  have kept := (sound_of_interleaved interleaved).kept
  have reverses : ∀ x ∈ machine.committed.transactions, ∀ id, x.reversesId = some id →
      ∃ target, machine.committed.transaction? x.tenantId id = some target ∧
        target.kind = "posting" ∧ target.resolvesId = none ∧ target.reversesId = none := by
    intro x member id reverses
    obtain ⟨target, found, isPosting, supersedes⟩ := (kept.supersedes x member).reverses id reverses
    rw [TransactionRow.supersedes, Option.or_eq_none_iff] at supersedes
    exact ⟨target, found, isPosting, supersedes⟩
  refine ⟨kept.names_once, fun x member => (kept.supersedes x member).resolves, reverses,
    fun x member close isThere isClose sameTenant isReversed => ?_,
    fun command target row reads => gate_iff_diagnosed command reads,
    claimAndAppend_ne_message, fun session member outcome isDone refused => ?_,
    fun command env book refusal refused => ?_⟩
  · obtain ⟨target, found, isPosting, _⟩ := reverses x member close.id isReversed
    rw [← sameTenant, kept.transaction?_of_mem isThere, Option.some.injEq] at found
    subst found
    rw [isClose] at isPosting
    exact absurd isPosting (by decide)
  · have tracked := tracks_of_interleaved (fun _ _ _ _ _ _ _ => trivial)
      (fun env book _ => spends_program sha256 session.operation ⟨⟨book, .none⟩, []⟩
        uncommitted_nil) interleaved member rfl
    have ended := tracked.tracks
    rw [isDone] at ended
    refine ended ?_
    rcases refused with ⟨refusal, rfl⟩ | ⟨answers, rfl, answer, isAnswer, names⟩
    · rfl
    · exact List.all_eq_false.mpr ⟨answer, isAnswer, by simp [names]⟩
  · refine perform_unchanged sha256 (.post command) book ?_
    rw [refused]
    rfl

/-- A pending fee, and two rivals that resolve it: both take their snapshot
before either commits. -/
def Shop.rivals : List Action :=
  Shop.ready ++
    Shop.session 4 5 (.post (Shop.command "hold" 1000 .pending none 70)) 3 ++
    [.start (.post (Shop.command "left" 2000 .posted (some (Shop.uuid 5100)) 70)) (Shop.envOf 6),
      .assign 5,
      .start (.post (Shop.command "right" 2000 .posted (some (Shop.uuid 5100)) 70))
        (Shop.envOf 7),
      .assign 6] ++
    Shop.statements 5 1 ++ Shop.statements 6 1 ++ [.look 5, .look 6, .run 5] ++
    Shop.statements 5 1 ++ [.run 6] ++ Shop.statements 6 1

theorem rivals_supersede_once :
    ((Shop.machineAfter Shop.rivals).committed.transactions.map TransactionRow.resolvesId =
        [none, some (Shop.uuid 5100)] ∧
      (Shop.machineAfter Shop.rivals).sessions.length = 7) ∧
      ((Shop.machineAfter Shop.rivals).committed.transactions.filter fun other =>
        decide (other.tenantId = "shop") && other.names (Shop.uuid 5100)).length ≤ 1 :=
  ⟨by decide +kernel,
    (supersession_safe (Shop.interleaved_machineAfter Shop.rivals)).1 "shop" (Shop.uuid 5100)⟩

end OpenLedger
