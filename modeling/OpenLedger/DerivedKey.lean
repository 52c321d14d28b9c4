import OpenLedger.Canonical
import OpenLedger.Provenance
import OpenLedger.Sequential

/-!
# The key a close derives

A close claims `tenant:close:period:currency` in the key space its tenant's callers
choose their own keys from.  A caller who has claimed that key first makes the
close a reuse of it; nothing else refuses a close that has not been made.
-/

namespace OpenLedger

open Postgres

/-- Why a close was refused, if it was. -/
def Outcome.closeRefusal? : Outcome → Option ClosePeriodError
  | .closed (.error refusal) => some refusal
  | _ => none

theorem utf8Bytes_append (left right : String) :
    utf8Bytes (left ++ right) = utf8Bytes left ++ utf8Bytes right := by
  rw [utf8Bytes, String.toList_append, List.flatMap_append]
  rfl

/-- Within one tenant the derived key names the period and the currency: the
currency is its last three bytes. -/
theorem ClosePeriod.idempotencyKey_inj {left right : ClosePeriod}
    (sameTenant : left.tenantId = right.tenantId)
    (sameKey : left.idempotencyKey = right.idempotencyKey) :
    left.periodCode = right.periodCode ∧ left.currency = right.currency := by
  have bytes := congrArg utf8Bytes sameKey
  simp only [idempotencyKey, closeKey, sameTenant, utf8Bytes_append] at bytes
  have wide := (length_of_currency left.currencyIso).trans
    (length_of_currency right.currencyIso).symm
  obtain ⟨codes, currencies⟩ := List.append_inj' bytes wide
  have sameCodes := List.append_cancel_left (List.append_cancel_right codes)
  exact ⟨utf8Bytes_injective sameCodes, utf8Bytes_injective currencies⟩

section Provenance

variable {sha256 : List UInt8 → List UInt8} {closes : List CloseRow} {event : EventRow}
  {command : ClosePeriod}

theorem ClosePeriod.canonicalBytes_tag (command : ClosePeriod) :
    ∃ rest, command.canonicalBytes = utf8Bytes CommandKind.closePeriod.tag ++ rest := by
  rw [canonicalBytes]
  simp only [List.append_assoc]
  exact ⟨_, rfl⟩

/-- No other operation claims with a close's hash. -/
theorem EventRow.Asked.isClose (collisionFree : Function.Injective sha256)
    (asked : event.Asked sha256 closes)
    (hash : event.idempotencyHash = command.idempotencyHash sha256) :
    ∃ close ∈ closes, close.IsOf command := by
  obtain ⟨rest, isClose⟩ := command.canonicalBytes_tag
  -- another operation's bytes begin with another tag
  have other : ∀ kind tail, kind ≠ CommandKind.closePeriod →
      sha256 (utf8Bytes kind.tag ++ tail) ≠ event.idempotencyHash := by
    intro kind tail differs same
    rw [hash, ClosePeriod.idempotencyHash] at same
    exact differs (CommandKind.eq_of_tag_append ((collisionFree same).trans isClose))
  cases asked with
  | post source _ _ _ hashed =>
      cases rendered : source.canonicalBytes with
      | error refusal =>
          rw [PostTransaction.idempotencyHash, rendered] at hashed
          cases hashed
      | ok bytes =>
          rw [PostTransaction.idempotencyHash, rendered] at hashed
          obtain ⟨effective, _, rfl⟩ := PostTransaction.canonicalBytes_eq_ok.mp rendered
          exact absurd (Except.ok.inj hashed) (other .post _ (by decide))
  | openAccount source _ _ _ hashed =>
      rw [OpenAccount.idempotencyHash, OpenAccount.canonicalBytes] at hashed
      simp only [List.append_assoc] at hashed
      exact absurd hashed.symm (other .openAccount _ (by decide))
  | definePeriod source _ _ _ hashed =>
      cases rendered : source.canonicalBytes with
      | error refusal =>
          rw [DefinePeriod.idempotencyHash, rendered] at hashed
          cases hashed
      | ok bytes =>
          rw [DefinePeriod.idempotencyHash, rendered] at hashed
          obtain ⟨_, _, _, _, rfl⟩ := DefinePeriod.canonicalBytes_eq_ok.mp rendered
          exact absurd (Except.ok.inj hashed) (other .definePeriod _ (by decide))
  | closePeriod source _ _ _ hashed closed =>
      obtain ⟨close, isThere, tenant, code, currency⟩ := closed
      rw [hash, ClosePeriod.idempotencyHash, ClosePeriod.idempotencyHash] at hashed
      have same := ClosePeriod.canonicalBytes_eq_iff.mp (collisionFree hashed)
      exact ⟨close, isThere, tenant.trans same.1.symm, code.trans same.2.1.symm,
        currency.trans same.2.2.symm⟩

/-- A close's event under the derived key came with the close's row. -/
theorem EventRow.Asked.closed (asked : event.Asked sha256 closes)
    (sameTenant : event.tenantId = command.tenantId)
    (sameKey : event.idempotencyKey = command.idempotencyKey)
    (isKind : event.kind = "period_close") : ∃ close ∈ closes, close.IsOf command := by
  cases asked with
  | post _ other =>
      rw [isKind] at other
      exact absurd other (by decide)
  | openAccount _ other =>
      rw [isKind] at other
      exact absurd other (by decide)
  | definePeriod _ other =>
      rw [isKind] at other
      exact absurd other (by decide)
  | closePeriod source _ tenant key _ closed =>
      obtain ⟨close, isThere, ofTenant, ofCode, ofCurrency⟩ := closed
      have tenants := sameTenant.symm.trans tenant
      obtain ⟨codes, currencies⟩ :=
        ClosePeriod.idempotencyKey_inj tenants (sameKey.symm.trans key)
      exact ⟨close, isThere, ofTenant.trans tenants.symm, ofCode.trans codes.symm,
        ofCurrency.trans currencies.symm⟩

end Provenance

section Refusals

variable {sha256 : List UInt8 → List UInt8} {env : Env} {book : Book} {command : ClosePeriod}

theorem holderOf_isSome_iff {tenantId key : String} :
    (book.holderOf tenantId key).isSome ↔
      ∃ event ∈ book.events, event.tenantId = tenantId ∧ event.idempotencyKey = key := by
  simp [Book.holderOf, List.find?_isSome]

/-- A period of a kept book that a run defined has an instant to close at. -/
theorem closePlan_of_context (kept : Kept book) (asked : book.Asked sha256)
    {context : PeriodCloseContext} {retainedEarnings : Uuid}
    (defined : periodCloseContext book command = some context)
    (eligible : context.retainedEarnings = some retainedEarnings) :
    ∃ plan, closePlan book command = .ok plan := by
  obtain ⟨period, isPeriod, isContext⟩ := Option.map_eq_some_iff.mp defined
  have isRow : period ∈ book.periods := List.mem_of_find?_eq_some isPeriod
  have first := asked.startsInRange isRow
  have nonEmpty := kept.periodsNonEmpty period isRow
  have ends : context.endsAt = period.endsAt := by
    rw [← isContext]
  have inside : theLastInstantInside context.endsAt = some (context.endsAt - 1) := by
    rw [theLastInstantInside, if_pos]
    rw [ends]
    exact Int.le_sub_one_of_lt (Int.lt_of_le_of_lt first nonEmpty)
  refine ⟨⟨context.startsAt, context.endsAt, retainedEarnings, context.endsAt - 1⟩, ?_⟩
  simp only [closePlan, defined, eligible, inside]

/-- A planned close over a held key is the refusal its holder makes it. -/
theorem closeAlone_held {plan : ClosePlan}
    (held : (book.holderOf command.tenantId command.idempotencyKey).isSome) :
    (closeAlone sha256 env book command plan).1 = .error (repeatedClose sha256 book command) := by
  unfold closeAlone claimAndClosePeriod
  rw [if_pos held]
  rfl

/-- A close without a row meets no row of its own. -/
theorem closeWrites_unclosed (env : Env) (hash : List UInt8) (payload : Json) (plan : ClosePlan)
    (unclosed : ∀ close ∈ book.closes, ¬ close.IsOf command) :
    UniqueIndex.Admits CloseRow.primaryKey book.closes
      (closeWrites env book book command hash payload plan).closes := by
  refine UniqueIndex.admits_singleton fun close isThere key isNew isHeld => ?_
  obtain ⟨tenant, code, currency⟩ : close.tenantId = command.tenantId ∧
      close.periodCode = command.periodCode ∧ close.currency = command.currency := by
    simpa [CloseRow.primaryKey] using isHeld.trans isNew.symm
  exact unclosed close isThere ⟨tenant, code, currency⟩

/-- Over a free key a close without a row is refused for no key. -/
theorem closeAlone_free {plan : ClosePlan}
    (free : (book.holderOf command.tenantId command.idempotencyKey).isSome = false)
    (unclosed : ∀ close ∈ book.closes, ¬ close.IsOf command) :
    (closeAlone sha256 env book command plan).1 ≠ .error .keyReused ∧
      ∀ code currency, (closeAlone sha256 env book command plan).1 ≠
        .error (.periodAlreadyClosed code currency) := by
  have admitted := closeWrites_unclosed env (command.idempotencyHash sha256) command.payload plan
    unclosed
  have notRaced : violation env.tzKnown book (closeWrites env book book command
      (command.idempotencyHash sha256) command.payload plan) ≠ some (.constraint .pkCloses) := by
    intro violated
    have failed := failed_of_violation violated
    simp [constraintChecks] at failed
    exact failed admitted
  unfold closeAlone claimAndClosePeriod
  rw [if_neg (by rw [free]; exact Bool.false_ne_true)]
  dsimp only
  cases (ensureBigints (closeCasts env book command plan)).toOption with
  | none => exact ⟨by simp, by simp⟩
  | some fits =>
      cases violated : violation env.tzKnown book (closeWrites env book book command
          (command.idempotencyHash sha256) command.payload plan) with
      | some error =>
          dsimp only
          cases raced : refusalFromTheCloseRace error with
          | none => exact ⟨by simp, by simp⟩
          | some refused =>
              have isRace : error = .constraint .pkCloses := by
                unfold refusalFromTheCloseRace at raced
                split at raced
                · rfl
                · cases raced
              exact absurd (violated.trans (congrArg some isRace)) notRaced
      | none =>
          dsimp only
          rw [closedFromTheRows_closeRows]
          dsimp only
          split <;> exact ⟨by simp, by simp⟩

/-- A close that has not been made is refused exactly when its key is held, and
then as a reuse of it. -/
theorem closeAlone_refusal (collisionFree : Function.Injective sha256)
    (asked : book.Asked sha256) {plan : ClosePlan}
    (unclosed : ∀ close ∈ book.closes, ¬ close.IsOf command) :
    ((closeAlone sha256 env book command plan).1 = .error .keyReused ↔
        (book.holderOf command.tenantId command.idempotencyKey).isSome = true) ∧
      ∀ code currency, (closeAlone sha256 env book command plan).1 ≠
        .error (.periodAlreadyClosed code currency) := by
  cases held : (book.holderOf command.tenantId command.idempotencyKey).isSome with
  | false =>
      obtain ⟨noReuse, notClosed⟩ := @closeAlone_free sha256 env book command plan held unclosed
      exact ⟨⟨fun reused => absurd reused noReuse, fun some => by cases some⟩, notClosed⟩
  | true =>
      have notStored : (storedClose book command (command.idempotencyHash sha256)).isSome =
          false := by
        rw [storedClose, Option.isSome_map, ← Bool.not_eq_true, List.find?_isSome]
        rintro ⟨event, isThere, matches_⟩
        simp only [Bool.and_eq_true, decide_eq_true_eq] at matches_
        obtain ⟨close, isClose, isOf⟩ :=
          (asked.events event isThere).isClose collisionFree matches_.2
        exact unclosed close isClose isOf
      have repeated : repeatedClose sha256 book command = .keyReused := by
        rw [repeatedClose, notStored]
        rfl
      rw [closeAlone_held held, repeated]
      exact ⟨⟨fun _ => rfl, fun _ => rfl⟩, by simp⟩

end Refusals

/-- In every book an interleaving reaches: a close of a defined period with an
account to sweep into, and no close row, is never refused as already closed, and is
refused as a reuse exactly when an event of its tenant holds the derived key.  That
event is a posting's, an opening's or a definition's, whose caller chose the key. -/
theorem close_is_refused_only_for_its_key {sha256 : List UInt8 → List UInt8} {chart : Chart}
    {machine : Machine} (collisionFree : Function.Injective sha256)
    (interleaved : Interleaved sha256 chart machine) (env : Env) (command : ClosePeriod)
    {context : PeriodCloseContext} {retainedEarnings : Uuid}
    (defined : periodCloseContext machine.committed command = some context)
    (eligible : context.retainedEarnings = some retainedEarnings)
    (unclosed : ∀ close ∈ machine.committed.closes, ¬ close.IsOf command) :
    (∀ code currency, ((Operation.closePeriod command).perform sha256 env
        machine.committed).1.closeRefusal? ≠ some (.periodAlreadyClosed code currency)) ∧
      (((Operation.closePeriod command).perform sha256 env machine.committed).1.closeRefusal? =
          some .keyReused ↔
        ∃ event ∈ machine.committed.events, event.tenantId = command.tenantId ∧
          event.idempotencyKey = command.idempotencyKey) ∧
      (∀ event ∈ machine.committed.events, event.tenantId = command.tenantId →
        event.idempotencyKey = command.idempotencyKey → event.kind ≠ "period_close") ∧
      ∀ left right : ClosePeriod, left.tenantId = right.tenantId →
        left.idempotencyKey = right.idempotencyKey →
          left.periodCode = right.periodCode ∧ left.currency = right.currency := by
  have asked := asked_of_interleaved interleaved
  have kept := (sound_of_interleaved interleaved).kept
  obtain ⟨plan, planned⟩ := closePlan_of_context kept asked defined eligible
  obtain ⟨reused, notClosed⟩ :=
    @closeAlone_refusal sha256 env machine.committed command collisionFree asked plan unclosed
  have refusal : ∀ refused, ((Operation.closePeriod command).perform sha256 env
      machine.committed).1.closeRefusal? = some refused ↔
        (closeAlone sha256 env machine.committed command plan).1 = .error refused := by
    intro refused
    rw [perform_closePeriod env machine.committed planned]
    cases (closeAlone sha256 env machine.committed command plan).1 with
    | error failure => simp [Outcome.closeRefusal?]
    | ok answer => simp [Outcome.closeRefusal?]
  refine ⟨fun code currency already => ?_, ?_, fun event isThere tenant key isKind => ?_,
    fun left right tenant key => ClosePeriod.idempotencyKey_inj tenant key⟩
  · exact notClosed code currency ((refusal _).mp already)
  · rw [refusal, reused, holderOf_isSome_iff]
  · obtain ⟨close, isClose, isOf⟩ := (asked.events event isThere).closed tenant key isKind
    exact unclosed close isClose isOf

namespace Shop

/-- A period, and a fee whose caller chose the key the period's close derives. -/
def squattedKey : List Action :=
  ready ++ session 4 5 (.post (command "shop:close:first:USD" 1000 .posted none 70)) 3

def squattedContext : PeriodCloseContext := ⟨0, 1000, some retainedEarnings⟩

/-- The period is defined, its account is open, it is not closed, and its close is
a reuse of the fee's key. -/
theorem squatted_key_refuses_the_close :
    periodCloseContext (machineAfter squattedKey).committed firstClose = some squattedContext ∧
      squattedContext.retainedEarnings = some retainedEarnings ∧
      (∀ close ∈ (machineAfter squattedKey).committed.closes, ¬ close.IsOf firstClose) ∧
      ((Operation.closePeriod firstClose).perform id (envOf 9)
        (machineAfter squattedKey).committed).1.closeRefusal? = some .keyReused := by
  decide +kernel

/-- With the key free nothing refuses the first close for it. -/
theorem first_close_meets_no_key :
    ((Operation.closePeriod firstClose).perform id (envOf 9)
        (machineAfter ready).committed).1.closeRefusal? ≠ some .keyReused ∧
      ∀ code currency, ((Operation.closePeriod firstClose).perform id (envOf 9)
        (machineAfter ready).committed).1.closeRefusal? ≠
          some (.periodAlreadyClosed code currency) := by
  have refused := close_is_refused_only_for_its_key Function.injective_id
    (interleaved_machineAfter ready) (envOf 9) firstClose
    (show _ = some squattedContext by decide +kernel)
    (show _ = some retainedEarnings from rfl) (by decide +kernel)
  refine ⟨fun reused => ?_, refused.1⟩
  have unheld : ¬ ∃ event ∈ (machineAfter ready).committed.events,
      event.tenantId = firstClose.tenantId ∧
        event.idempotencyKey = firstClose.idempotencyKey := by
    decide +kernel
  exact unheld (refused.2.1.mp reused)

end Shop

end OpenLedger
