import OpenLedger.Batching
import OpenLedger.Lib.Fence
import OpenLedger.Provenance

/-!
# The rows of some tenants

Every table but the chart has a tenant on every row.  `Book.within` is the book
of some tenants alone: every statement about one of them answers and writes on it
what it answers and writes on the whole book, and writes rows of that tenant only.
-/

namespace OpenLedger

open Postgres

variable {mine : String → Bool}

/-- The rows of some tenants.  The chart is everyone's. -/
def Book.within (mine : String → Bool) (book : Book) : Book where
  chart := book.chart
  events := book.events.filter fun row => mine row.tenantId
  transactions := book.transactions.filter fun row => mine row.tenantId
  accounts := book.accounts.filter fun row => mine row.tenantId
  balances := book.balances.filter fun row => mine row.tenantId
  entries := book.entries.filter fun row => mine row.tenantId
  periods := book.periods.filter fun row => mine row.tenantId
  closes := book.closes.filter fun row => mine row.tenantId
  periodBalances := book.periodBalances.filter fun row => mine row.tenantId

/-- Writes whose every row is of these tenants. -/
structure Writes.Within (mine : String → Bool) (writes : Writes) : Prop where
  events : ∀ row ∈ writes.events, mine row.tenantId = true
  transactions : ∀ row ∈ writes.transactions, mine row.tenantId = true
  accounts : ∀ row ∈ writes.accounts, mine row.tenantId = true
  upserts : ∀ row ∈ writes.upserts, mine row.tenantId = true
  entries : ∀ row ∈ writes.entries, mine row.tenantId = true
  periods : ∀ row ∈ writes.periods, mine row.tenantId = true
  closes : ∀ row ∈ writes.closes, mine row.tenantId = true
  periodBalances : ∀ row ∈ writes.periodBalances, mine row.tenantId = true

/-- A request about these tenants. -/
def Request.Within (mine : String → Bool) : Request → Prop
  | claimAndAppend command _ _ _ => mine command.tenantId = true
  | claimAndAppendBatch members => ∀ m ∈ members, mine m.command.tenantId = true
  | storedResult command _ => mine command.tenantId = true
  | storedResultBatch members => ∀ m ∈ members, mine m.command.tenantId = true
  | claimAndOpenAccount command _ _ _ => mine command.tenantId = true
  | storedAccount command _ => mine command.tenantId = true
  | claimAndDefinePeriod command _ _ => mine command.tenantId = true
  | storedPeriod command _ => mine command.tenantId = true
  | periodCloseContext command => mine command.tenantId = true
  | claimAndClosePeriod command _ _ _ => mine command.tenantId = true
  | checkpointTheClose command _ _ _ => mine command.tenantId = true
  | storedClose command _ => mine command.tenantId = true
  | begin => True
  | chartTripleForPurpose _ => True
  | commit => True
  | rollback => True

/-- The tenants an operation is about. -/
def Operation.tenants : Operation → List String
  | post command => [command.tenantId]
  | postBatch commands => commands.map PostTransaction.tenantId
  | openAccount command => [command.tenantId]
  | definePeriod command => [command.tenantId]
  | closePeriod command => [command.tenantId]

/-- Whether an operation is about these tenants alone. -/
def Operation.isWithin (mine : String → Bool) (operation : Operation) : Bool :=
  operation.tenants.all mine

/-- An operation about one tenant: a batch is formed for one. -/
def Operation.OfOneTenant (operation : Operation) : Prop :=
  ∀ tenant ∈ operation.tenants, ∀ other ∈ operation.tenants, tenant = other

instance (operation : Operation) : Decidable operation.OfOneTenant :=
  inferInstanceAs (Decidable (∀ tenant ∈ operation.tenants, _))

/-- A batch the queue hands on is about one tenant. -/
theorem ofOneTenant_of_drained {ceiling : Nat} (atLeastOne : 1 ≤ ceiling)
    (queue : List Submission) :
    (Operation.postBatch ((takeWhateverIsWaiting ceiling queue).1.map
      Submission.command)).OfOneTenant := by
  have shares := (takeWhateverIsWaiting_drains atLeastOne queue).sharesAStatement
  intro tenant isTenant other isOther
  rw [Operation.tenants, List.map_map] at isTenant isOther
  obtain ⟨member, isMember, rfl⟩ := List.mem_map.mp isTenant
  obtain ⟨second, isSecond, rfl⟩ := List.mem_map.mp isOther
  exact shares.oneTenant member isMember second isSecond

/-- An operation about one tenant is on one side of every fence. -/
theorem Operation.OfOneTenant.isWithin_or {operation : Operation}
    (ofOne : operation.OfOneTenant) (mine : String → Bool) :
    operation.isWithin mine = true ∨ operation.isWithin (fun tenant => !mine tenant) = true := by
  cases isTenants : operation.tenants with
  | nil =>
      left
      rw [Operation.isWithin, isTenants]
      rfl
  | cons tenant rest =>
      have isFirst : tenant ∈ operation.tenants := by
        rw [isTenants]
        exact List.mem_cons_self
      cases side : mine tenant with
      | true =>
          left
          refine List.all_eq_true.mpr fun other member => ?_
          rw [ofOne other member tenant isFirst]
          exact side
      | false =>
          right
          refine List.all_eq_true.mpr fun other member => ?_
          rw [ofOne other member tenant isFirst, side]
          rfl

/-! ## Writes -/

namespace Writes.Within

variable {first second writes : Writes}

theorem none : Writes.none.Within mine := by
  constructor <;> exact fun _ member => absurd member List.not_mem_nil

theorem append (firstWithin : first.Within mine) (secondWithin : second.Within mine) :
    (first.append second).Within mine := by
  constructor <;> intro row member <;> rcases List.mem_append.mp member with isFirst | isSecond
  · exact firstWithin.events row isFirst
  · exact secondWithin.events row isSecond
  · exact firstWithin.transactions row isFirst
  · exact secondWithin.transactions row isSecond
  · exact firstWithin.accounts row isFirst
  · exact secondWithin.accounts row isSecond
  · exact firstWithin.upserts row isFirst
  · exact secondWithin.upserts row isSecond
  · exact firstWithin.entries row isFirst
  · exact secondWithin.entries row isSecond
  · exact firstWithin.periods row isFirst
  · exact secondWithin.periods row isSecond
  · exact firstWithin.closes row isFirst
  · exact secondWithin.closes row isSecond
  · exact firstWithin.periodBalances row isFirst
  · exact secondWithin.periodBalances row isSecond

end Writes.Within

section Tells

/-- A key that begins with the row's tenant tells the tenant. -/
theorem tells_of_fst {Row Rest : Type} {key : Row → Option (String × Rest)}
    {tenantOf : Row → String} (first : ∀ row k, key row = some k → k.1 = tenantOf row) :
    Fence.Tells (fun row => mine (tenantOf row)) key := by
  intro left right k leftKey rightKey
  dsimp only
  rw [← first left k leftKey, ← first right k rightKey]

theorem tells_pair {Row Rest : Type} (tenantOf : Row → String) (rest : Row → Rest) :
    Fence.Tells (fun row => mine (tenantOf row)) fun row => some (tenantOf row, rest row) :=
  tells_of_fst fun _ _ isKey => by rw [← Option.some.inj isKey]

theorem supersessionKey_tells :
    Fence.Tells (fun row : TransactionRow => mine row.tenantId)
      TransactionRow.supersessionKey :=
  tells_of_fst fun row k isKey => by
    obtain ⟨target, _, rfl⟩ := Option.map_eq_some_iff.mp isKey
    rfl

theorem ownedKey_tells :
    Fence.Tells (fun row : AccountRow => mine row.tenantId) AccountRow.ownedKey :=
  tells_of_fst fun row k isKey => by
    unfold AccountRow.ownedKey at isKey
    split at isKey
    · cases isKey
    · rw [← Option.some.inj isKey]

theorem houseKey_tells :
    Fence.Tells (fun row : AccountRow => mine row.tenantId) AccountRow.houseKey :=
  tells_of_fst fun row k isKey => by
    unfold AccountRow.houseKey at isKey
    split at isKey
    · rw [← Option.some.inj isKey]
    · cases isKey

end Tells

/-- The rows of two sides of a fence share no key: neither bracket waits for the
other. -/
theorem Writes.Within.apart {left right : Writes} (own : left.Within mine)
    (foreign : right.Within fun tenant => !mine tenant) : left.Apart right := by
  have outside : ∀ {tenantId : String}, (!mine tenantId) = true → mine tenantId = false := by
    intro tenantId isOutside
    simpa using isOutside
  constructor
  · exact Fence.apart_of_sides (tells_pair EventRow.tenantId _) own.events
      fun row member => outside (foreign.events row member)
  · exact Fence.apart_of_sides (tells_pair EventRow.tenantId _) own.events
      fun row member => outside (foreign.events row member)
  · exact Fence.apart_of_sides (tells_pair TransactionRow.tenantId _) own.transactions
      fun row member => outside (foreign.transactions row member)
  · exact Fence.apart_of_sides (tells_pair TransactionRow.tenantId _) own.transactions
      fun row member => outside (foreign.transactions row member)
  · exact Fence.apart_of_sides supersessionKey_tells own.transactions
      fun row member => outside (foreign.transactions row member)
  · exact Fence.apart_of_sides (tells_pair AccountRow.tenantId _) own.accounts
      fun row member => outside (foreign.accounts row member)
  · exact Fence.apart_of_sides ownedKey_tells own.accounts
      fun row member => outside (foreign.accounts row member)
  · exact Fence.apart_of_sides houseKey_tells own.accounts
      fun row member => outside (foreign.accounts row member)
  · exact Fence.apart_of_sides (tells_pair EntryRow.tenantId _) own.entries
      fun row member => outside (foreign.entries row member)
  · exact Fence.apart_of_sides (tells_pair PeriodRow.tenantId _) own.periods
      fun row member => outside (foreign.periods row member)
  · intro row isLeft other isRight overlaps
    have sides := own.periods row isLeft
    rw [overlaps.1, outside (foreign.periods other isRight)] at sides
    cases sides
  · exact Fence.apart_of_sides (tells_pair CloseRow.tenantId _) own.closes
      fun row member => outside (foreign.closes row member)
  · exact Fence.apart_of_sides (tells_pair CloseRow.tenantId _) own.closes
      fun row member => outside (foreign.closes row member)
  · exact Fence.apart_of_sides (tells_pair PeriodBalanceRow.tenantId _) own.periodBalances
      fun row member => outside (foreign.periodBalances row member)
  · intro key isLeft isRight
    obtain ⟨row, isRow, rfl⟩ := List.mem_map.mp isLeft
    obtain ⟨other, isThere, sameKey⟩ := List.mem_map.mp isRight
    have sides := own.upserts row isRow
    have others := outside (foreign.upserts other isThere)
    rw [show other.tenantId = row.tenantId from congrArg StripeKey.tenantId sameKey] at others
    rw [others] at sides
    cases sides

/-! ## The book after writes -/

theorem upsertBalance_within {rows : List BalanceRow} {upsert : UpsertRow}
    (own : mine upsert.tenantId = true) :
    (upsertBalance rows upsert).filter (fun row => mine row.tenantId) =
      upsertBalance (rows.filter fun row => mine row.tenantId) upsert := by
  have ofKey : ∀ row : BalanceRow, decide (row.toStripeKey = upsert.toStripeKey) = true →
      mine row.tenantId = true := by
    intro row same
    rw [of_decide_eq_true same]
    exact own
  unfold upsertBalance
  rw [Fence.any_within ofKey]
  split
  · rw [List.filter_map]
    congr 1
    refine List.filter_congr fun row _ => ?_
    simp only [Function.comp_apply]
    split <;> rfl
  · exact Fence.filter_append_mine fun row member => by
      rw [List.mem_singleton.mp member]
      exact own

theorem upsertBalance_foreign {rows : List BalanceRow} {upsert : UpsertRow}
    (foreign : mine upsert.tenantId = false) :
    (upsertBalance rows upsert).filter (fun row => mine row.tenantId) =
      rows.filter fun row => mine row.tenantId := by
  unfold upsertBalance
  split
  · rw [List.filter_map]
    have sameRows : rows.filter ((fun row : BalanceRow => mine row.tenantId) ∘ fun row =>
        if row.toStripeKey = upsert.toStripeKey then
          { row with
            input := row.input + upsert.input
            output := row.output + upsert.output
            lastSeq := row.lastSeq + upsert.legs }
        else row) = rows.filter fun row => mine row.tenantId := by
      refine List.filter_congr fun row _ => ?_
      simp only [Function.comp_apply]
      split <;> rfl
    rw [sameRows]
    refine (List.map_congr_left fun row member => if_neg fun same => ?_).trans (List.map_id _)
    have inside : mine row.tenantId = true := (List.mem_filter.mp member).2
    rw [show row.tenantId = upsert.tenantId from congrArg StripeKey.tenantId same, foreign] at inside
    cases inside
  · exact Fence.filter_append_foreign fun row member => by
      rw [List.mem_singleton.mp member]
      exact foreign

namespace Book

/-- Writes of these tenants land in their rows as they land in the book. -/
theorem within_apply (book : Book) {writes : Writes} (own : writes.Within mine) :
    (book.apply writes).within mine = (book.within mine).apply writes := by
  have folded : ∀ (upserts : List UpsertRow) (rows : List BalanceRow),
      (∀ row ∈ upserts, mine row.tenantId = true) →
        (upserts.foldl upsertBalance rows).filter (fun row => mine row.tenantId) =
          upserts.foldl upsertBalance (rows.filter fun row => mine row.tenantId) := by
    intro upserts
    induction upserts with
    | nil =>
        intro rows _
        rfl
    | cons upsert rest inductionHypothesis =>
        intro rows ofMine
        rw [List.foldl_cons, List.foldl_cons,
          inductionHypothesis _ fun row member => ofMine row (List.mem_cons_of_mem _ member),
          upsertBalance_within (ofMine upsert List.mem_cons_self)]
  simp only [within, apply, Fence.filter_append_mine own.events,
    Fence.filter_append_mine own.transactions, Fence.filter_append_mine own.accounts,
    Fence.filter_append_mine own.entries, Fence.filter_append_mine own.periods,
    Fence.filter_append_mine own.closes, Fence.filter_append_mine own.periodBalances,
    folded writes.upserts book.balances own.upserts]

/-- Writes of other tenants leave these tenants' rows alone. -/
theorem within_apply_foreign (book : Book) {writes : Writes}
    (foreign : writes.Within fun tenant => !mine tenant) :
    (book.apply writes).within mine = book.within mine := by
  have outside : ∀ {tenantId : String}, (!mine tenantId) = true → mine tenantId = false := by
    intro tenantId isOutside
    simpa using isOutside
  have folded : ∀ (upserts : List UpsertRow) (rows : List BalanceRow),
      (∀ row ∈ upserts, mine row.tenantId = false) →
        (upserts.foldl upsertBalance rows).filter (fun row => mine row.tenantId) =
          rows.filter fun row => mine row.tenantId := by
    intro upserts
    induction upserts with
    | nil =>
        intro rows _
        rfl
    | cons upsert rest inductionHypothesis =>
        intro rows ofOthers
        rw [List.foldl_cons,
          inductionHypothesis _ fun row member => ofOthers row (List.mem_cons_of_mem _ member),
          upsertBalance_foreign (ofOthers upsert List.mem_cons_self)]
  simp only [within, apply,
    Fence.filter_append_foreign fun row member => outside (foreign.events row member),
    Fence.filter_append_foreign fun row member => outside (foreign.transactions row member),
    Fence.filter_append_foreign fun row member => outside (foreign.accounts row member),
    Fence.filter_append_foreign fun row member => outside (foreign.entries row member),
    Fence.filter_append_foreign fun row member => outside (foreign.periods row member),
    Fence.filter_append_foreign fun row member => outside (foreign.closes row member),
    Fence.filter_append_foreign fun row member => outside (foreign.periodBalances row member),
    folded writes.upserts book.balances fun row member => outside (foreign.upserts row member)]

/-! ## Lookups -/

section Lookups

variable (book : Book) {tenantId : String} (isMine : mine tenantId = true)

include isMine

theorem holderOf_within (key : String) :
    (book.within mine).holderOf tenantId key = book.holderOf tenantId key :=
  Fence.find?_within (fun row found => by
    simp only [Bool.and_eq_true, decide_eq_true_eq] at found
    rw [found.1]
    exact isMine) _

theorem transaction?_within (id : Uuid) :
    (book.within mine).transaction? tenantId id = book.transaction? tenantId id :=
  Fence.find?_within (fun row found => by
    simp only [Bool.and_eq_true, decide_eq_true_eq] at found
    rw [found.1]
    exact isMine) _

theorem causedBy_within (eventId : Uuid) :
    (book.within mine).causedBy tenantId eventId = book.causedBy tenantId eventId :=
  Fence.find?_within (fun row found => by
    simp only [Bool.and_eq_true, decide_eq_true_eq] at found
    rw [found.1]
    exact isMine) _

theorem account?_within (id : Uuid) (currency : String) :
    (book.within mine).account? tenantId id currency = book.account? tenantId id currency :=
  Fence.find?_within (fun row found => by
    simp only [Bool.and_eq_true, decide_eq_true_eq] at found
    rw [found.1.1]
    exact isMine) _

theorem period?_within (code : String) :
    (book.within mine).period? tenantId code = book.period? tenantId code :=
  Fence.find?_within (fun row found => by
    simp only [Bool.and_eq_true, decide_eq_true_eq] at found
    rw [found.1]
    exact isMine) _

end Lookups

theorem balance?_within (book : Book) {key : StripeKey} (isMine : mine key.tenantId = true) :
    (book.within mine).balance? key = book.balance? key :=
  Fence.find?_within (fun row same => by
    rw [of_decide_eq_true same]
    exact isMine) _

theorem isPosted_within (book : Book) {entry : EntryRow}
    (isMine : mine entry.tenantId = true) :
    (book.within mine).isPosted entry = book.isPosted entry := by
  rw [isPosted, isPosted, statusOf, statusOf, transaction?_within book isMine]

end Book

end OpenLedger
