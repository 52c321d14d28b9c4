import OpenLedger.Footing
import OpenLedger.BalanceCache

/-!
# Posted and pending

The two numbers of the bridge, each as what the journal says: the cached balance
of an account over its stripes is its posted entries, and its pending figure is
the entries of the pending transactions nothing supersedes.
-/

namespace OpenLedger

open Postgres

theorem isOutstanding_iff {book : Book} {e : EntryRow} :
    isOutstanding book e = true ↔
      ∃ x, book.transaction? e.tenantId e.transactionId = some x ∧ x.status = .pending ∧
        ∀ rr ∈ book.transactions, rr.tenantId = x.tenantId → rr.names x.id = false := by
  rw [isOutstanding, Option.any_eq_true]
  refine exists_congr fun x => and_congr_right fun _ => ?_
  rw [Bool.and_eq_true, Bool.not_eq_true', List.any_eq_false, decide_eq_true_eq]
  refine and_congr ?_ (forall₂_congr fun rr _ => ?_)
  · cases x.status <;> simp
  · simp

/-- The transactions that are pending and not superseded. -/
def TransactionRow.isOutstanding (book : Book) (x : TransactionRow) : Bool :=
  decide (x.status = .pending) &&
    !book.transactions.any fun rr => decide (rr.tenantId = x.tenantId) && rr.names x.id

/-- What the bridge shows pending on an account, zero where it shows no row. -/
def pendingFigure (book : Book) (key : String × Uuid × String) : Int :=
  (((reconPendingBridge book).find? fun row =>
    decide ((row.tenantId, row.accountId, row.currency) = key)).map
      PendingBridgeRow.pendingBalanceMinor).getD 0

/-- The signed entries of one transaction on an account. -/
def movementOf (book : Book) (key : String × Uuid × String) (x : TransactionRow) : Int :=
  Tally.sumWhere (fun e => decide (e.accountKey = key) && decide (e.tenantId = x.tenantId) &&
    decide (e.transactionId = x.id)) EntryRow.signed book.entries

namespace Kept

variable {book : Book} (kept : Kept book)

include kept

/-- An account's cached balance over its stripes is its posted entries. -/
theorem cachedBalance_eq (key : String × Uuid × String) :
    cachedBalance book key =
      Tally.sumWhere (fun e => book.isPosted e && decide (e.accountKey = key))
        EntryRow.signed book.entries := by
  have ofRow : ∀ row ∈ book.balances, row.input - row.output =
      Tally.sumWhere (fun e => book.isPosted e && decide (e.stripeKey = row.toStripeKey))
        EntryRow.signed book.entries := by
    intro row member
    have input := kept.inputs row.toStripeKey
    have output := kept.outputs row.toStripeKey
    rw [Book.inputOn, balance?_eq_some kept.countable member] at input
    rw [Book.outputOn, balance?_eq_some kept.countable member] at output
    have sides : ∀ direction, Tally.sumWhere
        (fun e => book.isPosted e && decide (e.stripeKey = row.toStripeKey))
          (fun e => e.on direction) book.entries = book.postedOn direction row.toStripeKey := by
      intro direction
      rw [sumWhere_on, Book.postedOn]
      refine Tally.sumWhere_congr (fun e _ => ?_) fun _ _ _ => rfl
      cases book.isPosted e <;> simp
    rw [sumWhere_signed, sides, sides, ← input, ← output]
    rfl
  have covered : ∀ e ∈ book.entries,
      (book.isPosted e && decide (e.accountKey = key)) = true →
        e.stripeKey ∈ book.balances.map BalanceRow.toStripeKey := by
    intro e member _
    obtain ⟨row, found⟩ := Option.isSome_iff_exists.mp (kept.backed e member)
    rw [← toStripeKey_of_rowUnder found]
    exact List.mem_map_of_mem (List.mem_of_find?_eq_some found)
  have grouped := Tally.sum_map_groups
    (fun e => book.isPosted e && decide (e.accountKey = key)) EntryRow.signed
    EntryRow.stripeKey kept.pkBalances covered
  rw [← grouped, cachedBalance, List.map_map, Tally.sumWhere_eq_sum_map]
  refine congrArg List.sum (List.map_congr_left fun row member => ?_)
  have ofStripe : ∀ e : EntryRow, e.stripeKey = row.toStripeKey →
      e.accountKey = (row.tenantId, row.accountId, row.currency) := by
    intro e same
    simp only [EntryRow.accountKey, ← same, EntryRow.stripeKey]
  by_cases mine : (row.tenantId, row.accountId, row.currency) = key
  · rw [if_pos (decide_eq_true mine), ofRow row member]
    refine Tally.sumWhere_congr (fun e _ => ?_) fun _ _ _ => rfl
    by_cases same : e.stripeKey = row.toStripeKey
    · have onAccount : e.accountKey = key := (ofStripe e same).trans mine
      simp [same, onAccount]
    · simp [same]
  · rw [if_neg (by simpa using mine)]
    refine (Tally.sumWhere_eq_zero fun e _ => ?_).symm
    by_cases same : e.stripeKey = row.toStripeKey
    · have elsewhere : e.accountKey ≠ key := fun onAccount =>
        mine ((ofStripe e same).symm.trans onAccount)
      simp [elsewhere]
    · simp [same]

/-- An entry is outstanding exactly when its transaction is. -/
theorem isOutstanding_eq {e : EntryRow} {x : TransactionRow} (member : x ∈ book.transactions)
    (sameTenant : e.tenantId = x.tenantId) (sameId : e.transactionId = x.id) :
    isOutstanding book e = x.isOutstanding book := by
  rw [isOutstanding, sameTenant, sameId, kept.transaction?_of_mem member, Option.any_some,
    TransactionRow.isOutstanding]
  cases x.status <;> simp

/-- The bridge's figure is the signed entries outstanding on the account. -/
theorem pendingFigure_eq (key : String × Uuid × String) :
    pendingFigure book key =
      Tally.sumWhere (fun e => isOutstanding book e && decide (e.accountKey = key))
        EntryRow.signed book.entries := by
  have onAccount : ∀ k ∈ ((book.entries.filter (isOutstanding book)).map
      EntryRow.accountKey).dedup, (book.account? k.1 k.2.1 k.2.2).isSome := by
    intro k member
    obtain ⟨e, isThere, rfl⟩ := List.mem_map.mp (List.mem_dedup.mp member)
    exact kept.onAccount e (List.mem_filter.mp isThere).1
  unfold pendingFigure reconPendingBridge
  dsimp only
  rw [Tally.find?_grouped _ (fun row : PendingBridgeRow =>
    (row.tenantId, row.accountId, row.currency)) fun k member => by
      obtain ⟨a, found⟩ := Option.isSome_iff_exists.mp (onAccount k member)
      rw [found]
      exact ⟨_, rfl, rfl⟩]
  by_cases listed : key ∈ ((book.entries.filter (isOutstanding book)).map
      EntryRow.accountKey).dedup
  · obtain ⟨a, found⟩ := Option.isSome_iff_exists.mp (onAccount key listed)
    rw [if_pos listed, found]
    change Tally.sumWhere _ _ _ - Tally.sumWhere _ _ _ = _
    rw [Tally.sumWhere_filter, Tally.sumWhere_filter, Tally.sumWhere_filter,
      Tally.sumWhere_filter, sumWhere_signed, sumWhere_on, sumWhere_on]
    simp only [Bool.and_assoc]
  · rw [if_neg listed]
    refine (Tally.sumWhere_eq_zero fun e member => ?_).symm
    by_contra counted
    rw [Bool.not_eq_false, Bool.and_eq_true, decide_eq_true_eq] at counted
    refine listed (List.mem_dedup.mpr (List.mem_map.mpr ⟨e, ?_, counted.2⟩))
    exact List.mem_filter.mpr ⟨member, counted.1⟩

/-- The outstanding entries of an account, transaction by transaction. -/
theorem outstanding_movements (key : String × Uuid × String) :
    Tally.sumWhere (fun e => isOutstanding book e && decide (e.accountKey = key))
        EntryRow.signed book.entries =
      Tally.sumWhere (TransactionRow.isOutstanding book) (movementOf book key)
        book.transactions := by
  have nodup : (book.transactions.map fun x => (x.tenantId, x.id)).Nodup := by
    have holds := kept.pkTxn
    rwa [UniqueIndex.Holds, show TransactionRow.primaryKey = some ∘ (fun x : TransactionRow =>
      (x.tenantId, x.id)) from rfl, List.filterMap_eq_map] at holds
  have covered : ∀ e ∈ book.entries,
      (isOutstanding book e && decide (e.accountKey = key)) = true →
        (e.tenantId, e.transactionId) ∈ book.transactions.map fun x => (x.tenantId, x.id) := by
    intro e member _
    obtain ⟨x, isThere, belongs⟩ := kept.belongs e member
    rw [← belongs.tenant, ← belongs.id]
    exact List.mem_map_of_mem isThere
  have grouped := Tally.sum_map_groups
    (fun e => isOutstanding book e && decide (e.accountKey = key)) EntryRow.signed
    (fun e : EntryRow => (e.tenantId, e.transactionId)) nodup covered
  rw [← grouped, List.map_map, Tally.sumWhere_eq_sum_map]
  refine congrArg List.sum (List.map_congr_left fun x member => ?_)
  cases outstanding : x.isOutstanding book with
  | true =>
      rw [if_pos rfl, movementOf]
      refine Tally.sumWhere_congr (fun e isThere => ?_) fun _ _ _ => rfl
      by_cases mine : e.tenantId = x.tenantId ∧ e.transactionId = x.id
      · rw [kept.isOutstanding_eq member mine.1 mine.2, outstanding]
        simp [mine]
      · rw [not_and_or] at mine
        rcases mine with apart | apart <;> simp [apart]
  | false =>
      rw [if_neg Bool.false_ne_true]
      refine Tally.sumWhere_eq_zero fun e isThere => ?_
      by_cases mine : e.tenantId = x.tenantId ∧ e.transactionId = x.id
      · rw [kept.isOutstanding_eq member mine.1 mine.2, outstanding]
        rfl
      · rw [not_and_or] at mine
        rcases mine with apart | apart <;> simp [apart]

end Kept

end OpenLedger
