import OpenLedger.Interleaved
import OpenLedger.Reports.Position

/-!
# Every transaction foots

In a kept book the two sides of a transaction agree in every currency, and its
entries share its date and its writer.  So a window over dates, writers and
statuses never cuts a transaction in half, and whatever it sums foots as well.
-/

namespace OpenLedger

open Postgres

theorem EntryRow.signed_eq (e : EntryRow) : e.signed = e.on .debit + -e.on .credit := by
  cases direction : e.direction <;> simp [signed, on, direction]

/-- The two sides of a sum of signed amounts. -/
theorem sumWhere_signed (keep : EntryRow → Bool) (entries : List EntryRow) :
    Tally.sumWhere keep EntryRow.signed entries =
      Tally.sumWhere keep (fun e => e.on .debit) entries -
        Tally.sumWhere keep (fun e => e.on .credit) entries := by
  have split : ∀ e ∈ entries, keep e → e.signed = e.on .debit + -e.on .credit :=
    fun e _ _ => e.signed_eq
  rw [Tally.sumWhere_congr (fun _ _ => rfl) split, Tally.sumWhere_add, Tally.sumWhere_neg,
    ← sub_eq_add_neg]

/-- Summing one side is summing the entries of that direction. -/
theorem sumWhere_on (direction : Direction) (keep : EntryRow → Bool)
    (entries : List EntryRow) :
    Tally.sumWhere keep (fun e => e.on direction) entries =
      Tally.sumWhere (fun e => keep e && decide (e.direction = direction))
        EntryRow.amountMinor entries := by
  rw [Tally.sumWhere_and]
  simp only [decide_eq_true_eq]
  rfl

/-- A condition on entries that takes a transaction's entries of one currency
all together or not at all. -/
def Uncut (keep : EntryRow → Bool) (entries : List EntryRow) : Prop :=
  ∀ e ∈ entries, ∀ other ∈ entries, e.tenantId = other.tenantId →
    e.transactionId = other.transactionId → e.currency = other.currency → keep e = keep other

namespace Kept

variable {book : Book} (kept : Kept book)

include kept

/-- The signed entries of a transaction in a currency cancel. -/
theorem signed_of_transaction (key : String × Uuid × String) :
    Tally.sumWhere (fun e => decide ((e.tenantId, e.transactionId, e.currency) = key))
      EntryRow.signed book.entries = 0 := by
  have foots := kept.foots key.1 key.2.1 key.2.2
  have sides : ∀ direction, Tally.sumWhere
      (fun e => decide ((e.tenantId, e.transactionId, e.currency) = key))
        (fun e => e.on direction) book.entries =
          sideOf key.1 key.2.1 key.2.2 direction book.entries := by
    intro direction
    rw [sumWhere_on, sideOf]
    refine Tally.sumWhere_congr (fun e _ => ?_) fun _ _ _ => rfl
    simp [Prod.ext_iff, Bool.and_assoc]
  rw [sumWhere_signed, sides, sides, foots, sub_self]

/-- A window that cuts no transaction sums to zero. -/
theorem signed_of_uncut (keep : EntryRow → Bool) (uncut : Uncut keep book.entries) :
    Tally.sumWhere keep EntryRow.signed book.entries = 0 := by
  refine Tally.sumWhere_eq_zero_of_groups
    (fun e : EntryRow => (e.tenantId, e.transactionId, e.currency)) fun key => ?_
  by_cases inside : ∃ e ∈ book.entries,
      keep e ∧ (e.tenantId, e.transactionId, e.currency) = key
  · obtain ⟨e, member, isKept, rfl⟩ := inside
    rw [← kept.signed_of_transaction (e.tenantId, e.transactionId, e.currency)]
    refine Tally.sumWhere_congr (fun other isThere => ?_) fun _ _ _ => rfl
    by_cases same : (other.tenantId, other.transactionId, other.currency) =
        (e.tenantId, e.transactionId, e.currency)
    · have parts := same
      simp only [Prod.mk.injEq] at parts
      have together := uncut other isThere e member parts.1 parts.2.1 parts.2.2
      simp [same, together, isKept]
    · simp [same]
  · refine Tally.sumWhere_eq_zero fun e member => ?_
    by_contra enters
    simp only [Bool.not_eq_false, Bool.and_eq_true, decide_eq_true_eq] at enters
    exact inside ⟨e, member, enters⟩

/-- The entries of one transaction agree on its date, its writer and its
status. -/
theorem same_transaction {e other : EntryRow} (member : e ∈ book.entries)
    (isThere : other ∈ book.entries) (sameTenant : e.tenantId = other.tenantId)
    (sameId : e.transactionId = other.transactionId) :
    e.effectiveAt = other.effectiveAt ∧ e.xactId = other.xactId ∧
      book.isPosted e = book.isPosted other := by
  obtain ⟨x, isX, belongs⟩ := kept.belongs e member
  obtain ⟨y, isY, belongs'⟩ := kept.belongs other isThere
  have same : x = y := by
    refine UniqueIndex.holds_eq kept.pkTxn isX isY rfl ?_
    rw [TransactionRow.primaryKey, belongs.tenant, belongs.id, belongs'.tenant, belongs'.id,
      sameTenant, sameId]
  subst same
  refine ⟨belongs.effectiveAt.trans belongs'.effectiveAt.symm,
    belongs.xactId.trans belongs'.xactId.symm, ?_⟩
  rw [Book.isPosted, Book.isPosted, kept.statusOf_of_belongs isX belongs,
    kept.statusOf_of_belongs isX belongs']

/-- A transaction without entries undoes a pending one, or closes a period that
names it. -/
theorem entryless_cases {x : TransactionRow} (member : x ∈ book.transactions)
    (noEntry : entriesOf book x.tenantId x.id = []) :
    isVoid book x = true ∨ isNamedClose book x = true := by
  rcases kept.nonEmpty x member with entryless | ⟨e, isThere, belongs⟩
  · rcases entryless with isClose | ⟨id, target, reverses, found, pending⟩
    · obtain ⟨close, isThere, closes⟩ := kept.named x member isClose
      refine Or.inr ?_
      rw [isNamedClose, isClose, decide_eq_true rfl, Bool.true_and, List.any_eq_true]
      exact ⟨close, isThere, by simp [closes.tenant, closes.id]⟩
    · obtain ⟨isThere, tenant, sameId⟩ := mem_of_transaction? found
      refine Or.inl ?_
      rw [isVoid, reverses, Option.any_some, List.any_eq_true]
      exact ⟨target, isThere, by simp [tenant, sameId, pending]⟩
  · have isMine : e ∈ entriesOf book x.tenantId x.id :=
      List.mem_filter.mpr ⟨isThere, by simp [belongs.tenant, belongs.id]⟩
    rw [noEntry] at isMine
    cases isMine

/-- Every joined row of a transaction foots, or is a carved-out one. -/
theorem joinedLegs_unbroken {x : TransactionRow} (member : x ∈ book.transactions)
    {g : Option TransactionLegs} (joined : g ∈ joinedLegs book x) :
    ((g.isNone || g.any fun g => decide (g.debits ≠ g.credits)) &&
      !(g.isNone && isVoid book x) && !(g.isNone && isNamedClose book x)) = false := by
  unfold joinedLegs at joined
  split at joined
  · rename_i none
    obtain rfl := List.mem_singleton.mp joined
    have noEntry : entriesOf book x.tenantId x.id = [] := by
      refine List.filter_eq_nil_iff.mpr fun e isThere isMine => ?_
      simp only [Bool.and_eq_true, decide_eq_true_eq] at isMine
      have refused := List.filter_eq_nil_iff.mp none _
        (List.mem_map_of_mem (List.mem_dedup.mpr (List.mem_map_of_mem isThere)))
      simp [isMine.1, isMine.2] at refused
    rcases kept.entryless_cases member noEntry with isVoid | isNamed
    · simp [isVoid]
    · simp [isNamed]
  · obtain ⟨legs, isLegs, rfl⟩ := List.mem_map.mp joined
    obtain ⟨key, _, rfl⟩ := List.mem_map.mp (List.mem_filter.mp isLegs).1
    simp [kept.foots]

/-- The view of broken transactions is empty. -/
theorem reconTransactionBreaks_eq_nil : reconTransactionBreaks book = [] := by
  refine List.flatMap_eq_nil_iff.mpr fun x member => ?_
  rw [List.map_eq_nil_iff, List.filter_eq_nil_iff]
  intro g joined
  rw [kept.joinedLegs_unbroken member joined]
  exact Bool.false_ne_true

/-- The trial balance's joins keep every entry of the tenant's. -/
theorem account_and_type {e : EntryRow} (member : e ∈ book.entries) :
    ∃ a t, book.account? e.tenantId e.accountId e.currency = some a ∧
      a.tenantId = e.tenantId ∧ book.chart.type? a.purpose = some t := by
  obtain ⟨a, found⟩ := Option.isSome_iff_exists.mp (kept.onAccount e member)
  have isThere := List.mem_of_find?_eq_some found
  obtain ⟨⟨t, typed, _⟩, _⟩ := kept.charted a isThere
  have isKey := List.find?_some found
  simp only [Bool.and_eq_true, decide_eq_true_eq] at isKey
  exact ⟨a, t, found, isKey.1.1, typed⟩

/-- One side of the trial balance in a currency is the window's entries. -/
theorem trialBalance_side (tenantId : String) (fromAt toAt : ReportInstant) (cursor : Xid)
    (currency : String) (direction : Direction) :
    Tally.sumWhere (fun joined : TrialEntry => decide (joined.key.currency = currency))
        (fun joined => joined.entry.on direction)
        (trialEntries book tenantId fromAt toAt cursor) =
      Tally.sumWhere (fun e => decide (e.tenantId = tenantId) &&
        decide (e.currency = currency) && (book.isPosted e &&
          fromAt.isReachedBy e.effectiveAt && toAt.isAfter e.effectiveAt &&
          decide (e.xactId < cursor)))
        (fun e => e.on direction) book.entries := by
  rw [trialEntries, Tally.sumWhere_filterMap, Tally.sumWhere_filter]
  refine Tally.sumWhere_congr (fun e member => ?_) fun e member _ => ?_
  all_goals obtain ⟨a, t, found, sameTenant, typed⟩ := kept.account_and_type member
  · rw [found, Option.bind_some, sameTenant]
    by_cases mine : e.tenantId = tenantId
    · rw [if_pos mine, typed]
      simp only [Option.map_some, Option.any_some, TrialEntry.key, mine, decide_true,
        Bool.true_and]
      exact Bool.and_comm _ _
    · simp [mine]
  · rename_i enters
    rw [found, Option.bind_some, sameTenant]
    by_cases mine : e.tenantId = tenantId
    · rw [if_pos mine, typed]
      rfl
    · rw [found, Option.bind_some, sameTenant, if_neg mine] at enters
      simp at enters

/-- The balance of a row of the trial balance is its account's entries in the
window. -/
theorem trialBalance_row {tenantId : String} {fromAt toAt : ReportInstant} {cursor : Xid}
    {row : TrialBalanceRow} (listed : row ∈ trialBalanceAt book tenantId fromAt toAt cursor) :
    row.tenantId = tenantId ∧
      row.balanceDebitPositive = Tally.sumWhere (fun e =>
        decide (e.accountKey = (row.tenantId, row.accountId, row.currency)) &&
          (book.isPosted e && fromAt.isReachedBy e.effectiveAt && toAt.isAfter e.effectiveAt &&
            decide (e.xactId < cursor))) EntryRow.signed book.entries := by
  obtain ⟨key, isKey, rfl⟩ := List.mem_map.mp listed
  obtain ⟨joined, isJoined, rfl⟩ := List.mem_map.mp (List.mem_dedup.mp isKey)
  obtain ⟨e, isThere, isRow⟩ := List.mem_filterMap.mp isJoined
  have member := (List.mem_filter.mp isThere).1
  obtain ⟨a, t, found, ofTenant, typed⟩ := kept.account_and_type member
  obtain ⟨_, _, isId, isCurrency⟩ := account?_spec found
  rw [found, Option.bind_some] at isRow
  by_cases mine : a.tenantId = tenantId
  · rw [if_pos mine, typed] at isRow
    cases isRow
    refine ⟨mine, ?_⟩
    change Tally.sumWhere _ _ (trialEntries book tenantId fromAt toAt cursor) = _
    rw [trialEntries, Tally.sumWhere_filterMap, Tally.sumWhere_filter]
    refine Tally.sumWhere_congr (fun other isOther => ?_) fun other isOther enters => ?_
    all_goals
      obtain ⟨b, u, foundOther, ofTenantOther, typedOther⟩ := kept.account_and_type isOther
      obtain ⟨_, _, isOtherId, _⟩ := account?_spec foundOther
      rw [foundOther, Option.bind_some]
    · change _ = (decide (other.accountKey = (a.tenantId, a.id, e.currency)) && _)
      by_cases same : other.accountKey = (a.tenantId, a.id, e.currency)
      · simp only [EntryRow.accountKey, Prod.mk.injEq] at same
        obtain ⟨sameTenant, sameId, sameCurrency⟩ := same
        rw [sameTenant, sameId, sameCurrency, ofTenant, isId, found] at foundOther
        cases foundOther
        rw [typed] at typedOther
        cases typedOther
        rw [if_pos mine, typed]
        simp [EntryRow.accountKey, TrialEntry.key, sameTenant, sameId, sameCurrency]
      · have otherKey : ∀ joined, (if b.tenantId = tenantId then
            (book.chart.type? b.purpose).map fun t => TrialEntry.mk other b t else none) =
              some joined → joined.key ≠ TrialEntry.key ⟨e, a, t⟩ := by
          intro joined isJoined sameKey
          split at isJoined
          · rw [typedOther] at isJoined
            cases isJoined
            simp only [TrialEntry.key, TrialKey.mk.injEq] at sameKey
            refine same ?_
            rw [EntryRow.accountKey, ← ofTenantOther, ← isOtherId, sameKey.1, sameKey.2.1,
              sameKey.2.2.2.2]
          · cases isJoined
        rw [decide_eq_false same, Bool.false_and]
        refine Bool.and_eq_false_imp.mpr fun _ => ?_
        rw [Option.any_eq_false]
        intro joined isJoined
        simpa using otherKey joined isJoined
    · rw [foundOther, Option.bind_some, Bool.and_eq_true] at enters
      obtain ⟨joined, isJoined, _⟩ := (Option.any_eq_true _ _).mp enters.2
      rw [isJoined]
      split at isJoined
      · rw [typedOther] at isJoined
        cases isJoined
        rfl
      · cases isJoined
  · rw [if_neg mine] at isRow
    cases isRow

/-- The trial balance of any range and cursor foots in every currency. -/
theorem trialBalance_foots (tenantId : String) (fromAt toAt : ReportInstant) (cursor : Xid)
    (currency : String) :
    Tally.sumWhere (fun row : TrialBalanceRow => decide (row.currency = currency))
        TrialBalanceRow.debits (trialBalanceAt book tenantId fromAt toAt cursor) =
      Tally.sumWhere (fun row : TrialBalanceRow => decide (row.currency = currency))
        TrialBalanceRow.credits (trialBalanceAt book tenantId fromAt toAt cursor) := by
  have debits := Tally.sumWhere_grouped (fun key : TrialKey => decide (key.currency = currency))
    (fun joined : TrialEntry => joined.entry.on .debit) TrialEntry.key
    (trialEntries book tenantId fromAt toAt cursor)
  have credits := Tally.sumWhere_grouped (fun key : TrialKey => decide (key.currency = currency))
    (fun joined : TrialEntry => joined.entry.on .credit) TrialEntry.key
    (trialEntries book tenantId fromAt toAt cursor)
  rw [trialBalanceAt, Tally.sumWhere_map, Tally.sumWhere_map]
  refine debits.trans (Eq.trans ?_ credits.symm)
  rw [kept.trialBalance_side, kept.trialBalance_side]
  have window := kept.signed_of_uncut (fun e => decide (e.tenantId = tenantId) &&
    decide (e.currency = currency) && (book.isPosted e &&
      fromAt.isReachedBy e.effectiveAt && toAt.isAfter e.effectiveAt &&
      decide (e.xactId < cursor)))
    (by
      intro e member other isThere sameTenant sameId sameCurrency
      obtain ⟨sameDate, sameWriter, sameStatus⟩ :=
        kept.same_transaction member isThere sameTenant sameId
      simp only [sameTenant, sameCurrency, sameDate, sameWriter, sameStatus])
  rw [sumWhere_signed] at window
  exact sub_eq_zero.mp window

end Kept

/-- In every interleaving, every transaction foots in every currency, only the
reversal of a pending transaction and a close that a period names have no
entries, the entries of a transaction share its date and its writer, and so the
view of broken transactions is empty and every trial balance foots. -/
theorem transactions_foot {sha256 : List UInt8 → List UInt8} {chart : Chart}
    {machine : Machine} (interleaved : Interleaved sha256 chart machine) :
    (∀ x ∈ machine.committed.transactions, ∀ currency,
      sideOf x.tenantId x.id currency .debit machine.committed.entries =
        sideOf x.tenantId x.id currency .credit machine.committed.entries) ∧
      (∀ x ∈ machine.committed.transactions,
        entriesOf machine.committed x.tenantId x.id = [] →
          (∃ id target, x.reversesId = some id ∧
            machine.committed.transaction? x.tenantId id = some target ∧
              target.status = .pending) ∨
          (x.kind = "period_close" ∧ ∃ close ∈ machine.committed.closes,
            close.tenantId = x.tenantId ∧ close.transactionId = x.id)) ∧
      (∀ e ∈ machine.committed.entries, ∃ x ∈ machine.committed.transactions,
        x.tenantId = e.tenantId ∧ x.id = e.transactionId ∧ e.effectiveAt = x.effectiveAt ∧
          e.xactId = x.xactId) ∧
      reconTransactionBreaks machine.committed = [] ∧
      ∀ tenantId fromAt toAt cursor currency,
        Tally.sumWhere (fun row : TrialBalanceRow => decide (row.currency = currency))
            TrialBalanceRow.debits
            (trialBalanceAt machine.committed tenantId fromAt toAt cursor) =
          Tally.sumWhere (fun row : TrialBalanceRow => decide (row.currency = currency))
            TrialBalanceRow.credits
            (trialBalanceAt machine.committed tenantId fromAt toAt cursor) := by
  have kept := (sound_of_interleaved interleaved).kept
  refine ⟨fun x _ => kept.foots x.tenantId x.id, fun x member noEntry => ?_,
    fun e member => ?_, kept.reconTransactionBreaks_eq_nil, kept.trialBalance_foots⟩
  · rcases kept.entryless_cases member noEntry with isVoid | isNamed
    · obtain ⟨id, reverses, undone⟩ := (Option.any_eq_true _ _).mp isVoid
      obtain ⟨target, isThere, isTarget⟩ := List.any_eq_true.mp undone
      simp only [Bool.and_eq_true, decide_eq_true_eq] at isTarget
      obtain ⟨⟨sameTenant, sameId⟩, pending⟩ := isTarget
      have found := kept.transaction?_of_mem isThere
      rw [sameTenant, sameId] at found
      exact Or.inl ⟨id, target, reverses, found, pending⟩
    · rw [isNamedClose, Bool.and_eq_true, List.any_eq_true, decide_eq_true_eq] at isNamed
      obtain ⟨isClose, close, isThere, names⟩ := isNamed
      simp only [Bool.and_eq_true, decide_eq_true_eq] at names
      exact Or.inr ⟨isClose, close, isThere, names⟩
  · obtain ⟨x, isThere, belongs⟩ := kept.belongs e member
    exact ⟨x, isThere, belongs.tenant, belongs.id, belongs.effectiveAt, belongs.xactId⟩

/-- A fee posted beside the close of its period: the writer takes its id first
and commits between the two statements of the close. -/
def Shop.feeBesideClose : List Action :=
  Shop.ready ++ [
    .start (.post (Shop.command "fee" 1000 .posted none 70)) (Shop.envOf 5), .assign 4] ++
    Shop.statements 4 2 ++ [.start (Shop.closing "first") (Shop.envOf 6), .assign 5] ++
    Shop.statements 5 3 ++ Shop.statements 4 1 ++ Shop.statements 5 2

theorem feeBesideClose_foots :
    ((Shop.machineAfter Shop.feeBesideClose).committed.entries.map EntryRow.amountMinor = [70, 70] ∧
      (Shop.machineAfter Shop.feeBesideClose).committed.transactions.map TransactionRow.kind =
        ["posting", "period_close"]) ∧
      reconTransactionBreaks (Shop.machineAfter Shop.feeBesideClose).committed = [] :=
  ⟨by decide +kernel,
    (transactions_foot (Shop.interleaved_machineAfter Shop.feeBesideClose)).2.2.2.1⟩

end OpenLedger
