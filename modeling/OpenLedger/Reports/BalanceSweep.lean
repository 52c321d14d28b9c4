import OpenLedger.Reports.Recon

/-!
# The balance sweep

`recon_balance_breaks` compares a counter's balance row with sums, a count and a
maximum over its entries.  Whoever wrote the rows, it lists a counter exactly
when the row and the journal contradict each other there.
-/

namespace OpenLedger

/-- What the schema holds of the counters' rows, whoever writes them: positive
numbers no two entries of an account's stripe share, every entry's transaction
there, and one balance row a counter. -/
structure Book.Countable (book : Book) : Prop where
  seqPositive : ∀ e ∈ book.entries, 0 < e.accountSeq
  uqAccountSeq :
    (book.entries.map fun e => (e.tenantId, e.accountId, e.stripe, e.accountSeq)).Nodup
  onTransaction : ∀ e ∈ book.entries, (book.statusOf e).isSome
  pkBalances : (book.balances.map BalanceRow.toStripeKey).Nodup

/-- A counter's balance row is what its entries say, a row that is not there
holding zeros. -/
structure Book.CounterAgrees (book : Book) (key : StripeKey) : Prop where
  inputs : book.inputOn key = book.postedOn .debit key
  outputs : book.outputOn key = book.postedOn .credit key
  counted : book.lastSeqOn key = (book.entriesOn key).length
  numbered : ((book.entriesOn key).map EntryRow.accountSeq).Perm
    (Numbering.countingFrom 0 (book.entriesOn key).length)
  backed : book.entriesOn key ≠ [] → (book.balance? key).isSome

/-- The greatest number a counter has issued to an entry, zero before the first. -/
def Book.greatestSeqOn (book : Book) (key : StripeKey) : Int :=
  (((book.entriesOn key).map EntryRow.accountSeq).max?).getD 0

/-- What each reason of the sweep says of the counter it is listed for. -/
structure Book.ReasonsHold (book : Book) (key : StripeKey) (reasons : List String) : Prop where
  balanceDrift : "balance_drift" ∈ reasons →
    book.inputOn key ≠ book.postedOn .debit key ∨ book.outputOn key ≠ book.postedOn .credit key
  seqBehind : "seq_behind" ∈ reasons →
    ∃ row, book.balance? key = some row ∧ row.lastSeq < book.greatestSeqOn key
  seqAhead : "seq_ahead" ∈ reasons →
    ∃ row, book.balance? key = some row ∧ book.greatestSeqOn key < row.lastSeq
  seqGap : "seq_gap" ∈ reasons →
    ¬ ((book.entriesOn key).map EntryRow.accountSeq).Perm
      (Numbering.countingFrom 0 (book.entriesOn key).length)
  noCacheRow : "no_cache_row" ∈ reasons →
    book.balance? key = none ∧ book.entriesOn key ≠ []
  noEntries : "no_entries" ∈ reasons →
    book.entriesOn key = [] ∧
      (book.inputOn key ≠ 0 ∨ book.outputOn key ≠ 0 ∨ book.lastSeqOn key ≠ 0)
  known : ∀ reason ∈ reasons, reason ∈ ["balance_drift", "seq_behind", "seq_ahead", "seq_gap",
    "no_cache_row", "no_entries"]

/-- The joined row a counter has, if it has one. -/
def sweptRow (book : Book) (key : StripeKey) : CacheRow :=
  cacheRow key (book.balance? key)
    ((journalRows book).find? fun j => decide (j.toStripeKey = key))

section Joined

variable {book : Book} (joined : ∀ e ∈ book.entries, (book.statusOf e).isSome)

include joined

/-- The join to the transactions drops no entry. -/
theorem joinedEntries_eq : book.joinedEntries = book.entries :=
  List.filter_eq_self.mpr joined

/-- The columns of a counter's journal row. -/
theorem journalRow_columns (key : StripeKey) :
    (journalRow book key).postedInput = book.postedOn .debit key ∧
      (journalRow book key).postedOutput = book.postedOn .credit key ∧
      (journalRow book key).entryCount = (book.entriesOn key).length ∧
      (journalRow book key).maxSeq = book.greatestSeqOn key := by
  have sides : ∀ direction : Direction,
      Tally.sumWhere (fun e => decide (e.direction = direction) && (book.isPosted e == true))
        EntryRow.amountMinor (book.entries.filter fun e => decide (e.stripeKey = key)) =
          book.postedOn direction key := by
    intro direction
    rw [Tally.sumWhere_filter, Book.postedOn]
    refine Tally.sumWhere_congr (fun e _ => ?_) fun _ _ _ => rfl
    rw [beq_true, Bool.and_assoc]
  refine ⟨?_, ?_, ?_, ?_⟩
  · rw [journalRow, joinedEntries_eq joined]
    exact sides .debit
  · rw [journalRow, joinedEntries_eq joined]
    exact sides .credit
  · rw [journalRow, joinedEntries_eq joined]
    rfl
  · rw [journalRow, joinedEntries_eq joined]
    rfl

/-- The join of a counter to the journal: the journal row when there are
entries, and nothing when there are none. -/
theorem journal_found (key : StripeKey) :
    (journalRows book).find? (fun j => decide (j.toStripeKey = key)) =
      if book.entriesOn key = [] then none else some (journalRow book key) := by
  have grouped := Tally.find?_map_grouped JournalRow.toStripeKey
    ((book.joinedEntries.map EntryRow.stripeKey).dedup)
    (fun k => (rfl : (journalRow book k).toStripeKey = k)) key
  rw [joinedEntries_eq joined] at grouped
  rw [journalRows, joinedEntries_eq joined, grouped]
  by_cases empty : book.entriesOn key = []
  · rw [if_pos empty, if_neg]
    intro listed
    obtain ⟨e, isEntry, isKey⟩ := List.mem_map.mp (List.mem_dedup.mp listed)
    have apart := List.filter_eq_nil_iff.mp empty e isEntry
    exact apart (decide_eq_true isKey)
  · rw [if_neg empty, if_pos]
    obtain ⟨e, member⟩ := List.exists_mem_of_ne_nil _ empty
    obtain ⟨isEntry, isKey⟩ := List.mem_filter.mp member
    rw [decide_eq_true_eq] at isKey
    exact List.mem_dedup.mpr (List.mem_map.mpr ⟨e, isEntry, isKey⟩)

omit joined in
theorem posted_eq_zero {key : StripeKey} (empty : book.entriesOn key = [])
    (direction : Direction) : book.postedOn direction key = 0 := by
  refine Tally.sumWhere_eq_zero fun e isEntry => ?_
  have apart := List.filter_eq_nil_iff.mp empty e isEntry
  simp only [decide_eq_true_eq] at apart
  simp [apart]

/-- The columns of a counter's joined row, whichever side is missing. -/
theorem sweptRow_columns (key : StripeKey) :
    (sweptRow book key).cacheMissing = (book.balance? key).isNone ∧
      (sweptRow book key).journalEmpty = decide (book.entriesOn key = []) ∧
      (sweptRow book key).cacheInput = book.inputOn key ∧
      (sweptRow book key).cacheOutput = book.outputOn key ∧
      (sweptRow book key).cacheLastSeq = book.lastSeqOn key ∧
      (sweptRow book key).postedInput = book.postedOn .debit key ∧
      (sweptRow book key).postedOutput = book.postedOn .credit key ∧
      (sweptRow book key).entryCount = (book.entriesOn key).length ∧
      (sweptRow book key).maxSeq = book.greatestSeqOn key := by
  obtain ⟨debits, credits, entries, last⟩ := journalRow_columns joined key
  by_cases empty : book.entriesOn key = []
  · have noDebits := posted_eq_zero empty .debit
    have noCredits := posted_eq_zero empty .credit
    simp [sweptRow, cacheRow, journal_found joined, empty, Book.inputOn, Book.outputOn,
      Book.lastSeqOn, Book.greatestSeqOn, noDebits, noCredits]
  · simp [sweptRow, cacheRow, journal_found joined, empty, Book.inputOn, Book.outputOn,
      Book.lastSeqOn, debits, credits, entries, last]

end Joined

namespace CacheRow

/-- The reasons a row is given, each under its own condition. -/
theorem mem_reasons {row : CacheRow} {reason : String} :
    reason ∈ row.reasons ↔
      ((row.cacheInput ≠ row.postedInput ∨ row.cacheOutput ≠ row.postedOutput) ∧
        reason = "balance_drift") ∨
      ((!row.cacheMissing ∧ row.cacheLastSeq < row.maxSeq) ∧ reason = "seq_behind") ∨
      ((!row.cacheMissing ∧ row.maxSeq < row.cacheLastSeq) ∧ reason = "seq_ahead") ∨
      ((row.entryCount : Int) ≠ row.maxSeq ∧ reason = "seq_gap") ∨
      (row.cacheMissing ∧ reason = "no_cache_row") ∨
      ((row.journalEmpty ∧ (row.cacheInput ≠ 0 ∨ row.cacheOutput ≠ 0 ∨ row.cacheLastSeq ≠ 0)) ∧
        reason = "no_entries") := by
  have given : ∀ (condition : Prop) [Decidable condition] (text : String),
      reason ∈ (if condition then [text] else []) ↔ condition ∧ reason = text := by
    intro condition _ text
    by_cases holds : condition
    · simp [holds]
    · simp [holds]
  simp only [reasons, List.mem_append, given, or_assoc]

theorem known_reasons (row : CacheRow) : ∀ reason ∈ row.reasons, reason ∈ ["balance_drift",
    "seq_behind", "seq_ahead", "seq_gap", "no_cache_row", "no_entries"] := by
  intro reason member
  rcases mem_reasons.mp member with ⟨-, rfl⟩ | ⟨-, rfl⟩ | ⟨-, rfl⟩ | ⟨-, rfl⟩ | ⟨-, rfl⟩ | ⟨-, rfl⟩
  all_goals decide

/-- The `WHERE` and the reasons are two spellings of one condition. -/
theorem reasons_ne_nil_of_breaks {row : CacheRow} (breaks : row.breaks = true) :
    row.reasons ≠ [] := by
  have listed : ∀ reason, reason ∈ row.reasons ↔ _ := fun _ => mem_reasons
  simp only [CacheRow.breaks, Bool.or_eq_true, Bool.and_eq_true, decide_eq_true_eq] at breaks
  rcases breaks with ((((drift | drift) | missing) | ⟨present, counter⟩) | gap) | ⟨empty, nonzero⟩
  · exact List.ne_nil_of_mem ((listed "balance_drift").mpr (by simp [drift]))
  · exact List.ne_nil_of_mem ((listed "balance_drift").mpr (by simp [drift]))
  · exact List.ne_nil_of_mem ((listed "no_cache_row").mpr (by simp [missing]))
  · rcases lt_or_gt_of_ne counter with behind | ahead
    · exact List.ne_nil_of_mem ((listed "seq_behind").mpr (by simp [present, behind]))
    · exact List.ne_nil_of_mem ((listed "seq_ahead").mpr (by simp [present, ahead]))
  · exact List.ne_nil_of_mem ((listed "seq_gap").mpr (by simp [gap]))
  · have stillNonzero : row.cacheInput ≠ 0 ∨ row.cacheOutput ≠ 0 ∨ row.cacheLastSeq ≠ 0 :=
      or_assoc.mp nonzero
    exact List.ne_nil_of_mem ((listed "no_entries").mpr (by simp [empty, stillNonzero]))

end CacheRow

section Sweep

variable {book : Book} (countable : book.Countable)

include countable

theorem balance?_eq_some {row : BalanceRow} (member : row ∈ book.balances) :
    book.balance? row.toStripeKey = some row := by
  cases found : book.balance? row.toStripeKey with
  | none =>
      have refused := List.find?_eq_none.mp found row member
      simp at refused
  | some other =>
      have sameKey := toStripeKey_of_rowUnder found
      rw [List.inj_on_of_nodup_map countable.pkBalances (List.mem_of_find?_eq_some found) member
        sameKey]

/-- The view joins one row a counter, where the counter has a balance row or an
entry. -/
theorem mem_cacheRows {row : CacheRow} :
    row ∈ cacheRows book ↔ ∃ key, row = sweptRow book key ∧
      ((book.balance? key).isSome ∨ book.entriesOn key ≠ []) := by
  rw [cacheRows, List.mem_append]
  constructor
  · rintro (cached | uncached)
    · obtain ⟨balance, isThere, rfl⟩ := List.mem_map.mp cached
      have found := balance?_eq_some countable isThere
      refine ⟨balance.toStripeKey, ?_, Or.inl (by rw [found]; rfl)⟩
      rw [sweptRow, found]
    · obtain ⟨j, inJournal, rfl⟩ := List.mem_map.mp uncached
      obtain ⟨listed, missing⟩ := List.mem_filter.mp inJournal
      obtain ⟨key, isKey, rfl⟩ := List.mem_map.mp listed
      have isRow : (journalRow book key).toStripeKey = key := rfl
      rw [isRow, Option.isNone_iff_eq_none] at missing
      rw [List.mem_dedup, joinedEntries_eq countable.onTransaction] at isKey
      obtain ⟨e, isEntry, sameKey⟩ := List.mem_map.mp isKey
      have notEmpty : book.entriesOn key ≠ [] :=
        List.ne_nil_of_mem (List.mem_filter.mpr ⟨isEntry, decide_eq_true sameKey⟩)
      refine ⟨key, ?_, Or.inr notEmpty⟩
      rw [sweptRow, missing, journal_found countable.onTransaction, if_neg notEmpty, isRow]
  · rintro ⟨key, rfl, present⟩
    cases found : book.balance? key with
    | some balance =>
        have isKey := toStripeKey_of_rowUnder found
        refine Or.inl (List.mem_map.mpr ⟨balance, List.mem_of_find?_eq_some found, ?_⟩)
        rw [sweptRow, found, isKey]
    | none =>
        rw [found] at present
        have notEmpty : book.entriesOn key ≠ [] := by simpa using present
        obtain ⟨e, member⟩ := List.exists_mem_of_ne_nil _ notEmpty
        obtain ⟨isEntry, sameKey⟩ := List.mem_filter.mp member
        rw [decide_eq_true_eq] at sameKey
        refine Or.inr (List.mem_map.mpr ⟨journalRow book key, List.mem_filter.mpr
          ⟨List.mem_map_of_mem (List.mem_dedup.mpr ?_), ?_⟩, ?_⟩)
        · rw [joinedEntries_eq countable.onTransaction]
          exact List.mem_map.mpr ⟨e, isEntry, sameKey⟩
        · rw [show (journalRow book key).toStripeKey = key from rfl, found]
          rfl
        · rw [sweptRow, found, journal_found countable.onTransaction, if_neg notEmpty]
          rfl

/-- A counter's numbers, which no two of its entries share. -/
theorem seqs_distinct (key : StripeKey) :
    ((book.entriesOn key).map EntryRow.accountSeq).Nodup := by
  have mine : ((book.entriesOn key).map fun e =>
      (e.tenantId, e.accountId, e.stripe, e.accountSeq)).Nodup :=
    countable.uqAccountSeq.sublist (List.filter_sublist.map _)
  refine List.Nodup.map_on ?_ (List.Nodup.of_map _ mine)
  intro left leftMember right rightMember same
  have leftKey := of_decide_eq_true (List.mem_filter.mp leftMember).2
  have rightKey := of_decide_eq_true (List.mem_filter.mp rightMember).2
  refine List.inj_on_of_nodup_map mine leftMember rightMember ?_
  have keys : left.stripeKey = right.stripeKey := leftKey.trans rightKey.symm
  simp only [EntryRow.stripeKey, StripeKey.mk.injEq] at keys
  simp only [keys, same]

/-- The count and the maximum agree exactly when nothing is skipped. -/
theorem count_eq_greatest_iff (key : StripeKey) :
    ((book.entriesOn key).length : Int) = book.greatestSeqOn key ↔
      ((book.entriesOn key).map EntryRow.accountSeq).Perm
        (Numbering.countingFrom 0 (book.entriesOn key).length) := by
  have positive : ∀ value ∈ (book.entriesOn key).map EntryRow.accountSeq, 0 < value := by
    intro value member
    obtain ⟨e, isMine, rfl⟩ := List.mem_map.mp member
    exact countable.seqPositive e (List.mem_filter.mp isMine).1
  have counted := Numbering.max?_eq_length_iff positive (seqs_distinct countable key)
  rw [List.length_map] at counted
  exact counted

/-- A counter that has a row in the join breaks exactly when it disagrees. -/
theorem breaks_iff {key : StripeKey}
    (present : (book.balance? key).isSome ∨ book.entriesOn key ≠ []) :
    (sweptRow book key).breaks = true ↔ ¬ book.CounterAgrees key := by
  obtain ⟨missing, empty, input, output, lastSeq, debits, credits, count, greatest⟩ :=
    sweptRow_columns countable.onTransaction key
  have numbered := count_eq_greatest_iff countable key
  have silent : (sweptRow book key).breaks = false ↔ book.CounterAgrees key := by
    simp only [CacheRow.breaks, missing, empty, input, output, lastSeq, debits, credits, count,
      greatest, Bool.or_eq_false_iff, Bool.and_eq_false_iff, decide_eq_false_iff_not, not_not]
    constructor
    · rintro ⟨⟨⟨⟨⟨inputs, outputs⟩, notMissing⟩, counter⟩, gapless⟩, -⟩
      have backed : (book.balance? key).isSome = true := by simpa using notMissing
      have reached : book.lastSeqOn key = book.greatestSeqOn key := by
        rcases counter with isMissing | reached
        · simp [notMissing] at isMissing
        · exact reached
      exact ⟨inputs, outputs, reached.trans gapless.symm, numbered.mp gapless, fun _ => backed⟩
    · intro agrees
      have backed : (book.balance? key).isSome = true := present.elim id agrees.backed
      have gapless := numbered.mpr agrees.numbered
      refine ⟨⟨⟨⟨⟨agrees.inputs, agrees.outputs⟩, by simpa using backed⟩,
        Or.inr (agrees.counted.trans gapless)⟩, gapless⟩, ?_⟩
      by_cases isEmpty : book.entriesOn key = []
      · refine Or.inr ⟨⟨?_, ?_⟩, ?_⟩
        · rw [agrees.inputs, posted_eq_zero isEmpty]
        · rw [agrees.outputs, posted_eq_zero isEmpty]
        · rw [agrees.counted, isEmpty]
          rfl
      · exact Or.inl isEmpty
  rw [← Bool.not_eq_false, silent]

/-- Every reason given of a counter is true of it. -/
theorem reasons_hold {key : StripeKey}
    (present : (book.balance? key).isSome ∨ book.entriesOn key ≠ []) :
    book.ReasonsHold key (sweptRow book key).reasons := by
  obtain ⟨missing, empty, input, output, lastSeq, debits, credits, count, greatest⟩ :=
    sweptRow_columns countable.onTransaction key
  have numbered := count_eq_greatest_iff countable key
  have listed : ∀ reason, reason ∈ (sweptRow book key).reasons ↔ _ :=
    fun _ => CacheRow.mem_reasons
  simp only [missing, empty, input, output, lastSeq, debits, credits, count, greatest] at listed
  have held : ∀ row, book.balance? key = some row → book.lastSeqOn key = row.lastSeq := by
    intro row found
    rw [Book.lastSeqOn, found]
    rfl
  have isThere : (!(book.balance? key).isNone) = true →
      ∃ row, book.balance? key = some row := by
    intro notMissing
    exact Option.isSome_iff_exists.mp (by simpa using notMissing)
  exact {
    balanceDrift := fun member => by
      simpa using (listed _).mp member
    seqBehind := fun member => by
      obtain ⟨notMissing, behind⟩ : _ ∧ _ := by simpa using (listed _).mp member
      obtain ⟨row, found⟩ := isThere (by simpa using notMissing)
      exact ⟨row, found, held row found ▸ behind⟩
    seqAhead := fun member => by
      obtain ⟨notMissing, ahead⟩ : _ ∧ _ := by simpa using (listed _).mp member
      obtain ⟨row, found⟩ := isThere (by simpa using notMissing)
      exact ⟨row, found, held row found ▸ ahead⟩
    seqGap := fun member => by
      have gap := (listed _).mp member
      rw [← numbered]
      simpa using gap
    noCacheRow := fun member => by
      have isMissing : book.balance? key = none := by simpa using (listed _).mp member
      rw [isMissing] at present
      exact ⟨isMissing, by simpa using present⟩
    noEntries := fun member => by
      simpa using (listed _).mp member
    known := CacheRow.known_reasons _ }

/-- The sweep lists a counter exactly when its row and its entries disagree. -/
theorem listed_iff (key : StripeKey) :
    (∃ row ∈ reconBalanceBreaks book, row.toStripeKey = key) ↔ ¬ book.CounterAgrees key := by
  constructor
  · rintro ⟨row, listed, sameKey⟩
    obtain ⟨swept, member, rfl⟩ := List.mem_map.mp listed
    obtain ⟨inJoin, breaks⟩ := List.mem_filter.mp member
    obtain ⟨other, rfl, present⟩ := (mem_cacheRows countable).mp inJoin
    rw [← show other = key from sameKey]
    exact (breaks_iff countable present).mp breaks
  · intro disagrees
    have present : (book.balance? key).isSome ∨ book.entriesOn key ≠ [] := by
      by_contra absent
      obtain ⟨noRow, noEntry⟩ := not_or.mp absent
      rw [Option.not_isSome_iff_eq_none] at noRow
      rw [not_ne_iff] at noEntry
      refine disagrees ⟨?_, ?_, ?_, ?_, fun entered => absurd noEntry entered⟩
      · rw [Book.inputOn, noRow, posted_eq_zero noEntry]
        rfl
      · rw [Book.outputOn, noRow, posted_eq_zero noEntry]
        rfl
      · rw [Book.lastSeqOn, noRow, noEntry]
        rfl
      · rw [noEntry]
        exact List.Perm.refl _
    have breaks := (breaks_iff countable present).mpr disagrees
    have inJoin := (mem_cacheRows countable).mpr ⟨key, rfl, present⟩
    exact ⟨_, List.mem_map_of_mem (List.mem_filter.mpr ⟨inJoin, breaks⟩), rfl⟩

end Sweep

/-- The sweep of the balances lists a counter exactly when its row and its
entries disagree, every reason it gives is true, and every row has one. -/
theorem balance_sweep_is_exact (book : Book) (countable : book.Countable) :
    (∀ key, (∃ row ∈ reconBalanceBreaks book, row.toStripeKey = key) ↔
      ¬ book.CounterAgrees key) ∧
    ∀ row ∈ reconBalanceBreaks book,
      row.reasons ≠ [] ∧ book.ReasonsHold row.toStripeKey row.reasons := by
  refine ⟨listed_iff countable, fun row listed => ?_⟩
  obtain ⟨swept, member, rfl⟩ := List.mem_map.mp listed
  obtain ⟨inJoin, breaks⟩ := List.mem_filter.mp member
  obtain ⟨key, rfl, present⟩ := (mem_cacheRows countable).mp inJoin
  exact ⟨CacheRow.reasons_ne_nil_of_breaks breaks, reasons_hold countable present⟩

/-- Two entries of one account numbered 1 and 3, and a balance row that has
counted to 3. -/
def skippedBook : Book :=
  let till : Uuid := ⟨1, by decide⟩
  let sale : Uuid := ⟨10, by decide⟩
  { Book.empty ⟨[], List.nodup_nil⟩ with
    transactions := [⟨"shop", sale, ⟨11, by decide⟩, "posting", .posted, 0, none, none, 5⟩]
    entries := [
      ⟨"shop", ⟨20, by decide⟩, sale, till, .debit, 70, "USD", 0, 1, 0, 5⟩,
      ⟨"shop", ⟨21, by decide⟩, sale, till, .credit, 70, "USD", 0, 3, 0, 5⟩]
    balances := [⟨⟨"shop", till, "USD", 0⟩, 70, 70, 3⟩] }

/-- The sums and the counter agree there, and the sweep still lists the gap. -/
theorem skippedBook_is_listed :
    (reconBalanceBreaks skippedBook).map BalanceBreak.reasons = [["seq_gap"]] ∧
    (∀ key, (∃ row ∈ reconBalanceBreaks skippedBook, row.toStripeKey = key) ↔
      ¬ skippedBook.CounterAgrees key) ∧
    ∀ row ∈ reconBalanceBreaks skippedBook,
      row.reasons ≠ [] ∧ skippedBook.ReasonsHold row.toStripeKey row.reasons := by
  have countable : skippedBook.Countable :=
    { seqPositive := by decide
      uqAccountSeq := by decide
      onTransaction := by decide
      pkBalances := by decide }
  exact ⟨by decide +kernel, balance_sweep_is_exact skippedBook countable⟩

end OpenLedger
