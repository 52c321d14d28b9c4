import OpenLedger.Interleaved
import OpenLedger.Lib.Join
import OpenLedger.Reports.BalanceSheet

/-!
# The journal-to-reports bridge

`recon_journal_to_reports`: the journal's debits and credits of one tenant and
currency, each reconciling item named, against the population the statements
enumerate.  What is left is `unexplained`, and must be zero.
-/

namespace OpenLedger

open Postgres

/-- The two bounds of the reportable window as the session's clock and time zone
have them: `TIMESTAMPTZ '1900-01-01'` and `now() + interval '1 year'`. -/
structure ReportableWindow where
  start : Timestamp
  stop : Timestamp
deriving DecidableEq, Repr

/-- Whether neither bound of the window refuses the date. -/
def ReportableWindow.covers (window : ReportableWindow) (effectiveAt : Timestamp) : Bool :=
  !(decide (effectiveAt < window.start) || decide (window.stop ≤ effectiveAt))

/-- `bucket`: what the view calls an entry. -/
inductive Bucket where
  | orphan
  | superseded
  | pending
  | outOfWindow
  | reported
deriving DecidableEq, Repr

/-- The type of an entry's account. -/
def Book.typeOf (book : Book) (e : EntryRow) : Option AccountType :=
  (book.account? e.tenantId e.accountId e.currency).bind fun a => book.chart.type? a.purpose

/-- The `CASE` of `classified`. -/
def bucketOf (book : Book) (window : ReportableWindow) (e : EntryRow) : Bucket :=
  match book.transaction? e.tenantId e.transactionId with
  | none => .orphan
  | some x =>
      if (book.typeOf e).isNone then .orphan
      else if x.status ≠ .posted then
        if book.transactions.any fun rr => decide (rr.tenantId = x.tenantId) && rr.names x.id then
          .superseded
        else .pending
      else if window.covers e.effectiveAt then .reported
      else .outOfWindow

/-- Whether the statements enumerate an entry: posted, of a known account, and
its type presented by the current chart version. -/
def isEnumerated (presentation : Presentation) (book : Book) (e : EntryRow) : Bool :=
  book.isPosted e && (book.account? e.tenantId e.accountId e.currency).any fun a =>
    (book.chart.type? a.purpose).isSome && presentation.current.any fun version =>
      (presentation.row? version a.purpose).isSome

/-- A debit sum beside a credit sum. -/
structure Sides where
  debits : Int
  credits : Int
deriving DecidableEq, Repr

namespace Sides

def zero : Sides := ⟨0, 0⟩

def on (sides : Sides) : Direction → Int
  | .debit => sides.debits
  | .credit => sides.credits

end Sides

/-- What the view groups by. -/
def EntryRow.bookKey (e : EntryRow) : String × String := (e.tenantId, e.currency)

/-- The two `SUM(…) FILTER (…)` of one column pair. -/
def sidesOf (entries : List EntryRow) (keep : EntryRow → Bool) (key : String × String) :
    Sides where
  debits := Tally.sumWhere (fun e =>
    decide (e.bookKey = key) && (decide (e.direction = .debit) && keep e))
      EntryRow.amountMinor entries
  credits := Tally.sumWhere (fun e =>
    decide (e.bookKey = key) && (decide (e.direction = .credit) && keep e))
      EntryRow.amountMinor entries

/-- `j`: the classified journal of one tenant and currency. -/
structure JournalSides where
  key : String × String
  journal : Sides
  pending : Sides
  superseded : Sides
  outOfWindow : Sides
  orphan : Sides
  reported : Sides
deriving DecidableEq, Repr

def journalSides (book : Book) (window : ReportableWindow) : List JournalSides :=
  ((book.entries.map EntryRow.bookKey).dedup).map fun key =>
    let inBucket (bucket : Bucket) :=
      sidesOf book.entries (fun e => decide (bucketOf book window e = bucket)) key
    { key
      journal := sidesOf book.entries (fun _ => true) key
      pending := inBucket .pending
      superseded := inBucket .superseded
      outOfWindow := inBucket .outOfWindow
      orphan := inBucket .orphan
      reported := inBucket .reported }

/-- `r`: what the statements enumerate of one tenant and currency. -/
structure EnumeratedSides where
  key : String × String
  tb : Sides
deriving DecidableEq, Repr

def enumeratedSides (presentation : Presentation) (book : Book) : List EnumeratedSides :=
  let enumerated := book.entries.filter (isEnumerated presentation book)
  ((enumerated.map EntryRow.bookKey).dedup).map fun key =>
    { key, tb := sidesOf enumerated (fun _ => true) key }

/-- One row of `recon_journal_to_reports`. -/
structure JournalBridgeRow where
  tenantId : String
  currency : String
  journal : Sides
  pending : Sides
  superseded : Sides
  outOfWindow : Sides
  orphan : Sides
  reported : Sides
  tb : Sides
  unexplained : Sides
  journalMinusReportDebits : Int
deriving DecidableEq, Repr

def journalBridgeRow (j : Option JournalSides) (r : Option EnumeratedSides) :
    JournalBridgeRow :=
  let key := ((j.map JournalSides.key).or (r.map EnumeratedSides.key)).getD ("", "")
  let sides (column : JournalSides → Sides) := (j.map column).getD .zero
  let tb := (r.map EnumeratedSides.tb).getD .zero
  { tenantId := key.1
    currency := key.2
    journal := sides JournalSides.journal
    pending := sides JournalSides.pending
    superseded := sides JournalSides.superseded
    outOfWindow := sides JournalSides.outOfWindow
    orphan := sides JournalSides.orphan
    reported := sides JournalSides.reported
    tb
    unexplained := ⟨(sides JournalSides.reported).debits - tb.debits,
      (sides JournalSides.reported).credits - tb.credits⟩
    journalMinusReportDebits := (sides JournalSides.journal).debits - tb.debits }

/-- `recon_journal_to_reports`. -/
def reconJournalToReports (presentation : Presentation) (book : Book)
    (window : ReportableWindow) : List JournalBridgeRow :=
  (Join.fullJoin (fun j r => decide (r.key = j.key)) (journalSides book window)
    (enumeratedSides presentation book)).map fun pair => journalBridgeRow pair.1 pair.2

section Rows

variable {presentation : Presentation} {book : Book} {window : ReportableWindow}

theorem sidesOf_on (entries : List EntryRow) (keep : EntryRow → Bool) (key : String × String)
    (direction : Direction) :
    (sidesOf entries keep key).on direction =
      Tally.sumWhere (fun e =>
        decide (e.bookKey = key) && (decide (e.direction = direction) && keep e))
          EntryRow.amountMinor entries := by
  cases direction with
  | debit => rfl
  | credit => rfl

/-- What the view has for one tenant and currency that has entries. -/
def bridgeOf (presentation : Presentation) (book : Book) (window : ReportableWindow)
    (key : String × String) : JournalBridgeRow :=
  let inBucket (bucket : Bucket) :=
    sidesOf book.entries (fun e => decide (bucketOf book window e = bucket)) key
  let tb := sidesOf book.entries (isEnumerated presentation book) key
  { tenantId := key.1
    currency := key.2
    journal := sidesOf book.entries (fun _ => true) key
    pending := inBucket .pending
    superseded := inBucket .superseded
    outOfWindow := inBucket .outOfWindow
    orphan := inBucket .orphan
    reported := inBucket .reported
    tb
    unexplained := ⟨(inBucket .reported).debits - tb.debits,
      (inBucket .reported).credits - tb.credits⟩
    journalMinusReportDebits :=
      (sidesOf book.entries (fun _ => true) key).debits - tb.debits }

theorem sidesOf_filter (keep chosen : EntryRow → Bool) (key : String × String) :
    sidesOf (book.entries.filter chosen) keep key =
      sidesOf book.entries (fun e => chosen e && keep e) key := by
  have side : ∀ direction, Tally.sumWhere (fun e =>
        decide (e.bookKey = key) && (decide (e.direction = direction) && keep e))
          EntryRow.amountMinor (book.entries.filter chosen) =
      Tally.sumWhere (fun e =>
        decide (e.bookKey = key) && (decide (e.direction = direction) && (chosen e && keep e)))
          EntryRow.amountMinor book.entries := by
    intro direction
    rw [Tally.sumWhere_filter]
    refine Tally.sumWhere_congr (fun e _ => ?_) fun _ _ _ => rfl
    cases chosen e <;> simp
  rw [sidesOf, sidesOf, side, side]

/-- The outer join finds the enumerated side of a key, and reads a missing one
as zero. -/
theorem tb_of_join (key : String × String) :
    (((enumeratedSides presentation book).find? fun r => decide (r.key = key)).map
        EnumeratedSides.tb).getD .zero =
      sidesOf book.entries (isEnumerated presentation book) key := by
  have grouped : sidesOf (book.entries.filter (isEnumerated presentation book))
        (fun _ => true) key =
      sidesOf book.entries (isEnumerated presentation book) key := by
    rw [sidesOf_filter]
    simp only [Bool.and_true]
  rw [enumeratedSides, Tally.find?_map_grouped EnumeratedSides.key _ fun _ => rfl]
  split
  · exact grouped
  · rename_i absent
    rw [← grouped, sidesOf]
    have nothing : ∀ direction, Tally.sumWhere (fun e =>
        decide (e.bookKey = key) && (decide (e.direction = direction) && true))
          EntryRow.amountMinor (book.entries.filter (isEnumerated presentation book)) = 0 := by
      intro direction
      refine Tally.sumWhere_eq_zero fun e member => ?_
      have different : e.bookKey ≠ key := by
        intro same
        exact absent (List.mem_dedup.mpr (same ▸ List.mem_map_of_mem member))
      rw [decide_eq_false different, Bool.false_and]
    rw [nothing, nothing]
    rfl

/-- One row a tenant and currency with entries, each the sums of its entries. -/
theorem reconJournalToReports_eq :
    reconJournalToReports presentation book window =
      ((book.entries.map EntryRow.bookKey).dedup).map
        (bridgeOf presentation book window) := by
  have alone : ∀ j ∈ journalSides book window,
      ((enumeratedSides presentation book).filter fun r => decide (r.key = j.key)).length ≤ 1 := by
    intro j _
    rw [enumeratedSides, Join.filter_groups (List.nodup_dedup _) _ EnumeratedSides.key
      fun _ => rfl]
    split
    · exact Nat.le_refl 1
    · exact Nat.zero_le 1
  have matched : ∀ r ∈ enumeratedSides presentation book,
      ∃ j ∈ journalSides book window, decide (r.key = j.key) = true := by
    intro r member
    obtain ⟨key, inKeys, rfl⟩ := List.mem_map.mp member
    obtain ⟨e, inEntries, isKey⟩ := List.mem_map.mp (List.mem_dedup.mp inKeys)
    refine ⟨_, List.mem_map_of_mem (List.mem_dedup.mpr
      (List.mem_map_of_mem (List.mem_filter.mp inEntries).1)), ?_⟩
    exact decide_eq_true isKey.symm
  rw [reconJournalToReports, Join.fullJoin_eq_map alone matched, journalSides, List.map_map,
    List.map_map]
  refine List.map_congr_left fun key _ => ?_
  have tb := @tb_of_join presentation book key
  simp only [Function.comp_apply, journalBridgeRow, Option.map_some, Option.getD_some,
    Option.some_or, tb, bridgeOf]

/-- The five buckets and the journal, on one side. -/
theorem journal_eq_buckets (key : String × String) (direction : Direction) :
    (sidesOf book.entries (fun _ => true) key).on direction =
      ([Bucket.pending, .superseded, .outOfWindow, .orphan, .reported].map fun bucket =>
        (sidesOf book.entries (fun e => decide (bucketOf book window e = bucket)) key).on
          direction).sum := by
  have groups := Tally.sum_map_groups
    (fun e : EntryRow => decide (e.bookKey = key) && decide (e.direction = direction))
    EntryRow.amountMinor (bucketOf book window)
    (show [Bucket.pending, .superseded, .outOfWindow, .orphan, .reported].Nodup by decide)
    (fun e (_ : e ∈ book.entries) _ => by cases bucketOf book window e <;> decide)
  simp only [sidesOf_on, Bool.and_true, ← Bool.and_assoc]
  exact groups.symm

end Rows

/-- Every account type with posted entries is presented at the current version. -/
def Presentation.CoversPosted (presentation : Presentation) (book : Book) : Prop :=
  ∀ e ∈ book.entries, book.isPosted e = true →
    ∀ a, book.account? e.tenantId e.accountId e.currency = some a →
      ∃ version, presentation.current = some version ∧
        (presentation.row? version a.purpose).isSome = true

section Foots

variable {presentation : Presentation} {book : Book} {window : ReportableWindow}
  (kept : Kept book)

include kept

/-- A kept book's entries are each on an account of a charted type. -/
theorem typed_account {e : EntryRow} (member : e ∈ book.entries) :
    ∃ a type, book.account? e.tenantId e.accountId e.currency = some a ∧
      book.chart.type? a.purpose = some type := by
  obtain ⟨a, found⟩ := Option.isSome_iff_exists.mp (kept.onAccount e member)
  obtain ⟨type, typed, _⟩ := (kept.charted a (List.mem_of_find?_eq_some found)).typed
  exact ⟨a, type, found, typed⟩

theorem isEnumerated_eq (covers : presentation.CoversPosted book) {e : EntryRow}
    (member : e ∈ book.entries) :
    isEnumerated presentation book e = book.isPosted e := by
  obtain ⟨a, type, found, typed⟩ := typed_account kept member
  rw [isEnumerated, found, Option.any_some, typed]
  cases posted : book.isPosted e with
  | false =>
      rfl
  | true =>
      obtain ⟨version, current, presented⟩ := covers e member posted a found
      rw [current, Option.any_some, presented]
      rfl

/-- A kept book's posted entries are reported, or out of the window. -/
theorem reported_iff {e : EntryRow} (member : e ∈ book.entries) :
    decide (bucketOf book window e = .reported) =
      (book.isPosted e && window.covers e.effectiveAt) := by
  obtain ⟨a, type, found, typed⟩ := typed_account kept member
  have isTyped : book.typeOf e = some type := by
    rw [Book.typeOf, found]
    exact typed
  rw [bucketOf, Book.isPosted, Book.statusOf]
  cases book.transaction? e.tenantId e.transactionId with
  | none =>
      simp
  | some x =>
      by_cases posted : x.status = .posted
      · cases window.covers e.effectiveAt <;> simp [isTyped, posted]
      · by_cases retired : (book.transactions.any fun rr =>
            decide (rr.tenantId = x.tenantId) && rr.names x.id) = true
        · simp only [isTyped, Option.isNone_some, Bool.false_eq_true, if_false, if_pos posted,
            if_pos retired]
          simp [posted]
        · simp only [isTyped, Option.isNone_some, Bool.false_eq_true, if_false, if_pos posted,
            if_neg retired]
          simp [posted]

/-- What the bridge leaves unexplained on one side: the posted entries its
window refuses, taken off. -/
theorem unexplained_eq (covers : presentation.CoversPosted book) (key : String × String)
    (direction : Direction) :
    (bridgeOf presentation book window key).unexplained.on direction =
      -Tally.sumWhere (fun e => decide (e.bookKey = key) &&
        (decide (e.direction = direction) &&
          (book.isPosted e && !window.covers e.effectiveAt)))
        EntryRow.amountMinor book.entries := by
  have column : (bridgeOf presentation book window key).unexplained.on direction =
      (sidesOf book.entries
        (fun e => decide (bucketOf book window e = .reported)) key).on direction -
      (sidesOf book.entries (isEnumerated presentation book) key).on direction := by
    cases direction with
    | debit => rfl
    | credit => rfl
  have reported : (sidesOf book.entries
        (fun e => decide (bucketOf book window e = .reported)) key).on direction =
      Tally.sumWhere (fun e => decide (e.bookKey = key) && decide (e.direction = direction) &&
        book.isPosted e && window.covers e.effectiveAt) EntryRow.amountMinor book.entries := by
    rw [sidesOf_on]
    refine Tally.sumWhere_congr (fun e member => ?_) fun _ _ _ => rfl
    rw [reported_iff kept member]
    simp only [Bool.and_assoc]
  have enumerated : (sidesOf book.entries (isEnumerated presentation book) key).on direction =
      Tally.sumWhere (fun e => decide (e.bookKey = key) && decide (e.direction = direction) &&
        book.isPosted e) EntryRow.amountMinor book.entries := by
    rw [sidesOf_on]
    refine Tally.sumWhere_congr (fun e member => ?_) fun _ _ _ => rfl
    rw [isEnumerated_eq kept covers member, Bool.and_assoc]
  rw [column, reported, enumerated,
    Tally.sumWhere_split (fun e => decide (e.bookKey = key) && decide (e.direction = direction) &&
      book.isPosted e) fun e => window.covers e.effectiveAt]
  simp only [Bool.and_assoc]
  ring

/-- One side of the bridge foots exactly when the window refuses no posted entry
of that side. -/
theorem unexplained_eq_zero_iff (covers : presentation.CoversPosted book)
    (key : String × String) (direction : Direction) :
    (bridgeOf presentation book window key).unexplained.on direction = 0 ↔
      ∀ e ∈ book.entries, e.bookKey = key → e.direction = direction →
        book.isPosted e = true → window.covers e.effectiveAt = true := by
  rw [unexplained_eq kept covers, neg_eq_zero]
  constructor
  · intro none e member isKey onSide posted
    by_contra outside
    have positive := @Tally.sumWhere_pos _
      (fun e : EntryRow => decide (e.bookKey = key) && (decide (e.direction = direction) &&
        (book.isPosted e && !window.covers e.effectiveAt))) _ _
      (fun other inEntries _ => kept.positive other inEntries) e member
      (by simp [isKey, onSide, posted, outside])
    omega
  · intro within
    refine Tally.sumWhere_eq_zero fun e member => ?_
    by_cases isKey : e.bookKey = key
    · by_cases onSide : e.direction = direction
      · cases posted : book.isPosted e with
        | false => simp
        | true => simp [within e member isKey onSide posted]
      · simp [onSide]
    · simp [isKey]

end Foots

/-- What the bridge says of one tenant and currency: its five buckets partition
the journal, and it foots exactly when no posted entry is dated outside its
window. -/
structure JournalBridgeRow.Foots (row : JournalBridgeRow) (book : Book)
    (window : ReportableWindow) : Prop where
  partition : ∀ direction, row.journal.on direction =
    row.pending.on direction + row.superseded.on direction + row.outOfWindow.on direction +
      row.orphan.on direction + row.reported.on direction
  reported : (∀ direction, row.reported.on direction = row.tb.on direction) ↔
    row.unexplained = .zero
  explained : row.unexplained = .zero ↔
    ∀ e ∈ book.entries, e.tenantId = row.tenantId → e.currency = row.currency →
      book.isPosted e = true → window.covers e.effectiveAt = true

theorem Sides.ext_on {left right : Sides} (same : ∀ direction, left.on direction =
    right.on direction) : left = right := by
  have debits : left.debits = right.debits := same .debit
  have credits : left.credits = right.credits := same .credit
  cases left
  cases right
  rw [Sides.mk.injEq]
  exact ⟨debits, credits⟩

theorem bridgeOf_foots {presentation : Presentation} {book : Book} {window : ReportableWindow}
    (kept : Kept book) (covers : presentation.CoversPosted book) (key : String × String) :
    (bridgeOf presentation book window key).Foots book window := by
  have zero_iff : (bridgeOf presentation book window key).unexplained = .zero ↔
      ∀ direction, (bridgeOf presentation book window key).unexplained.on direction = 0 := by
    constructor
    · intro isZero direction
      rw [isZero]
      cases direction <;> rfl
    · intro zero
      exact Sides.ext_on fun direction => by cases direction <;> exact zero _
  constructor
  · intro direction
    have buckets := @journal_eq_buckets book window key direction
    simp only [List.map_cons, List.map_nil, List.sum_cons, List.sum_nil, add_zero] at buckets
    simp only [bridgeOf, buckets]
    ring
  · rw [zero_iff]
    refine forall_congr' fun direction => ?_
    cases direction with
    | debit => exact Int.sub_eq_zero.symm
    | credit => exact Int.sub_eq_zero.symm
  · rw [zero_iff]
    constructor
    · intro zero e member tenant currency posted
      exact (unexplained_eq_zero_iff kept covers key e.direction).mp (zero _) e member
        (Prod.ext tenant currency) rfl posted
    · intro within direction
      refine (unexplained_eq_zero_iff kept covers key direction).mpr fun e member isKey _ => ?_
      exact within e member (congrArg Prod.fst isKey) (congrArg Prod.snd isKey)

/-- The journal-to-reports bridge of any interleaving has one row a tenant and
currency with entries, and foots there exactly when none of its posted entries
is dated outside the window. -/
theorem journal_bridge_foots {sha256 : List UInt8 → List UInt8} {chart : Chart}
    {machine : Machine} (interleaved : Interleaved sha256 chart machine)
    {presentation : Presentation} (covers : presentation.CoversPosted machine.committed)
    (window : ReportableWindow) :
    ((reconJournalToReports presentation machine.committed window).map
        fun row => (row.tenantId, row.currency)).Nodup ∧
    (∀ e ∈ machine.committed.entries,
      ∃ row ∈ reconJournalToReports presentation machine.committed window,
        row.tenantId = e.tenantId ∧ row.currency = e.currency) ∧
    ∀ row ∈ reconJournalToReports presentation machine.committed window,
      row.Foots machine.committed window := by
  have kept := (sound_of_interleaved interleaved).kept
  rw [reconJournalToReports_eq]
  refine ⟨?_, ?_, ?_⟩
  · rw [List.map_map]
    have keyed : (fun row : JournalBridgeRow => (row.tenantId, row.currency)) ∘
        bridgeOf presentation machine.committed window = id := rfl
    rw [keyed, List.map_id]
    exact List.nodup_dedup _
  · intro e member
    exact ⟨_, List.mem_map_of_mem (List.mem_dedup.mpr (List.mem_map_of_mem member)), rfl, rfl⟩
  · intro row member
    obtain ⟨key, _, rfl⟩ := List.mem_map.mp member
    exact bridgeOf_foots kept covers key

namespace Shop

/-- The reportable window on 1 September 2026, UTC. -/
def inSeptember : ReportableWindow := ⟨-2208988800000000, 1819756800000000⟩

/-- A fee dated 27 August 2226. -/
def farFee : List Action :=
  ready ++ session 4 5 (.post (command "fee" 8099179200000000000 .posted none 70)) 3

theorem faces_coversPosted (actions : List Action)
    (presented : ∀ a ∈ (machineAfter actions).committed.accounts,
      ∃ version, faces.current = some version ∧
        (faces.row? version a.purpose).isSome = true) :
    faces.CoversPosted (machineAfter actions).committed :=
  fun _ _ _ a found => presented a (List.mem_of_find?_eq_some found)

/-- The accepted fee is in no report the bridge compares and in every statement:
70 debited and 70 credited stay unexplained. -/
theorem farFee_unexplained :
    Interleaved id chart (machineAfter farFee) ∧
      faces.CoversPosted (machineAfter farFee).committed ∧
        ∃ row ∈ reconJournalToReports faces (machineAfter farFee).committed inSeptember,
          row.unexplained = ⟨-70, -70⟩ := by
  refine ⟨interleaved_machineAfter farFee, faces_coversPosted farFee ?_, ?_⟩
  · intro a member
    refine ⟨1, by decide, ?_⟩
    revert a
    decide +kernel
  · decide +kernel

/-- The fee and the close of 1970 foot in September 2026. -/
theorem feeThenClose_foots :
    ∃ row ∈ reconJournalToReports faces (machineAfter feeThenClose).committed inSeptember,
      row.currency = "USD" ∧ row.unexplained = .zero := by
  have covers : faces.CoversPosted (machineAfter feeThenClose).committed := by
    refine faces_coversPosted feeThenClose fun a member => ⟨1, by decide, ?_⟩
    revert a
    decide +kernel
  obtain ⟨_, listed, foots⟩ :=
    journal_bridge_foots (interleaved_machineAfter feeThenClose) covers inSeptember
  have within : ∀ e ∈ (machineAfter feeThenClose).committed.entries,
      e.currency = "USD" ∧ inSeptember.covers e.effectiveAt = true := by
    decide +kernel
  have some : ∃ e, e ∈ (machineAfter feeThenClose).committed.entries := by
    have held : 0 < (machineAfter feeThenClose).committed.entries.length := by decide +kernel
    exact List.exists_mem_of_length_pos held
  obtain ⟨e, member⟩ := some
  obtain ⟨row, inView, tenant, currency⟩ := listed e member
  refine ⟨row, inView, currency.trans (within e member).1, (foots row inView).explained.mpr ?_⟩
  exact fun other isThere _ _ _ => (within other isThere).2

end Shop

end OpenLedger
