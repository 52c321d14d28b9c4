import OpenLedger.Writes

/-!
# Reading a book after a write

What the lookups and the counters say of `book.apply writes`, and the order
`Precedes` of books a writer can see on its way: every table of the earlier one
is a prefix of the later one's.
-/

namespace OpenLedger

namespace Book

@[simp]
theorem apply_none (book : Book) : book.apply .none = book := by
  simp [apply, Writes.none]

/-- The writes of a bracket land one statement after the other. -/
theorem apply_append (book : Book) (first second : Writes) :
    book.apply (first.append second) = (book.apply first).apply second := by
  simp [apply, Writes.append, List.foldl_append]

@[simp]
theorem chart_apply (book : Book) (writes : Writes) : (book.apply writes).chart = book.chart := rfl

@[simp]
theorem events_apply (book : Book) (writes : Writes) :
    (book.apply writes).events = book.events ++ writes.events := rfl

@[simp]
theorem transactions_apply (book : Book) (writes : Writes) :
    (book.apply writes).transactions = book.transactions ++ writes.transactions := rfl

@[simp]
theorem accounts_apply (book : Book) (writes : Writes) :
    (book.apply writes).accounts = book.accounts ++ writes.accounts := rfl

@[simp]
theorem entries_apply (book : Book) (writes : Writes) :
    (book.apply writes).entries = book.entries ++ writes.entries := rfl

@[simp]
theorem periods_apply (book : Book) (writes : Writes) :
    (book.apply writes).periods = book.periods ++ writes.periods := rfl

@[simp]
theorem closes_apply (book : Book) (writes : Writes) :
    (book.apply writes).closes = book.closes ++ writes.closes := rfl

@[simp]
theorem periodBalances_apply (book : Book) (writes : Writes) :
    (book.apply writes).periodBalances = book.periodBalances ++ writes.periodBalances := rfl

end Book

namespace UpsertRow

/-- The columns an upsert adds to its row, over one statement's upserts. -/
def inputTo (key : StripeKey) (upserts : List UpsertRow) : Int :=
  Tally.sumWhere (fun row => decide (row.toStripeKey = key)) UpsertRow.input upserts

def outputTo (key : StripeKey) (upserts : List UpsertRow) : Int :=
  Tally.sumWhere (fun row => decide (row.toStripeKey = key)) UpsertRow.output upserts

def legsTo (key : StripeKey) (upserts : List UpsertRow) : Int :=
  Tally.sumWhere (fun row => decide (row.toStripeKey = key)) (fun row => row.legs) upserts

end UpsertRow

/-- A balance row with one upsert in it. -/
def BalanceRow.advance (upsert : UpsertRow) (held : Option BalanceRow) : BalanceRow :=
  { toStripeKey := upsert.toStripeKey
    input := (held.map BalanceRow.input).getD 0 + upsert.input
    output := (held.map BalanceRow.output).getD 0 + upsert.output
    lastSeq := (held.map BalanceRow.lastSeq).getD 0 + upsert.legs }

/-- The row under a key in a list of balance rows. -/
def rowUnder (key : StripeKey) (rows : List BalanceRow) : Option BalanceRow :=
  rows.find? fun row => decide (row.toStripeKey = key)

theorem toStripeKey_of_rowUnder {key : StripeKey} {rows : List BalanceRow} {row : BalanceRow}
    (found : rowUnder key rows = some row) : row.toStripeKey = key := by
  simpa using List.find?_some found

theorem rowUnder_upsertBalance (key : StripeKey) (rows : List BalanceRow)
    (upsert : UpsertRow) :
    rowUnder key (upsertBalance rows upsert) =
      if upsert.toStripeKey = key then
        some (BalanceRow.advance upsert (rowUnder key rows))
      else rowUnder key rows := by
  unfold upsertBalance
  split
  · rename_i held
    induction rows with
    | nil =>
        simp at held
    | cons head tail inductionHypothesis =>
        by_cases headHeld : head.toStripeKey = upsert.toStripeKey
        · by_cases same : upsert.toStripeKey = key
          · simp [rowUnder, BalanceRow.advance, headHeld, same]
          · have inTail : ∀ rest : List BalanceRow,
                rowUnder key (rest.map fun row =>
                  if row.toStripeKey = upsert.toStripeKey then
                    { row with
                      input := row.input + upsert.input
                      output := row.output + upsert.output
                      lastSeq := row.lastSeq + upsert.legs }
                  else row) = rowUnder key rest := by
              intro rest
              induction rest with
              | nil => rfl
              | cons row rows tailHypothesis =>
                  by_cases rowHeld : row.toStripeKey = upsert.toStripeKey
                  · simpa [rowUnder, rowHeld, same] using tailHypothesis
                  · by_cases rowKey : row.toStripeKey = key
                    · simp [rowUnder, rowKey, Ne.symm same]
                    · simpa [rowUnder, rowHeld, rowKey] using tailHypothesis
            rw [if_neg same]
            exact inTail _
        · have tailHeld : (tail.any fun row =>
              decide (row.toStripeKey = upsert.toStripeKey)) = true := by
            simpa [headHeld] using held
          have tailRow := inductionHypothesis tailHeld
          by_cases headKey : head.toStripeKey = key
          · have different : upsert.toStripeKey ≠ key := fun equal =>
              headHeld (headKey.trans equal.symm)
            simp [rowUnder, headKey, different, Ne.symm different]
          · simpa [rowUnder, headHeld, headKey] using tailRow
  · rename_i absent
    have missing : rowUnder upsert.toStripeKey rows = none := by
      simpa [rowUnder] using absent
    by_cases same : upsert.toStripeKey = key
    · subst same
      rw [if_pos rfl, rowUnder, List.find?_append]
      change (rowUnder upsert.toStripeKey rows).or _ = _
      rw [missing]
      simp [BalanceRow.advance]
    · rw [if_neg same, rowUnder, List.find?_append]
      simp [same, rowUnder]

namespace Book

private theorem folded_columns (key : StripeKey) (upserts : List UpsertRow)
    (rows : List BalanceRow) :
    (((rowUnder key (upserts.foldl upsertBalance rows)).map BalanceRow.input).getD 0 =
        ((rowUnder key rows).map BalanceRow.input).getD 0 + UpsertRow.inputTo key upserts) ∧
      (((rowUnder key (upserts.foldl upsertBalance rows)).map BalanceRow.output).getD 0 =
        ((rowUnder key rows).map BalanceRow.output).getD 0 +
          UpsertRow.outputTo key upserts) ∧
      (((rowUnder key (upserts.foldl upsertBalance rows)).map BalanceRow.lastSeq).getD 0 =
        ((rowUnder key rows).map BalanceRow.lastSeq).getD 0 + UpsertRow.legsTo key upserts) := by
  induction upserts generalizing rows with
  | nil =>
      simp [UpsertRow.inputTo, UpsertRow.outputTo, UpsertRow.legsTo]
  | cons upsert rest inductionHypothesis =>
      obtain ⟨inputs, outputs, seqs⟩ := inductionHypothesis (upsertBalance rows upsert)
      rw [List.foldl_cons, inputs, outputs, seqs, rowUnder_upsertBalance]
      simp only [UpsertRow.inputTo, UpsertRow.outputTo, UpsertRow.legsTo, Tally.sumWhere_cons,
        decide_eq_true_eq]
      by_cases same : upsert.toStripeKey = key
      · simp only [same, if_true, Option.map_some, Option.getD_some, BalanceRow.advance]
        refine ⟨?_, ?_, ?_⟩ <;> ring
      · simp [same]

theorem inputOn_apply (book : Book) (writes : Writes) (key : StripeKey) :
    (book.apply writes).inputOn key = book.inputOn key + UpsertRow.inputTo key writes.upserts :=
  (folded_columns key writes.upserts book.balances).1

theorem outputOn_apply (book : Book) (writes : Writes) (key : StripeKey) :
    (book.apply writes).outputOn key =
      book.outputOn key + UpsertRow.outputTo key writes.upserts :=
  (folded_columns key writes.upserts book.balances).2.1

theorem lastSeqOn_apply (book : Book) (writes : Writes) (key : StripeKey) :
    (book.apply writes).lastSeqOn key =
      book.lastSeqOn key + UpsertRow.legsTo key writes.upserts :=
  (folded_columns key writes.upserts book.balances).2.2

/-- A balance row exists after the write when it did before, or when the write
upserts its key. -/
theorem balance?_apply_isSome (book : Book) (writes : Writes) (key : StripeKey) :
    ((book.apply writes).balance? key).isSome ↔
      (book.balance? key).isSome ∨ key ∈ writes.upserts.map UpsertRow.toStripeKey := by
  have folded : ∀ (upserts : List UpsertRow) (rows : List BalanceRow),
      (rowUnder key (upserts.foldl upsertBalance rows)).isSome ↔
        (rowUnder key rows).isSome ∨ key ∈ upserts.map UpsertRow.toStripeKey := by
    intro upserts
    induction upserts with
    | nil =>
        intro rows
        simp
    | cons upsert rest inductionHypothesis =>
        intro rows
        rw [List.foldl_cons, inductionHypothesis, rowUnder_upsertBalance, List.map_cons,
          List.mem_cons]
        by_cases same : upsert.toStripeKey = key
        · simp [same]
        · simp [same, Ne.symm same]
  exact folded writes.upserts book.balances

/-- The keys of the balance table stay distinct: `pk_balances`. -/
theorem balanceKeys_apply (book : Book) (writes : Writes)
    (distinct : (book.balances.map BalanceRow.toStripeKey).Nodup) :
    ((book.apply writes).balances.map BalanceRow.toStripeKey).Nodup := by
  have folded : ∀ (upserts : List UpsertRow) (rows : List BalanceRow),
      (rows.map BalanceRow.toStripeKey).Nodup →
        ((upserts.foldl upsertBalance rows).map BalanceRow.toStripeKey).Nodup := by
    intro upserts
    induction upserts with
    | nil =>
        intro rows nodup
        exact nodup
    | cons upsert rest inductionHypothesis =>
        intro rows nodup
        apply inductionHypothesis
        unfold upsertBalance
        split
        · have sameKeys : (rows.map fun row =>
              if row.toStripeKey = upsert.toStripeKey then
                { row with
                  input := row.input + upsert.input
                  output := row.output + upsert.output
                  lastSeq := row.lastSeq + upsert.legs }
              else row).map BalanceRow.toStripeKey = rows.map BalanceRow.toStripeKey := by
            rw [List.map_map]
            refine List.map_congr_left fun row _ => ?_
            simp only [Function.comp_apply]
            split <;> rfl
          rw [sameKeys]
          exact nodup
        · rename_i absent
          rw [List.map_append, List.nodup_append]
          refine ⟨nodup, by simp, ?_⟩
          intro key inRows other isNew
          simp only [List.map_cons, List.map_nil, List.mem_singleton] at isNew
          subst isNew
          rintro rfl
          obtain ⟨row, member, equal⟩ := List.mem_map.mp inRows
          exact absent (List.any_eq_true.mpr ⟨row, member, by simpa using equal⟩)
  exact folded writes.upserts book.balances distinct

end Book

/-- What an earlier look at the database shows of a later one: the same chart,
and every table but the balances a prefix of what it grew into. -/
structure Book.Precedes (earlier later : Book) : Prop where
  chart : earlier.chart = later.chart
  events : earlier.events <+: later.events
  transactions : earlier.transactions <+: later.transactions
  accounts : earlier.accounts <+: later.accounts
  entries : earlier.entries <+: later.entries
  periods : earlier.periods <+: later.periods
  closes : earlier.closes <+: later.closes
  periodBalances : earlier.periodBalances <+: later.periodBalances

namespace Book.Precedes

theorem refl (book : Book) : book.Precedes book :=
  ⟨rfl, List.prefix_refl _, List.prefix_refl _, List.prefix_refl _, List.prefix_refl _,
    List.prefix_refl _, List.prefix_refl _, List.prefix_refl _⟩

theorem trans {first second third : Book} (left : first.Precedes second)
    (right : second.Precedes third) : first.Precedes third :=
  ⟨left.chart.trans right.chart, left.events.trans right.events,
    left.transactions.trans right.transactions, left.accounts.trans right.accounts,
    left.entries.trans right.entries, left.periods.trans right.periods,
    left.closes.trans right.closes, left.periodBalances.trans right.periodBalances⟩

theorem apply (book : Book) (writes : Writes) : book.Precedes (book.apply writes) :=
  ⟨rfl, List.prefix_append .., List.prefix_append .., List.prefix_append ..,
    List.prefix_append .., List.prefix_append .., List.prefix_append ..,
    List.prefix_append ..⟩

/-- A lookup that found a row in a prefix finds the same row later. -/
theorem find?_of_prefix {Row : Type} {earlier later : List Row} (before : earlier <+: later)
    {condition : Row → Bool} {row : Row} (found : earlier.find? condition = some row) :
    later.find? condition = some row := by
  obtain ⟨rest, rfl⟩ := before
  rw [List.find?_append, found, Option.some_or]

variable {earlier later : Book}

theorem account? (precedes : earlier.Precedes later) {tenantId : String} {id : Uuid}
    {currency : String} {account : AccountRow}
    (found : earlier.account? tenantId id currency = some account) :
    later.account? tenantId id currency = some account :=
  find?_of_prefix precedes.accounts found

theorem transaction? (precedes : earlier.Precedes later) {tenantId : String} {id : Uuid}
    {transaction : TransactionRow}
    (found : earlier.transaction? tenantId id = some transaction) :
    later.transaction? tenantId id = some transaction :=
  find?_of_prefix precedes.transactions found

/-- An entry whose transaction is there keeps its status. -/
theorem statusOf (precedes : earlier.Precedes later) {entry : EntryRow}
    {status : TransactionStatus} (known : earlier.statusOf entry = some status) :
    later.statusOf entry = some status := by
  obtain ⟨transaction, found, rfl⟩ := Option.map_eq_some_iff.mp known
  rw [Book.statusOf, precedes.transaction? found]
  rfl

end Book.Precedes

end OpenLedger
