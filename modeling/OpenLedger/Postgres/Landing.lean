import OpenLedger.Kept
import OpenLedger.Postgres.Append

/-!
# Landing legs on their counters

The stages `striped`, `balance` and `entry` are the same in every statement
that writes entries.  This module says once what they do: when the deltas
cohere with the legs, every leg becomes one entry, on the stripe its account
and the writer pick, numbered just after the counter that was there.
-/

namespace OpenLedger.Postgres

/-- The account and currency a leg's counter is for. -/
def LegRow.counterKey (row : LegRow) : TenantAccountKey := (row.tenantId, row.leg.key)

/-- The account and currency a stripe belongs to. -/
def tenantKeyOf (key : StripeKey) : TenantAccountKey :=
  (key.tenantId, toLex (key.accountId, key.currency))

/-- The stripe a writer lands on: its affinity masked by the account's count. -/
def stripeOf (snapshot : Book) (affinity : Nat) (key : TenantAccountKey) : Option StripeKey :=
  (snapshot.account? key.1 (ofLex key.2).1 (ofLex key.2).2).map fun account =>
    ⟨account.tenantId, account.id, account.currency, affinity % account.stripeCount⟩

def legsOn (key : TenantAccountKey) (legs : List LegRow) : Nat :=
  legs.countP fun row => decide (row.counterKey = key)

def sideOn (direction : Direction) (key : TenantAccountKey) (legs : List LegRow) : Int :=
  Tally.sumWhere (fun row =>
    decide (row.counterKey = key) && decide (row.leg.direction = direction))
    (fun row => row.leg.amountMinor) legs

/-- The deltas are the legs, coalesced: one a counter, with the legs' number
and, where the transaction is posted, their sums. -/
structure Coheres (snapshot : Book) (posted : Bool) (deltas : List DeltaRow)
    (legs : List LegRow) : Prop where
  distinct : (deltas.map DeltaRow.tenantKey).Nodup
  known : ∀ delta ∈ deltas,
    (snapshot.account? delta.tenantId delta.accountId delta.currency).isSome
  covered : ∀ row ∈ legs, row.counterKey ∈ deltas.map DeltaRow.tenantKey
  counted : ∀ delta ∈ deltas, delta.legs = legsOn delta.tenantKey legs
  debits : ∀ delta ∈ deltas,
    delta.input = if posted then sideOn .debit delta.tenantKey legs else 0
  credits : ∀ delta ∈ deltas,
    delta.output = if posted then sideOn .credit delta.tenantKey legs else 0
  offsets : legs.map LegRow.seqOffset = Numbering.walkBack LegRow.counterKey legs

/-- The entry a leg becomes. -/
structure LandedAs (env : Env) (snapshot current : Book) (legs : List LegRow) (row : LegRow)
    (entry : EntryRow) : Prop where
  tenantId : entry.tenantId = row.tenantId
  transactionId : entry.transactionId = row.transactionId
  accountId : entry.accountId = row.leg.accountId
  currency : entry.currency = row.leg.currency
  direction : entry.direction = row.leg.direction
  amountMinor : entry.amountMinor = row.leg.amountMinor
  effectiveAt : entry.effectiveAt = row.effectiveAt
  xactId : entry.xactId = env.xid
  stripe : stripeOf snapshot env.stripeAffinity row.counterKey = some entry.stripeKey
  accountSeq : entry.accountSeq =
    current.lastSeqOn entry.stripeKey + legsOn row.counterKey legs - row.seqOffset

/-- The entries that land are the legs they landed from. -/
theorem legs_of_landed {env : Env} {snapshot current : Book} {legs rows : List LegRow}
    {entries : List EntryRow}
    (landed : List.Forall₂ (LandedAs env snapshot current legs) rows entries) :
    entries.map EntryRow.leg = rows.map LegRow.leg := by
  induction landed with
  | nil =>
      rfl
  | cons asRow _ inductionHypothesis =>
      rw [List.map_cons, List.map_cons, inductionHypothesis, EntryRow.leg, asRow.accountId,
        asRow.currency, asRow.direction, asRow.amountMinor]

section Accounts

variable {book : Book} {tenantId currency : String} {id : Uuid} {account : AccountRow}

/-- A looked-up account carries what it was looked up by. -/
theorem account?_spec (found : book.account? tenantId id currency = some account) :
    account ∈ book.accounts ∧ account.tenantId = tenantId ∧ account.id = id ∧
      account.currency = currency := by
  refine ⟨List.mem_of_find?_eq_some found, ?_⟩
  have carried := List.find?_some found
  simp only [Bool.and_eq_true, decide_eq_true_eq] at carried
  exact ⟨carried.1.1, carried.1.2, carried.2⟩

theorem account?_of_mem (kept : Kept book) {a : AccountRow} (member : a ∈ book.accounts) :
    book.account? a.tenantId a.id a.currency = some a := by
  cases found : book.account? a.tenantId a.id a.currency with
  | none =>
      have refused := List.find?_eq_none.mp found a member
      simp at refused
  | some other =>
      obtain ⟨isThere, sameTenant, sameId, _⟩ := account?_spec found
      refine congrArg some (UniqueIndex.holds_eq kept.pkAccounts isThere member rfl ?_)
      rw [AccountRow.primaryKey, sameTenant, sameId]

/-- The accounts of a tenant in a currency have an id each. -/
theorem accountIds_of_scope (kept : Kept book) (chosen : AccountRow → Bool)
    (ofScope : ∀ a, chosen a = true → a.tenantId = tenantId) :
    ((book.accounts.filter chosen).map AccountRow.id).Nodup := by
  have keyed := List.pairwise_filterMap.mp kept.pkAccounts
  refine List.pairwise_map.mpr ((keyed.filter _).imp_of_mem
    fun {left right} inLeft inRight apart same => ?_)
  have leftTenant := ofScope left (List.mem_filter.mp inLeft).2
  have rightTenant := ofScope right (List.mem_filter.mp inRight).2
  exact apart _ rfl _ rfl (Prod.ext (leftTenant.trans rightTenant.symm) same)

theorem tenantKeyOf_stripeOf {snapshot : Book} {affinity : Nat} {key : TenantAccountKey}
    {stripe : StripeKey} (picked : stripeOf snapshot affinity key = some stripe) :
    tenantKeyOf stripe = key := by
  obtain ⟨found, isThere, rfl⟩ := Option.map_eq_some_iff.mp picked
  obtain ⟨_, tenant, id, currency⟩ := account?_spec isThere
  simp only [tenantKeyOf, tenant, id, currency]
  rfl

end Accounts

section Stripes

variable {snapshot : Book} {affinity : Nat} {deltas : List DeltaRow}

/-- A delta whose account is known becomes one upsert, on its stripe. -/
theorem stripe_of_known (affinity : Nat) {delta : DeltaRow}
    (known : (snapshot.account? delta.tenantId delta.accountId delta.currency).isSome) :
    ∃ stripe, stripeOf snapshot affinity delta.tenantKey = some stripe ∧
      delta.joined snapshot affinity =
        some ⟨stripe, delta.input, delta.output, delta.legs⟩ := by
  obtain ⟨account, found⟩ := Option.isSome_iff_exists.mp known
  refine ⟨⟨account.tenantId, account.id, account.currency, affinity % account.stripeCount⟩,
    ?_, ?_⟩
  · simp only [stripeOf, DeltaRow.tenantKey, ofLex_toLex, found, Option.map_some]
  · rw [DeltaRow.joined, found]
    rfl

theorem mem_striped {upsert : UpsertRow} :
    upsert ∈ striped snapshot affinity deltas ↔
      ∃ delta ∈ deltas, delta.joined snapshot affinity = some upsert := by
  rw [striped, List.mem_insertionSort, List.mem_filterMap]

/-- An upsert is on the stripe its own account picks. -/
theorem stripeOf_of_mem_striped {upsert : UpsertRow}
    (member : upsert ∈ striped snapshot affinity deltas) :
    stripeOf snapshot affinity (tenantKeyOf upsert.toStripeKey) =
      some upsert.toStripeKey := by
  obtain ⟨delta, _, joined⟩ := mem_striped.mp member
  obtain ⟨account, found, rfl⟩ := Option.map_eq_some_iff.mp joined
  obtain ⟨_, tenant, id, currency⟩ := account?_spec found
  have again : snapshot.account? account.tenantId account.id account.currency =
      some account := by
    rw [tenant, id, currency, found]
  exact congrArg (Option.map _) again

/-- The upserts are the deltas, in lock order. -/
theorem striped_keys (known : ∀ delta ∈ deltas,
      (snapshot.account? delta.tenantId delta.accountId delta.currency).isSome) :
    ((striped snapshot affinity deltas).map fun upsert =>
      tenantKeyOf upsert.toStripeKey).Perm (deltas.map DeltaRow.tenantKey) := by
  have sorted := (List.perm_insertionSort
    (fun left right : UpsertRow => left.rank ≤ right.rank)
    (deltas.filterMap (DeltaRow.joined snapshot affinity))).map fun upsert => tenantKeyOf upsert.toStripeKey
  have kept : (deltas.filterMap (DeltaRow.joined snapshot affinity)).map (fun upsert => tenantKeyOf upsert.toStripeKey) =
      deltas.map DeltaRow.tenantKey := by
    clear sorted
    induction deltas with
    | nil =>
        rfl
    | cons delta rest inductionHypothesis =>
        obtain ⟨stripe, picked, upserted⟩ :=
          stripe_of_known affinity (known delta List.mem_cons_self)
        rw [List.filterMap_cons_some upserted, List.map_cons, List.map_cons,
          inductionHypothesis fun other member =>
            known other (List.mem_cons_of_mem _ member),
          tenantKeyOf_stripeOf picked]
  rw [kept] at sorted
  exact sorted

/-- An entry is on a stripe exactly when its leg is on the stripe's counter. -/
theorem LandedAs.stripeKey_eq_iff {env : Env} {current : Book} {legs : List LegRow} {row : LegRow} {entry : EntryRow}
    (landed : LandedAs env snapshot current legs row entry) {key : TenantAccountKey}
    {stripe : StripeKey} (picked : stripeOf snapshot env.stripeAffinity key = some stripe) :
    entry.stripeKey = stripe ↔ row.counterKey = key := by
  constructor
  · intro same
    rw [← tenantKeyOf_stripeOf landed.stripe, same, tenantKeyOf_stripeOf picked]
  · intro same
    have both := landed.stripe
    rw [same, picked, Option.some.injEq] at both
    exact both.symm

end Stripes

/-- A counter can only be found where the account is known. -/
theorem known_of_counterOf {snapshot : Book} (current : Book) (affinity : Nat)
    (deltas : List DeltaRow) {tenantId currency : String} {accountId : Uuid}
    (found : (counterOf (balance current (striped snapshot affinity deltas)) tenantId accountId
      currency).isSome) :
    (snapshot.account? tenantId accountId currency).isSome := by
  obtain ⟨counter, isCounter⟩ := Option.isSome_iff_exists.mp found
  have carried := List.find?_some isCounter
  obtain ⟨upsert, isUpsert, rfl⟩ := List.mem_map.mp (List.mem_of_find?_eq_some isCounter)
  obtain ⟨delta, _, joined⟩ := mem_striped.mp isUpsert
  obtain ⟨account, held, rfl⟩ := Option.map_eq_some_iff.mp joined
  obtain ⟨_, tenant, id, ofCurrency⟩ := account?_spec held
  simp only [Bool.and_eq_true, decide_eq_true_eq] at carried
  obtain ⟨⟨sameTenant, sameId⟩, sameCurrency⟩ :
    (account.tenantId = tenantId ∧ account.id = accountId) ∧ account.currency = currency :=
    carried
  rw [← sameTenant, ← sameId, ← sameCurrency, tenant, id, ofCurrency, held]
  rfl

section OneTenant

/-- The account and currency of a delta. -/
def DeltaRow.key (delta : DeltaRow) : AccountKey := toLex (delta.accountId, delta.currency)

/-- One tenant's legs and deltas cohere when they do leg by leg. -/
theorem coheres_of_legs {snapshot : Book} {tenantId : String} {posted : Bool}
    {deltas : List DeltaRow} {rows : List LegRow}
    (rowsOf : ∀ row ∈ rows, row.tenantId = tenantId)
    (deltasOf : ∀ delta ∈ deltas, delta.tenantId = tenantId)
    (distinct : (deltas.map DeltaRow.key).Nodup)
    (known : ∀ delta ∈ deltas,
      (snapshot.account? delta.tenantId delta.accountId delta.currency).isSome)
    (covered : ∀ row ∈ rows, row.leg.key ∈ deltas.map DeltaRow.key)
    (counted : ∀ delta ∈ deltas, delta.legs = legCount delta.key (rows.map LegRow.leg))
    (debits : ∀ delta ∈ deltas, delta.input =
      if posted then sideSum .debit delta.key (rows.map LegRow.leg) else 0)
    (credits : ∀ delta ∈ deltas, delta.output =
      if posted then sideSum .credit delta.key (rows.map LegRow.leg) else 0)
    (offsets : rows.map LegRow.seqOffset =
      Numbering.walkBack Leg.key (rows.map LegRow.leg)) :
    Coheres snapshot posted deltas rows := by
  have onKey : ∀ delta ∈ deltas, ∀ row ∈ rows,
      row.counterKey = delta.tenantKey ↔ row.leg.key = delta.key := by
    intro delta isDelta row isRow
    simp [LegRow.counterKey, DeltaRow.tenantKey, DeltaRow.key, rowsOf row isRow,
      deltasOf delta isDelta]
  have sides : ∀ delta ∈ deltas, ∀ direction,
      sideSum direction delta.key (rows.map LegRow.leg) =
        sideOn direction delta.tenantKey rows := by
    intro delta isDelta direction
    rw [sideSum, sideOn, Tally.sumWhere_map]
    refine Tally.sumWhere_congr (fun row isRow => ?_) fun _ _ _ => rfl
    simp only [onKey delta isDelta row isRow]
  exact
  { distinct := by
      refine List.Nodup.of_map Prod.snd ?_
      rw [List.map_map]
      exact distinct
    known := known
    covered := fun row isRow => by
      obtain ⟨delta, isDelta, same⟩ := List.mem_map.mp (covered row isRow)
      exact List.mem_map.mpr ⟨delta, isDelta, ((onKey delta isDelta row isRow).mpr
        same.symm).symm⟩
    counted := fun delta isDelta => by
      rw [counted delta isDelta, legCount, legsOn, List.countP_map]
      refine List.countP_congr fun row isRow => ?_
      simp [onKey delta isDelta row isRow]
    debits := fun delta isDelta => by rw [debits delta isDelta, sides delta isDelta]
    credits := fun delta isDelta => by rw [credits delta isDelta, sides delta isDelta]
    offsets := by
      rw [offsets, Numbering.walkBack_map]
      refine Numbering.walkBack_congr fun left isLeft right isRight => ?_
      simp [LegRow.counterKey, rowsOf left isLeft, rowsOf right isRight] }

theorem groupDeltas_keys (tenantId : String) (legs : List Leg) :
    (groupDeltas tenantId legs).map DeltaRow.key = (legs.map Leg.key).dedup := by
  rw [groupDeltas, List.map_map]
  exact List.map_id _

/-- Legs grouped by the SQL `GROUP BY` cohere with themselves. -/
theorem coheres_groupDeltas {snapshot : Book} {tenantId : String} {rows : List LegRow}
    (rowsOf : ∀ row ∈ rows, row.tenantId = tenantId)
    (known : ∀ row ∈ rows,
      (snapshot.account? tenantId row.leg.accountId row.leg.currency).isSome)
    (offsets : rows.map LegRow.seqOffset =
      Numbering.walkBack Leg.key (rows.map LegRow.leg)) :
    Coheres snapshot true (groupDeltas tenantId (rows.map LegRow.leg)) rows := by
  have keys := groupDeltas_keys tenantId (rows.map LegRow.leg)
  have grouped : ∀ delta ∈ groupDeltas tenantId (rows.map LegRow.leg),
      delta = ⟨tenantId, delta.accountId, delta.currency,
        sideSum .debit delta.key (rows.map LegRow.leg),
        sideSum .credit delta.key (rows.map LegRow.leg),
        legCount delta.key (rows.map LegRow.leg)⟩ := by
    intro delta member
    obtain ⟨key, _, rfl⟩ := List.mem_map.mp member
    rfl
  refine coheres_of_legs rowsOf (fun delta member => by rw [grouped delta member])
    (by rw [keys]; exact List.nodup_dedup _) (fun delta member => ?_) (fun row member => ?_)
    (fun delta member => by rw [grouped delta member]; rfl)
    (fun delta member => by rw [grouped delta member]; rfl)
    (fun delta member => by rw [grouped delta member]; rfl) offsets
  · have inKeys : delta.key ∈ (rows.map LegRow.leg).map Leg.key := by
      rw [← List.mem_dedup, ← keys]
      exact List.mem_map_of_mem member
    simp only [List.map_map, List.mem_map, Function.comp_apply] at inKeys
    obtain ⟨row, isRow, same⟩ := inKeys
    simp only [Leg.key, DeltaRow.key, EmbeddingLike.apply_eq_iff_eq, Prod.mk.injEq] at same
    rw [show delta.tenantId = tenantId by rw [grouped delta member], ← same.1, ← same.2]
    exact known row isRow
  · rw [keys, List.mem_dedup]
    exact List.mem_map_of_mem (List.mem_map_of_mem member)

end OneTenant

section Landing

variable (env : Env) {snapshot : Book} (current : Book) {posted : Bool}
  {deltas : List DeltaRow} {legs : List LegRow}

/-- The upsert of a counter's account and currency. -/
theorem Coheres.upsert_of_key (coheres : Coheres snapshot posted deltas legs)
    {key : TenantAccountKey} (covered : key ∈ deltas.map DeltaRow.tenantKey) :
    ∃ stripe, stripeOf snapshot env.stripeAffinity key = some stripe ∧
      (⟨stripe, if posted then sideOn .debit key legs else 0,
        if posted then sideOn .credit key legs else 0, legsOn key legs⟩ : UpsertRow) ∈
          striped snapshot env.stripeAffinity deltas := by
  obtain ⟨delta, member, rfl⟩ := List.mem_map.mp covered
  obtain ⟨stripe, picked, upserted⟩ :=
    stripe_of_known env.stripeAffinity (coheres.known delta member)
  rw [coheres.debits delta member, coheres.credits delta member,
    coheres.counted delta member] at upserted
  exact ⟨stripe, picked, mem_striped.mpr ⟨delta, member, upserted⟩⟩

/-- Every upsert is the coalesced legs of its own counter. -/
theorem Coheres.upsert_spec (coheres : Coheres snapshot posted deltas legs)
    {upsert : UpsertRow} (member : upsert ∈ striped snapshot env.stripeAffinity deltas) :
    ∃ key ∈ deltas.map DeltaRow.tenantKey,
      stripeOf snapshot env.stripeAffinity key = some upsert.toStripeKey ∧
        upsert.input = (if posted then sideOn .debit key legs else 0) ∧
        upsert.output = (if posted then sideOn .credit key legs else 0) ∧
        upsert.legs = legsOn key legs := by
  obtain ⟨delta, isThere, upserted⟩ := mem_striped.mp member
  obtain ⟨stripe, picked, asRow⟩ :=
    stripe_of_known env.stripeAffinity (coheres.known delta isThere)
  rw [asRow, Option.some.injEq] at upserted
  subst upserted
  exact ⟨delta.tenantKey, List.mem_map_of_mem isThere, picked, coheres.debits delta isThere,
    coheres.credits delta isThere, coheres.counted delta isThere⟩

theorem Coheres.upserts_nodup (coheres : Coheres snapshot posted deltas legs) :
    ((striped snapshot env.stripeAffinity deltas).map fun upsert =>
      tenantKeyOf upsert.toStripeKey).Nodup :=
  (striped_keys coheres.known).nodup_iff.mpr coheres.distinct

/-- A leg finds the counter its delta advanced. -/
theorem Coheres.counterOf_eq (coheres : Coheres snapshot posted deltas legs)
    {row : LegRow} (member : row ∈ legs) :
    ∃ stripe, stripeOf snapshot env.stripeAffinity row.counterKey = some stripe ∧
      counterOf (balance current (striped snapshot env.stripeAffinity deltas)) row.tenantId
          row.leg.accountId row.leg.currency =
        some ⟨stripe, current.lastSeqOn stripe + legsOn row.counterKey legs⟩ := by
  obtain ⟨stripe, picked, upserted⟩ :=
    coheres.upsert_of_key env (coheres.covered row member)
  refine ⟨stripe, picked, ?_⟩
  have isKey := tenantKeyOf_stripeOf picked
  have holds : UniqueIndex.Holds (fun counter : CounterRow =>
      some (tenantKeyOf counter.toStripeKey))
      (balance current (striped snapshot env.stripeAffinity deltas)) := by
    have nodup := coheres.upserts_nodup env
    simpa [UniqueIndex.Holds, balance, List.filterMap_map, Function.comp_def] using nodup
  refine UniqueIndex.find?_of_mem holds
    (List.mem_map.mpr ⟨_, upserted, rfl⟩) rfl fun other => ?_
  simp only [Option.some.injEq, Bool.and_eq_true, decide_eq_true_eq]
  rw [isKey]
  constructor
  · rintro ⟨⟨tenant, account⟩, currency⟩
    simp only [tenantKeyOf, LegRow.counterKey, Leg.key, tenant, account, currency]
  · intro equal
    simp only [tenantKeyOf, LegRow.counterKey, Leg.key, Prod.mk.injEq,
      EmbeddingLike.apply_eq_iff_eq] at equal
    exact ⟨⟨equal.1, equal.2.1⟩, equal.2.2⟩

/-- Every leg becomes one entry. -/
theorem Coheres.landed (coheres : Coheres snapshot posted deltas legs) :
    List.Forall₂ (LandedAs env snapshot current legs) legs
      (entry env (balance current (striped snapshot env.stripeAffinity deltas)) legs) := by
  have each : ∀ (rows : List LegRow) (idOf : Nat → Uuid), (∀ row ∈ rows, row ∈ legs) →
      List.Forall₂ (LandedAs env snapshot current legs) rows
        ((rows.filterMap fun row =>
          (counterOf (balance current (striped snapshot env.stripeAffinity deltas))
            row.tenantId row.leg.accountId row.leg.currency).map fun counter =>
              (row, counter)).mapIdx fun index numbered =>
                Postgres.landed env.xid (idOf index) numbered) := by
    intro rows
    induction rows with
    | nil =>
        intro idOf _
        exact List.Forall₂.nil
    | cons row rest inductionHypothesis =>
        intro idOf inside
        obtain ⟨stripe, picked, counter⟩ :=
          coheres.counterOf_eq env current (inside row List.mem_cons_self)
        rw [List.filterMap_cons_some (by rw [counter]; rfl), List.mapIdx_cons]
        have key := tenantKeyOf_stripeOf picked
        simp only [tenantKeyOf, LegRow.counterKey, Leg.key, Prod.mk.injEq,
          EmbeddingLike.apply_eq_iff_eq] at key
        obtain ⟨tenant, account, currency⟩ := key
        have sameStripe : (Postgres.landed env.xid (idOf 0) (row,
            ⟨stripe, current.lastSeqOn stripe + legsOn row.counterKey legs⟩)).stripeKey =
              stripe := by
          simp only [Postgres.landed, EntryRow.stripeKey, ← tenant, ← account, ← currency]
        refine List.Forall₂.cons ?_
          (inductionHypothesis (fun index => idOf (index + 1)) fun other member =>
            inside other (List.mem_cons_of_mem _ member))
        exact
        { tenantId := rfl
          transactionId := rfl
          accountId := rfl
          currency := rfl
          direction := rfl
          amountMinor := rfl
          effectiveAt := rfl
          xactId := rfl
          stripe := by rw [sameStripe, picked]
          accountSeq := by rw [sameStripe]; rfl }
  exact each legs env.entryId fun _ member => member

/-- The entries take the drawn ids in order. -/
theorem entry_ids (counters : List CounterRow) (rows : List LegRow) :
    (entry env counters rows).map EntryRow.id =
      (List.range (entry env counters rows).length).map env.entryId := by
  rw [entry, List.length_mapIdx, List.mapIdx_eq_zipIdx_map, List.map_map, List.range_eq_range',
    ← List.zipIdx_map_snd 0, List.map_map]
  rfl

/-- A stripe is either some delta's, or untouched by upserts and entries
alike. -/
theorem Coheres.stripe_cases (coheres : Coheres snapshot posted deltas legs)
    (stripe : StripeKey) :
    (∃ key ∈ deltas.map DeltaRow.tenantKey,
        stripeOf snapshot env.stripeAffinity key = some stripe) ∨
      ((∀ upsert ∈ striped snapshot env.stripeAffinity deltas,
          upsert.toStripeKey ≠ stripe) ∧
        ∀ row ∈ legs, stripeOf snapshot env.stripeAffinity row.counterKey ≠ some stripe) := by
  by_cases touched : ∃ key ∈ deltas.map DeltaRow.tenantKey,
      stripeOf snapshot env.stripeAffinity key = some stripe
  · exact Or.inl touched
  · refine Or.inr ⟨fun upsert member same => touched ?_, fun row member picked => touched ?_⟩
    · obtain ⟨key, covered, picked, _⟩ := coheres.upsert_spec env member
      exact ⟨key, covered, by rw [picked, same]⟩
    · exact ⟨row.counterKey, coheres.covered row member, picked⟩

/-- No entry lands on a stripe no leg picks. -/
theorem Coheres.none_lands (coheres : Coheres snapshot posted deltas legs)
    {stripe : StripeKey}
    (untouched : ∀ row ∈ legs,
      stripeOf snapshot env.stripeAffinity row.counterKey ≠ some stripe) :
    ∀ e ∈ entry env (balance current (striped snapshot env.stripeAffinity deltas)) legs,
      e.stripeKey ≠ stripe := by
  intro landed member same
  obtain ⟨row, isLeg, asRow⟩ := Tally.exists_left_of_forall₂ (coheres.landed env current) member
  exact untouched row isLeg (by rw [asRow.stripe, same])

/-- One side of one stripe's entries is that side of its counter's legs. -/
theorem Coheres.side_eq (coheres : Coheres snapshot posted deltas legs)
    (direction : Direction) {key : TenantAccountKey} {stripe : StripeKey}
    (picked : stripeOf snapshot env.stripeAffinity key = some stripe) :
    Tally.sumWhere (fun entry : EntryRow =>
        decide (entry.stripeKey = stripe) && decide (entry.direction = direction))
        EntryRow.amountMinor
        (entry env (balance current (striped snapshot env.stripeAffinity deltas)) legs) =
      sideOn direction key legs := by
  refine (Tally.sumWhere_forall₂ (coheres.landed env current)
    fun row entry landed => ⟨?_, fun _ => landed.amountMinor.symm⟩).symm
  rw [decide_eq_decide.mpr (landed.stripeKey_eq_iff picked), landed.direction]

/-- The numbers one stripe's entries take: as many as its counter's legs, just
after the counter that was there. -/
theorem Coheres.numbers_eq (coheres : Coheres snapshot posted deltas legs)
    {key : TenantAccountKey} {stripe : StripeKey}
    (picked : stripeOf snapshot env.stripeAffinity key = some stripe) :
    ((entry env (balance current (striped snapshot env.stripeAffinity deltas)) legs).filter
        fun entry => decide (entry.stripeKey = stripe)).map EntryRow.accountSeq =
      Numbering.countingFrom (current.lastSeqOn stripe) (legsOn key legs) := by
  rw [legsOn, ← Numbering.numbers_of_offsets LegRow.counterKey LegRow.seqOffset
    coheres.offsets key]
  refine (Tally.map_filter_forall₂ (coheres.landed env current)
    fun row entry landed => ⟨?_, fun onKey => ?_⟩).symm
  · rw [decide_eq_decide.mpr (landed.stripeKey_eq_iff picked)]
  · have same := of_decide_eq_true onKey
    rw [landed.accountSeq, (landed.stripeKey_eq_iff picked).mpr same, legsOn, same]

/-- What the upserts add to a stripe is what the entries that land on it are. -/
theorem Coheres.columns (coheres : Coheres snapshot posted deltas legs)
    (stripe : StripeKey) :
    let upserts := striped snapshot env.stripeAffinity deltas
    let entries := entry env (balance current upserts) legs
    let side (direction : Direction) := Tally.sumWhere (fun entry : EntryRow =>
      decide (entry.stripeKey = stripe) && decide (entry.direction = direction))
      EntryRow.amountMinor entries
    let onStripe := entries.filter fun entry => decide (entry.stripeKey = stripe)
    UpsertRow.inputTo stripe upserts = (if posted then side .debit else 0) ∧
      UpsertRow.outputTo stripe upserts = (if posted then side .credit else 0) ∧
      UpsertRow.legsTo stripe upserts = onStripe.length ∧
      onStripe.map EntryRow.accountSeq =
        Numbering.countingFrom (current.lastSeqOn stripe) onStripe.length := by
  intro upserts entries side onStripe
  rcases coheres.stripe_cases env stripe with
    ⟨key, covered, picked⟩ | ⟨noUpsert, noLeg⟩
  · obtain ⟨stripe', picked', upserted⟩ := coheres.upsert_of_key env covered
    obtain rfl : stripe = stripe' := Option.some.inj (picked.symm.trans picked')
    have nodup : (upserts.map UpsertRow.toStripeKey).Nodup :=
      List.Nodup.of_map tenantKeyOf (by
        rw [List.map_map]
        exact coheres.upserts_nodup env)
    have numbers := coheres.numbers_eq env current picked
    have size : onStripe.length = legsOn key legs := by
      simpa using congrArg List.length numbers
    refine ⟨?_, ?_, ?_, by rw [size]; exact numbers⟩
    · simp only [side, entries, upserts, coheres.side_eq env current .debit picked]
      exact Tally.sumWhere_key UpsertRow.input nodup upserted
    · simp only [side, entries, upserts, coheres.side_eq env current .credit picked]
      exact Tally.sumWhere_key UpsertRow.output nodup upserted
    · rw [size]
      exact Tally.sumWhere_key (fun row : UpsertRow => (row.legs : Int)) nodup upserted
  · have noEntry := coheres.none_lands env current noLeg
    have empty : onStripe = [] := List.filter_eq_nil_iff.mpr fun entry member => by
      simpa using noEntry entry member
    have sideZero : ∀ direction, side direction = 0 := fun direction =>
      Tally.sumWhere_eq_zero fun entry member => by simp [noEntry entry member]
    have upsertZero : ∀ amount : UpsertRow → Int,
        Tally.sumWhere (fun row : UpsertRow => decide (row.toStripeKey = stripe)) amount
          upserts = 0 := fun amount =>
      Tally.sumWhere_eq_zero fun upsert member => by simp [noUpsert upsert member]
    refine ⟨?_, ?_, ?_, by rw [empty]; rfl⟩
    · rw [UpsertRow.inputTo, upsertZero, sideZero, ite_self]
    · rw [UpsertRow.outputTo, upsertZero, sideZero, ite_self]
    · rw [UpsertRow.legsTo, upsertZero, empty]
      rfl

/-- An entry's stripe is one the statement upserts. -/
theorem Coheres.upserted (coheres : Coheres snapshot posted deltas legs) :
    ∀ e ∈ entry env (balance current (striped snapshot env.stripeAffinity deltas)) legs,
      e.stripeKey ∈
        (striped snapshot env.stripeAffinity deltas).map UpsertRow.toStripeKey := by
  intro landed member
  obtain ⟨row, isLeg, asRow⟩ := Tally.exists_left_of_forall₂ (coheres.landed env current) member
  obtain ⟨stripe, picked, upserted⟩ :=
    coheres.upsert_of_key env (coheres.covered row isLeg)
  obtain rfl : landed.stripeKey = stripe :=
    Option.some.inj (asRow.stripe.symm.trans picked)
  exact List.mem_map.mpr ⟨_, upserted, rfl⟩

/-- An entry's account exists, holding the entry's currency. -/
theorem Coheres.onAccount (coheres : Coheres snapshot posted deltas legs) :
    ∀ e ∈ entry env (balance current (striped snapshot env.stripeAffinity deltas)) legs,
      (snapshot.account? e.tenantId e.accountId e.currency).isSome := by
  intro landed member
  obtain ⟨row, isLeg, asRow⟩ := Tally.exists_left_of_forall₂ (coheres.landed env current) member
  obtain ⟨delta, isThere, same⟩ := List.mem_map.mp (coheres.covered row isLeg)
  have known := coheres.known delta isThere
  simp only [DeltaRow.tenantKey, LegRow.counterKey, Leg.key, Prod.mk.injEq,
    EmbeddingLike.apply_eq_iff_eq] at same
  rw [asRow.tenantId, asRow.accountId, asRow.currency, ← same.1, ← same.2.1, ← same.2.2]
  exact known

end Landing

/-- One event under a key nobody holds claims it. -/
theorem claims_of_free {current : Book} {event : EventRow}
    (free : current.holderOf event.tenantId event.idempotencyKey = none) :
    UniqueIndex.Admits EventRow.claimKey current.events [event] := by
  refine ⟨List.nodup_singleton _, fun key isNew isHeld => ?_⟩
  obtain rfl := List.mem_singleton.mp isNew
  obtain ⟨held, member, isKey⟩ := List.mem_filterMap.mp isHeld
  simp only [EventRow.claimKey, Option.some.injEq, Prod.mk.injEq] at isKey
  have notHeld := List.find?_eq_none.mp free held member
  simp [isKey.1, isKey.2] at notHeld

/-- A leg is of a transaction, written by this writer under its status. -/
structure LegRow.IsOf (row : LegRow) (xid : Xid) (posted : Bool)
    (transaction : TransactionRow) : Prop where
  tenant : transaction.tenantId = row.tenantId
  id : transaction.id = row.transactionId
  effectiveAt : transaction.effectiveAt = row.effectiveAt
  xactId : transaction.xactId = xid
  status : transaction.status = .posted ↔ posted = true

/-- One side of one transaction's legs in one currency. -/
def legSideOf (tenantId : String) (transactionId : Uuid) (currency : String)
    (direction : Direction) (legs : List LegRow) : Int :=
  Tally.sumWhere (fun row =>
    decide (row.tenantId = tenantId) && decide (row.transactionId = transactionId) &&
      decide (row.leg.currency = currency) && decide (row.leg.direction = direction))
    (fun row => row.leg.amountMinor) legs

/-- Legs of one transaction foot when they cancel in every currency. -/
theorem legSideOf_foots {tenantId : String} {transactionId : Uuid} {rows : List LegRow}
    (ofTenant : ∀ row ∈ rows, row.tenantId = tenantId)
    (ofTransaction : ∀ row ∈ rows, row.transactionId = transactionId)
    (foots : Foots (rows.map LegRow.leg)) (otherTenant : String) (other : Uuid)
    (currency : String) :
    legSideOf otherTenant other currency .debit rows =
      legSideOf otherTenant other currency .credit rows := by
  have side : ∀ direction, legSideOf otherTenant other currency direction rows =
      if tenantId = otherTenant ∧ transactionId = other then
        currencySide direction currency (rows.map LegRow.leg)
      else 0 := by
    intro direction
    split
    · rename_i same
      rw [legSideOf, currencySide, Tally.sumWhere_map]
      refine Tally.sumWhere_congr (fun row member => ?_) fun _ _ _ => rfl
      simp [ofTenant row member, ofTransaction row member, same.1, same.2]
    · rename_i different
      refine Tally.sumWhere_eq_zero fun row member => ?_
      have neither : (decide (row.tenantId = otherTenant) &&
          decide (row.transactionId = other)) = false := by
        simpa [ofTenant row member, ofTransaction row member] using different
      rw [neither, Bool.false_and, Bool.false_and]
  rw [side, side, foots currency]

section Writing

variable {env : Env} {snapshot current : Book} {posted : Bool} {deltas : List DeltaRow}
  {legs : List LegRow} {writes : Writes}

theorem LandedAs.belongsTo {row : LegRow} {e : EntryRow} {transaction : TransactionRow}
    (landed : LandedAs env snapshot current legs row e)
    (isOf : row.IsOf env.xid posted transaction) : e.BelongsTo transaction where
  tenant := isOf.tenant.trans landed.tenantId.symm
  id := isOf.id.trans landed.transactionId.symm
  effectiveAt := landed.effectiveAt.trans isOf.effectiveAt.symm
  xactId := landed.xactId.trans isOf.xactId.symm

/-- The entries of one transaction sum as its legs do. -/
theorem Coheres.sideOf_eq (coheres : Coheres snapshot posted deltas legs)
    (tenantId : String) (transactionId : Uuid) (currency : String) (direction : Direction) :
    sideOf tenantId transactionId currency direction
        (entry env (balance current (striped snapshot env.stripeAffinity deltas)) legs) =
      legSideOf tenantId transactionId currency direction legs := by
  refine (Tally.sumWhere_forall₂ (coheres.landed env current) fun row e landed =>
    ⟨?_, fun _ => landed.amountMinor.symm⟩).symm
  rw [landed.tenantId, landed.transactionId, landed.currency, landed.direction]

/-- Coherent legs of known transactions, positive and footing, land. -/
theorem Coheres.landsEntries (coheres : Coheres snapshot posted deltas legs)
    (precedes : snapshot.Precedes current)
    (upserts : writes.upserts = striped snapshot env.stripeAffinity deltas)
    (entries : writes.entries = entry env (balance current writes.upserts) legs)
    (distinct : UniqueIndex.Holds TransactionRow.primaryKey writes.transactions)
    (owned : ∀ row ∈ legs, ∃ transaction ∈ writes.transactions,
      row.IsOf env.xid posted transaction)
    (positive : ∀ row ∈ legs, 0 < row.leg.amountMinor)
    (foots : ∀ tenantId transactionId currency,
      legSideOf tenantId transactionId currency .debit legs =
        legSideOf tenantId transactionId currency .credit legs) :
    LandsEntries current writes := by
  rw [upserts] at entries
  have columns := coheres.columns env current
  have leg : ∀ e ∈ writes.entries, ∃ row ∈ legs, LandedAs env snapshot current legs row e := by
    intro e member
    rw [entries] at member
    exact Tally.exists_left_of_forall₂ (coheres.landed env current) member
  have belongs : ∀ e ∈ writes.entries, ∃ transaction ∈ writes.transactions,
      e.BelongsTo transaction ∧ (transaction.status = .posted ↔ posted = true) := by
    intro e member
    obtain ⟨row, isLeg, asRow⟩ := leg e member
    obtain ⟨transaction, isThere, isOf⟩ := owned row isLeg
    exact ⟨transaction, isThere, asRow.belongsTo isOf, isOf.status⟩
  have status : ∀ e ∈ writes.entries,
      (decide (writes.statusOf e = some .posted)) = posted := by
    intro e member
    obtain ⟨transaction, isThere, belongsTo, isPosted⟩ := belongs e member
    have found : writes.statusOf e = some transaction.status := by
      rw [Writes.statusOf, ← belongsTo.tenant, ← belongsTo.id,
        UniqueIndex.find?_of_mem distinct isThere rfl fun other => by
          simp [TransactionRow.primaryKey]]
      rfl
    rw [found]
    simp only [Option.some.injEq, isPosted, Bool.decide_eq_true]
  have postedOn : ∀ direction stripe, writes.postedOn direction stripe =
      if posted then Tally.sumWhere (fun e : EntryRow =>
        decide (e.stripeKey = stripe) && decide (e.direction = direction))
        EntryRow.amountMinor writes.entries else 0 := by
    intro direction stripe
    cases isPosted : posted with
    | true =>
        refine Tally.sumWhere_congr (fun e member => ?_) fun _ _ _ => rfl
        rw [status e member, isPosted, Bool.and_true]
    | false =>
        refine Tally.sumWhere_eq_zero fun e member => ?_
        rw [status e member, isPosted, Bool.and_false]
  exact
  { inputs := fun stripe => by
      rw [postedOn, upserts, entries]
      exact (columns stripe).1
    outputs := fun stripe => by
      rw [postedOn, upserts, entries]
      exact (columns stripe).2.1
    counts := fun stripe => by
      rw [Writes.entriesOn, upserts, entries]
      exact (columns stripe).2.2.1
    numbers := fun stripe => by
      rw [Writes.entriesOn, entries]
      exact (columns stripe).2.2.2
    upserted := fun e member => by
      rw [entries] at member
      rw [upserts]
      exact coheres.upserted env current e member
    belongs := fun e member => by
      obtain ⟨transaction, isThere, belongsTo, _⟩ := belongs e member
      exact ⟨transaction, isThere, belongsTo⟩
    onAccount := fun e member => by
      rw [entries] at member
      exact Book.account?_later precedes (coheres.onAccount env current e member)
    positive := fun e member => by
      obtain ⟨row, isLeg, asRow⟩ := leg e member
      rw [asRow.amountMinor]
      exact positive row isLeg
    foots := fun tenantId transactionId currency => by
      rw [entries, coheres.sideOf_eq, coheres.sideOf_eq]
      exact foots tenantId transactionId currency }

end Writing

end OpenLedger.Postgres
