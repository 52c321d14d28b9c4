import OpenLedger.Landed
import OpenLedger.Sequential

/-!
# A statement and what commits behind it

A single call reads its target and its accounts from one snapshot and numbers its
legs against what is current when it runs.  As long as brackets only land behind
the snapshot, and none moves a balance row it holds, it would answer and write the
same over the later book.
-/

namespace OpenLedger

open Postgres

/-- What others did beside an open bracket: their brackets landed, its writes still
land, and no balance row it holds has moved. -/
structure Since (written : Writes) (before after : Book) : Prop
    extends Grows written before after where
  landed : Landed (fun _ => True) before after
  counters : ∀ key ∈ written.upserts.map UpsertRow.toStripeKey,
    after.lastSeqOn key = before.lastSeqOn key

namespace Since

variable {written : Writes} {first second third : Book}

theorem refl (written : Writes) (book : Book) : Since written book book where
  toGrows := .refl written book
  landed := .refl
  counters := fun _ _ => rfl

theorem trans (left : Since written first second) (right : Since written second third) :
    Since written first third where
  toGrows := left.toGrows.trans right.toGrows
  landed := left.landed.trans right.landed
  counters := fun key isHeld => (right.counters key isHeld).trans (left.counters key isHeld)

end Since

/-- Another bracket's commit, apart from what is written. -/
theorem since_of_commit {book : Book} {written other : Writes} (kept : Kept book)
    (lands : Lands book other) (apart : written.Apart other) :
    Since written book (book.apply other) where
  toGrows := grows_of_commit kept lands apart
  landed := Landed.refl.bracket kept lands trivial
  counters := fun key isHeld => (book.counter_behind (apart.rows key isHeld)).2.2

/-- Whatever names an id supersedes it. -/
theorem Kept.supersessionKey_of_names {book : Book} (kept : Kept book) {other : TransactionRow}
    (member : other ∈ book.transactions) {id : Uuid} (isNamed : other.names id = true) :
    other.supersessionKey = some (other.tenantId, id) := by
  simp only [TransactionRow.names, Bool.or_eq_true, decide_eq_true_eq] at isNamed
  rcases isNamed with resolves | reverses
  · simp [TransactionRow.supersessionKey, TransactionRow.supersedes, resolves]
  · have notResolves : other.resolvesId = none := by
      rcases kept.notBoth other member with none | none
      · exact none
      · rw [none] at reverses
        cases reverses
    simp [TransactionRow.supersessionKey, TransactionRow.supersedes, notResolves, reverses]

/-- No constraint speaks against writes that land, whatever the zone check knew of the
book they were first checked against. -/
theorem violation_of_lands {env : Env} {book later : Book} {writes : Writes}
    (allowed : violation env.tzKnown book writes = none) (lands : Lands later writes) :
    violation env.tzKnown later writes = none := by
  obtain ⟨_, admits⟩ := lands.admitted
  have was := (violation_eq_none_iff ..).mp allowed
  exact (violation_eq_none_iff ..).mpr { admits with ckPeriodsTzKnown := was.ckPeriodsTzKnown }

/-- The key of an event that lands is free. -/
theorem free_of_lands {book : Book} {writes : Writes} (lands : Lands book writes)
    {event : EventRow} (isThere : event ∈ writes.events) :
    book.holderOf event.tenantId event.idempotencyKey = none := by
  rw [Book.holderOf, List.find?_eq_none]
  intro held isHeld sameKey
  simp only [Bool.and_eq_true, decide_eq_true_eq] at sameKey
  refine lands.claims.2 (event.tenantId, event.idempotencyKey)
    (List.mem_filterMap.mpr ⟨event, isThere, rfl⟩)
    (List.mem_filterMap.mpr ⟨held, isHeld, ?_⟩)
  rw [EventRow.claimKey, sameKey.1, sameKey.2]

/-- A statement of a landed chain is found the same entries under an old transaction. -/
theorem entriesOf_landed {wrote : Writes → Prop} {book later : Book}
    (landed : Landed wrote book later) {x : TransactionRow} (isThere : x ∈ book.transactions) :
    entriesOf later x.tenantId x.id = entriesOf book x.tenantId x.id := by
  obtain ⟨entries, _, areEntries, _, apart, _⟩ := landed.behind
  have none : (entries.filter fun entry =>
      decide (entry.tenantId = x.tenantId) && decide (entry.transactionId = x.id)) = [] := by
    rw [List.filter_eq_nil_iff]
    intro e member isOf
    simp only [Bool.and_eq_true, decide_eq_true_eq] at isOf
    exact apart e member x isThere isOf.1 isOf.2
  rw [entriesOf, entriesOf, areEntries, List.filter_append, none, List.append_nil]

section Append

variable {env : Env} {snapshot current later : Book} {command : PostTransaction}
  {hash : List UInt8} {payload : Json} {append : Append}

/-- What the gate admits is not superseded yet. -/
theorem unsuperseded_of_admitted {id : Uuid} (named : supersededId command = some id)
    {target : SupersedeTarget} (admitted : gateAdmits command (some target) = true) :
    target.targetAlreadySuperseded = false := by
  have pointed : ¬ (command.resolvesId = none ∧ command.reversesId = none) := by
    rintro ⟨noResolution, noReversal⟩
    simp [supersededId, noResolution, noReversal] at named
  simp only [gateAdmits, Option.any_some, Bool.or_eq_true, Bool.and_eq_true,
    Option.isNone_iff_eq_none, Bool.not_eq_true'] at admitted
  rcases admitted with (none | ⟨_, _, notYet⟩) | ⟨_, _, notYet⟩
  · exact absurd none pointed
  · exact notYet
  · exact notYet

/-- A named transaction's row, as the gate reads it. -/
theorem supersedeTarget_of_found {book : Book} {id : Uuid} {row : TransactionRow}
    (named : supersededId command = some id)
    (found : book.transaction? command.tenantId id = some row) :
    supersedeTarget book command = some
      { effectiveAt := row.effectiveAt
        status := row.status
        kind := row.kind
        isSuperseding := row.resolvesId.isSome || row.reversesId.isSome
        targetAlreadySuperseded := book.transactions.any fun rr =>
          decide (rr.tenantId = command.tenantId) && rr.names row.id } := by
  rw [supersedeTarget, named, Option.bind_some, found, Option.map_some]

/-- What the gate admits names a transaction that is there. -/
theorem found_of_admitted {id : Uuid} (named : supersededId command = some id)
    (admitted : gateAdmits command (supersedeTarget snapshot command) = true) :
    ∃ row, snapshot.transaction? command.tenantId id = some row := by
  cases found : snapshot.transaction? command.tenantId id with
  | some row =>
      exact ⟨row, rfl⟩
  | none =>
      have noTarget : supersedeTarget snapshot command = none := by
        simp [supersedeTarget, named, found]
      rw [noTarget] at admitted
      simp only [gateAdmits, Option.any_none, Bool.and_false, Bool.or_false,
        Bool.and_eq_true, Option.isNone_iff_eq_none] at admitted
      simp [supersededId, admitted.1, admitted.2] at named

/-- An admitted target reads the same wherever its supersession is still to come. -/
theorem supersedeTarget_later (precedes : snapshot.Precedes later) (kept : Kept later)
    (admitted : gateAdmits command (supersedeTarget snapshot command) = true)
    (lands : Lands later (appendWrites env snapshot current command hash payload append)) :
    supersedeTarget later command = supersedeTarget snapshot command := by
  cases named : supersededId command with
  | none =>
      simp [supersedeTarget, named]
  | some id =>
      obtain ⟨row, found⟩ := found_of_admitted named admitted
      have isTxn : (appendWrites env snapshot current command hash payload
          append).transactions = [appendedTxn env snapshot command] :=
        txn_of_admitted admitted
      have isId : row.id = id := (Kept.mem_of_transaction? found).2.2
      have isTarget := supersedeTarget_of_found named found
      rw [isTarget] at admitted
      have notYet := unsuperseded_of_admitted named admitted
      dsimp only at notYet
      have nobody : (later.transactions.any fun rr =>
          decide (rr.tenantId = command.tenantId) && rr.names row.id) = false := by
        rw [List.any_eq_false]
        intro rr member isNamed
        simp only [Bool.and_eq_true, decide_eq_true_eq] at isNamed
        obtain ⟨_, admits⟩ := lands.admitted
        have isKey := kept.supersessionKey_of_names member isNamed.2
        rw [isNamed.1, isId] at isKey
        have own : (appendedTxn env snapshot command).supersessionKey =
            some (command.tenantId, id) :=
          congrArg (Option.map fun target => (command.tenantId, target)) named
        have unheld := admits.uqTxnOneSupersession.2 (command.tenantId, id)
        rw [isTxn] at unheld
        exact unheld (List.mem_filterMap.mpr ⟨_, List.mem_singleton_self _, own⟩)
          (List.mem_filterMap.mpr ⟨rr, member, isKey⟩)
      rw [isTarget, supersedeTarget_of_found named (precedes.transaction? found), nobody, notYet]

/-- The mirrored legs of an admitted reversal are its target's entries, which no bracket
adds to. -/
theorem mirrorLeg_later {wrote : Writes → Prop} (landed : Landed wrote snapshot later)
    (target : Option SupersedeTarget)
    (found : ∀ id, command.reversesId = some id → target.isSome = true →
      ∃ row, snapshot.transaction? command.tenantId id = some row) :
    mirrorLeg later command target = mirrorLeg snapshot command target := by
  unfold mirrorLeg
  cases reverses : command.reversesId with
  | none =>
      rfl
  | some id =>
      dsimp only
      by_cases isPosted : target.map SupersedeTarget.status = some .posted
      · have given : target.isSome = true := by
          cases target with
          | none => cases isPosted
          | some target => rfl
        obtain ⟨row, isRow⟩ := found id reverses given
        obtain ⟨isThere, isTenant, isId⟩ := Kept.mem_of_transaction? isRow
        have same := entriesOf_landed landed isThere
        rw [isTenant, isId] at same
        rw [if_pos isPosted, if_pos isPosted, same]
      · rw [if_neg isPosted, if_neg isPosted]

/-- A delta joins the account it found. -/
theorem striped_later (precedes : snapshot.Precedes later) (affinity : Nat)
    {deltas : List DeltaRow}
    (known : ∀ d ∈ deltas, (snapshot.account? d.tenantId d.accountId d.currency).isSome) :
    striped later affinity deltas = striped snapshot affinity deltas := by
  have joined : deltas.filterMap (DeltaRow.joined later affinity) =
      deltas.filterMap (DeltaRow.joined snapshot affinity) := by
    refine List.filterMap_congr fun d member => ?_
    obtain ⟨account, isAccount⟩ := Option.isSome_iff_exists.mp (known d member)
    rw [DeltaRow.joined, DeltaRow.joined, isAccount, precedes.account? isAccount]
  rw [striped, striped, joined]

theorem balance_later {upserts : List UpsertRow}
    (counters : ∀ key ∈ upserts.map UpsertRow.toStripeKey,
      later.lastSeqOn key = current.lastSeqOn key) :
    balance later upserts = balance current upserts := by
  refine List.map_congr_left fun upsert member => ?_
  rw [counters _ (List.mem_map_of_mem member)]

/-- What a reversal's gate read is there. -/
theorem found_of_target {id : Uuid} (reverses : command.reversesId = some id)
    (given : (supersedeTarget snapshot command).isSome = true) :
    ∃ row, snapshot.transaction? command.tenantId id = some row := by
  obtain ⟨target, isTarget⟩ := Option.isSome_iff_exists.mp given
  obtain ⟨named, row, isNamed, isRow, _⟩ := supersedeTarget_spec isTarget
  have noResolution := command.reversalAlone (Option.isSome_iff_exists.mpr ⟨id, reverses⟩)
  obtain rfl : id = named := by
    simpa [supersededId, reverses, noResolution] using isNamed
  exact ⟨row, isRow⟩

/-- What an admitted post moves is the same wherever its writes still land. -/
theorem delta_later (landed : Landed (fun _ => True) snapshot later) (kept : Kept later)
    (admitted : gateAdmits command (supersedeTarget snapshot command) = true)
    (lands : Lands later (appendWrites env snapshot current command hash payload append)) :
    delta later command append = delta snapshot command append := by
  rw [delta, delta, supersedeTarget_later landed.precedes kept admitted lands,
    mirrorLeg_later landed _ fun id reverses given => found_of_target reverses given]

/-- A single call that answered an append answers and writes the same over every book
its bracket meets later. -/
theorem claimAndAppend_later {appended : Appended} {writes : Writes}
    (answered : claimAndAppend env snapshot current command hash payload append =
      (.ok (some (.appended appended)), writes))
    (known : ∀ d ∈ delta snapshot command append,
      (snapshot.account? d.tenantId d.accountId d.currency).isSome)
    (landed : Landed (fun _ => True) snapshot later) (kept : Kept later)
    (lands : Lands later writes)
    (counters : ∀ key ∈ writes.upserts.map UpsertRow.toStripeKey,
      later.lastSeqOn key = current.lastSeqOn key) :
    claimAndAppend env later later command hash payload append =
      (.ok (some (.appended appended)), writes) := by
  obtain ⟨wasFree, admitted, allowed, rfl, rfl⟩ :=
    claimAndAppend_appended _ _ _ _ _ _ _ answered
  have target := supersedeTarget_later landed.precedes kept admitted lands
  have mirror : mirrorLeg later command (supersedeTarget later command) =
      mirrorLeg snapshot command (supersedeTarget snapshot command) := by
    rw [target]
    exact mirrorLeg_later landed _ fun id reverses given => found_of_target reverses given
  have deltas : delta later command append = delta snapshot command append :=
    delta_later landed kept admitted lands
  have upserts : striped later env.stripeAffinity (delta later command append) =
      striped snapshot env.stripeAffinity (delta snapshot command append) := by
    rw [deltas]
    exact striped_later landed.precedes _ known
  have counts : balance later (striped snapshot env.stripeAffinity
        (delta snapshot command append)) =
      balance current (striped snapshot env.stripeAffinity (delta snapshot command append)) :=
    balance_later counters
  have txns : txn env later command = txn env snapshot command := by
    rw [txn, txn, target]
  have legs : appendedLegs env later command append = appendedLegs env snapshot command append := by
    rw [appendedLegs, appendedLegs, mirror, txns, target]
  have sameWrites : appendWrites env later later command hash payload append =
      appendWrites env snapshot current command hash payload append := by
    simp only [appendWrites, target, txns, upserts, counts, legs]
  have sameRows : appendRows env later later command append =
      appendRows env snapshot current command append := by
    simp only [appendRows, target, txns, deltas, striped_later landed.precedes _ known, counts]
  have casts : mirrorCasts later command = mirrorCasts snapshot command := by
    rw [mirrorCasts, mirrorCasts, mirror]
  have isFree := free_of_lands lands
    (List.mem_singleton_self _ : _ ∈ (appendWrites env snapshot current command hash payload
      append).events)
  rw [claimAndAppend_free _ _ _ _ _ _ _ wasFree, allowed] at answered
  rw [claimAndAppend_free _ _ _ _ _ _ _ isFree, sameWrites, casts,
    violation_of_lands allowed lands, target]
  cases representable : ensureBigints (mirrorCasts snapshot command) with
  | error error =>
      rw [representable] at answered
      cases answered
  | ok _ =>
      dsimp only
      rw [if_pos admitted, appendedAnswer, appendedAnswer, sameRows]

end Append

section Registers

variable {env : Env} {current later : Book} {hash : List UInt8} {payload : Json}

theorem claimAndOpenAccount_later {command : OpenAccount} {triple : ChartTriple}
    {eventId : Uuid} {account : Account} {writes : Writes}
    (answered : claimAndOpenAccount env current command hash payload triple =
      (.ok (some (.opened eventId account)), writes)) (lands : Lands later writes) :
    claimAndOpenAccount env later command hash payload triple =
      (.ok (some (.opened eventId account)), writes) := by
  obtain ⟨_, allowed, rfl, rfl, rfl⟩ := claimAndOpenAccount_opened answered
  have isFree := free_of_lands lands
    (List.mem_singleton_self _ : _ ∈ (openWrites env command hash payload triple).events)
  dsimp only at isFree
  rw [claimAndOpenAccount, isFree]
  dsimp only
  rw [violation_of_lands allowed lands]
  rfl

theorem claimAndDefinePeriod_later {command : DefinePeriod} {eventId : Uuid} {period : Period}
    {writes : Writes}
    (answered : claimAndDefinePeriod env current command hash payload =
      (.ok (some (.defined eventId period)), writes)) (lands : Lands later writes) :
    claimAndDefinePeriod env later command hash payload =
      (.ok (some (.defined eventId period)), writes) := by
  obtain ⟨_, allowed, rfl, rfl, rfl⟩ := claimAndDefinePeriod_defined answered
  have isFree := free_of_lands lands
    (List.mem_singleton_self _ : _ ∈ (defineWrites env command hash payload).events)
  dsimp only at isFree
  rw [claimAndDefinePeriod, isFree]
  dsimp only
  rw [violation_of_lands allowed lands]
  rfl

end Registers

end OpenLedger
