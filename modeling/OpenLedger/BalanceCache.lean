import OpenLedger.Brackets
import OpenLedger.Reports.BalanceSweep

/-!
# The balance cache

What a kept book says of its balance rows: each holds the posted sums and the
entry count of its own counter, and the reconciliation view lists nothing.
-/

namespace OpenLedger

open Postgres

namespace Kept

variable {book : Book} (kept : Kept book)

include kept

theorem statusOf_isSome {e : EntryRow} (member : e ∈ book.entries) :
    (book.statusOf e).isSome := by
  obtain ⟨transaction, isThere, belongs⟩ := kept.belongs e member
  rw [kept.statusOf_of_belongs isThere belongs]
  rfl

/-- An account is of one currency, so its entries on one stripe are one
counter's. -/
theorem countable : book.Countable where
  seqPositive := by
    intro e member
    have isMine : e ∈ book.entriesOn e.stripeKey :=
      List.mem_filter.mpr ⟨member, decide_eq_true rfl⟩
    have counted := List.mem_map_of_mem (f := EntryRow.accountSeq) isMine
    rw [kept.numbers, Numbering.mem_countingFrom] at counted
    exact counted.1
  uqAccountSeq := by
    have nodup : book.entries.Nodup := by
      have keys := kept.pkEntries
      unfold UniqueIndex.Holds EntryRow.primaryKey at keys
      rw [List.filterMap_eq_map'] at keys
      exact List.Nodup.of_map _ keys
    refine List.Nodup.map_on ?_ nodup
    intro left leftMember right rightMember same
    simp only [Prod.mk.injEq] at same
    obtain ⟨tenant, account, stripe, seq⟩ := same
    obtain ⟨leftAccount, leftFound⟩ := Option.isSome_iff_exists.mp (kept.onAccount left leftMember)
    obtain ⟨rightAccount, rightFound⟩ :=
      Option.isSome_iff_exists.mp (kept.onAccount right rightMember)
    have leftIs := List.find?_some leftFound
    have rightIs := List.find?_some rightFound
    simp only [Bool.and_eq_true, decide_eq_true_eq] at leftIs rightIs
    have sameAccount : leftAccount = rightAccount := by
      refine UniqueIndex.holds_eq kept.pkAccounts (List.mem_of_find?_eq_some leftFound)
        (List.mem_of_find?_eq_some rightFound) (k := (right.tenantId, right.accountId)) ?_ ?_
      · rw [AccountRow.primaryKey, leftIs.1.1, leftIs.1.2, tenant, account]
      · rw [AccountRow.primaryKey, rightIs.1.1, rightIs.1.2]
    have currency : left.currency = right.currency := by
      rw [← leftIs.2, ← rightIs.2, sameAccount]
    have sameKey : left.stripeKey = right.stripeKey := by
      rw [EntryRow.stripeKey, EntryRow.stripeKey, tenant, account, currency, stripe]
    have numbered := Numbering.countingFrom_nodup 0 (book.entriesOn right.stripeKey).length
    rw [← kept.numbers] at numbered
    refine List.inj_on_of_nodup_map numbered ?_ ?_ seq
    · exact List.mem_filter.mpr ⟨leftMember, decide_eq_true sameKey⟩
    · exact List.mem_filter.mpr ⟨rightMember, decide_eq_true rfl⟩
  onTransaction := fun _ member => kept.statusOf_isSome member
  pkBalances := kept.pkBalances

theorem counterAgrees (key : StripeKey) : book.CounterAgrees key where
  inputs := kept.inputs key
  outputs := kept.outputs key
  counted := kept.counts key
  numbered := by rw [kept.numbers]
  backed := by
    intro entered
    obtain ⟨e, member⟩ := List.exists_mem_of_ne_nil _ entered
    obtain ⟨isEntry, sameKey⟩ := List.mem_filter.mp member
    rw [← of_decide_eq_true sameKey]
    exact kept.backed e isEntry

/-- The view lists nothing. -/
theorem reconBalanceBreaks_eq_nil : reconBalanceBreaks book = [] := by
  refine List.eq_nil_iff_forall_not_mem.mpr fun row listed => ?_
  exact (listed_iff kept.countable row.toStripeKey).mp ⟨row, listed, rfl⟩
    (kept.counterAgrees row.toStripeKey)

end Kept

/-- In every book the writer reaches, each balance row is the posted sums and
the entry count of its own stripe, the entries of a stripe are numbered from one
without a gap, no entry is on a stripe without a row, and the view of broken
balances is empty. -/
theorem balanceCache_of_reachable {sha256 : List UInt8 → List UInt8} {chart : Chart}
    {book : Book} {next : Xid} (reachable : Reachable sha256 chart book next) :
    (∀ row ∈ book.balances,
      row.input = book.postedOn .debit row.toStripeKey ∧
        row.output = book.postedOn .credit row.toStripeKey ∧
        row.lastSeq = (book.entriesOn row.toStripeKey).length ∧
        (book.entriesOn row.toStripeKey).map EntryRow.accountSeq =
          Numbering.countingFrom 0 row.lastSeq.toNat) ∧
      (book.balances.map BalanceRow.toStripeKey).Nodup ∧
      (∀ e ∈ book.entries, ∃ row ∈ book.balances, row.toStripeKey = e.stripeKey) ∧
      reconBalanceBreaks book = [] := by
  have kept := kept_of_reachable reachable
  refine ⟨fun row member => ?_, kept.pkBalances, fun e member => ?_,
    kept.reconBalanceBreaks_eq_nil⟩
  · have isRow := balance?_eq_some kept.countable member
    have input := kept.inputs row.toStripeKey
    have output := kept.outputs row.toStripeKey
    have count := kept.counts row.toStripeKey
    simp only [Book.inputOn, Book.outputOn, Book.lastSeqOn, isRow, Option.map_some,
      Option.getD_some] at input output count
    refine ⟨input, output, count, ?_⟩
    rw [kept.numbers, count, Int.toNat_natCast]
  · obtain ⟨row, found⟩ := Option.isSome_iff_exists.mp (kept.backed e member)
    exact ⟨row, List.mem_of_find?_eq_some found, toStripeKey_of_rowUnder found⟩

/-- A hold, its resolution and the fee it settled. -/
def Shop.heldAndSettled : List (Operation × Env) :=
  Shop.opened ++ [
    (.post (Shop.command "hold" 1000 .pending none 70), Shop.envOf 4),
    (.post (Shop.command "settle" 2000 .posted (some (Shop.uuid 4100)) 60), Shop.envOf 5)]

theorem balanceCache_of_heldAndSettled :
    (performAll id Shop.heldAndSettled (Book.empty Shop.chart)).balances = [
      ⟨⟨"shop", Shop.till, "USD", 0⟩, 60, 0, 2⟩, ⟨⟨"shop", Shop.fees, "USD", 0⟩, 0, 60, 2⟩] ∧
      reconBalanceBreaks (performAll id Shop.heldAndSettled (Book.empty Shop.chart)) = [] :=
  ⟨by decide +kernel, (balanceCache_of_reachable
    (Reachable.empty.performAll (by decide))).2.2.2⟩

end OpenLedger
