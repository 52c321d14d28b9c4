import OpenLedger.Lib.Keyset
import OpenLedger.Reports.Reproducible
import OpenLedger.Reports.Service

/-!
# The account register, page by page

A page is the accounts above the caller's key, in the order of their ids, which
are drawn when an opening's insert runs.  An opening is visible when it commits,
so the order accounts become visible in is not the order they are paged in.
-/

namespace OpenLedger

open Postgres

structure AccountListingQuery where
  tenantId : String
  limit : Option Int
  /-- The last id of the previous page. -/
  after : Option Uuid
  purpose : Option String
  ownerId : Option String

structure AccountListing where
  accounts : List Account
  nextAfter : Option Uuid

structure AccountListingRead where
  tenantId : String
  limit : Int
  after : Option Uuid
  purpose : Option String
  ownerId : Option String

/-- The tenant and the two equality filters, where they are given. -/
def AccountListingRead.wants (read : AccountListingRead) (account : AccountRow) : Bool :=
  decide (account.tenantId = read.tenantId) &&
    read.purpose.all (fun purpose => decide (account.purpose = purpose)) &&
    read.ownerId.all (fun ownerId => decide (account.ownerId = some ownerId))

/-- `ACCOUNTS`. -/
def accountsAt (book : Book) (read : AccountListingRead) : List AccountRow :=
  ((book.accounts.filter fun account =>
      read.after.all (fun after => decide (after < account.id)) &&
        read.wants account).insertionSort
    fun left right => left.id ≤ right.id).take read.limit.toNat

/-- A page as the port hands it on. -/
def registerPageFrom (rows : List AccountRow) : List Account := rows.map accountFrom

/-- `PgReportStore::accounts`, in the scope of the tenant it names. -/
def accountsAnswer (book : Book) (read : AccountListingRead) :
    Except ReportRefusal (Scoped (List Account)) :=
  .ok ⟨read.tenantId, registerPageFrom (accountsAt book read)⟩

def accountsPerPage : Int := 100

def mostAccountsPerPage : Int := 1000

/-- The last id of a full page, and nothing otherwise. -/
def theKeyOfTheNextPage (accounts : List Account) (limit : Int) : Option Uuid :=
  if 0 ≤ limit ∧ limit.toNat ≤ accounts.length then accounts.getLast?.map Account.accountId
  else none

/-- One page of the account register. -/
def accounts (store : AccountListingRead → Except ReportRefusal (Scoped (List Account)))
    (query : AccountListingQuery) : Except ReadError AccountListing := do
  let limit ← pageSizeOrRefuseOneOutsideTheWindow query.limit accountsPerPage mostAccountsPerPage
  let inScope ← (store ⟨query.tenantId, limit, query.after, query.purpose,
    query.ownerId⟩).mapError refused
  let accounts ← answeredForTheTenantThatAsked query.tenantId inScope
  return ⟨accounts, theKeyOfTheNextPage accounts limit⟩

/-- Which accounts a query is about. -/
def AccountListingQuery.wants (query : AccountListingQuery) (account : AccountRow) : Bool :=
  (⟨query.tenantId, 0, none, query.purpose, query.ownerId⟩ : AccountListingRead).wants account

/-- A query's page of a machine's committed book, after a key. -/
def listed (machines : Nat → Machine) (query : AccountListingQuery) (time : Nat)
    (after : Option Uuid) (page : List Account) (next : Option Uuid) : Prop :=
  accounts (accountsAnswer (machines time).committed) { query with after := after } =
    .ok ⟨page, next⟩

/-- A machine at the reading of each page: whatever steps lie between two of them. -/
structure Successive (sha256 : List UInt8 → List UInt8) (chart : Chart)
    (machines : Nat → Machine) : Prop where
  starts : Interleaved sha256 chart (machines 0)
  runs : ∀ time, ∃ actions, (machines time).steps sha256 actions = some (machines (time + 1))

/-- Every opening that commits between two pages of a walk commits above the key the
first handed out. -/
def OpenedAhead (machines : Nat → Machine) (query : AccountListingQuery)
    (pages : List (List Account)) : Prop :=
  ∀ index page, pages[index]? = some page → index + 1 < pages.length →
    ∀ last ∈ page.getLast?, ∀ account ∈ (machines (index + 1)).committed.accounts,
      query.wants account = true → account ∉ (machines index).committed.accounts →
        last.accountId < account.id

section Successions

variable {sha256 : List UInt8 → List UInt8} {chart : Chart} {machines : Nat → Machine}

theorem Successive.interleaved (successive : Successive sha256 chart machines) (time : Nat) :
    Interleaved sha256 chart (machines time) := by
  induction time with
  | zero =>
      exact successive.starts
  | succ time inductionHypothesis =>
      obtain ⟨actions, ran⟩ := successive.runs time
      exact inductionHypothesis.steps ran

/-- Accounts are never taken back. -/
theorem Successive.accounts_subset (successive : Successive sha256 chart machines)
    {earlier later : Nat} (le : earlier ≤ later) :
    (machines earlier).committed.accounts ⊆ (machines later).committed.accounts := by
  induction later with
  | zero =>
      rw [Nat.le_zero.mp le]
      exact List.Subset.refl _
  | succ later inductionHypothesis =>
      by_cases here : earlier = later + 1
      · rw [here]
        exact List.Subset.refl _
      · obtain ⟨actions, ran⟩ := successive.runs later
        have grown := (grows_above (successive.interleaved later) (Nat.zero_le _) ran).1
        have before := inductionHypothesis (by omega)
        intro account isThere
        exact grown.precedes.accounts.subset (before isThere)

end Successions

section Pages

variable {query : AccountListingQuery} {limit : Int}

/-- The accounts a query is about, as the port hands them on. -/
def wantedAt (machines : Nat → Machine) (query : AccountListingQuery) (time : Nat) :
    List Account :=
  ((machines time).committed.accounts.filter query.wants).map accountFrom

theorem wants_tenant {account : AccountRow} (wanted : query.wants account = true) :
    account.tenantId = query.tenantId := by
  simp only [AccountListingQuery.wants, AccountListingRead.wants, Bool.and_eq_true,
    decide_eq_true_eq] at wanted
  exact wanted.1.1

/-- The statement's page is the library's. -/
theorem registerPageFrom_accountsAt (machines : Nat → Machine) (query : AccountListingQuery)
    (time : Nat) (after : Option Uuid) (limit : Int) :
    registerPageFrom (accountsAt (machines time).committed
        ⟨query.tenantId, limit, after, query.purpose, query.ownerId⟩) =
      Keyset.pageAbove Account.accountId limit.toNat (wantedAt machines query) time after := by
  have filters : ((wantedAt machines query time).filter
      (Keyset.above Account.accountId after)) =
      ((machines time).committed.accounts.filter fun account =>
        after.all (fun key => decide (key < account.id)) && query.wants account).map
          accountFrom := by
    rw [wantedAt, List.filter_map, List.filter_filter]
    rfl
  rw [Keyset.pageAbove, filters, Keyset.sorted, registerPageFrom, accountsAt, List.map_take]
  congr 1
  exact List.map_insertionSort _ _ accountFrom _ fun left _ right _ => Iff.rfl

/-- A page the store answers is in the scope it was asked in. -/
theorem accounts_accountsAnswer (book : Book) (query : AccountListingQuery) :
    accounts (accountsAnswer book) query =
      (pageSizeOrRefuseOneOutsideTheWindow query.limit accountsPerPage mostAccountsPerPage).map
        fun limit =>
          let page := registerPageFrom (accountsAt book
            ⟨query.tenantId, limit, query.after, query.purpose, query.ownerId⟩)
          ⟨page, theKeyOfTheNextPage page limit⟩ := by
  unfold accounts
  cases pageSizeOrRefuseOneOutsideTheWindow query.limit accountsPerPage mostAccountsPerPage with
  | error refusal =>
      rfl
  | ok limit =>
      change (answeredForTheTenantThatAsked query.tenantId ⟨query.tenantId, _⟩ >>= _) = _
      rw [answered_sameTenant]
      rfl

/-- What an answered page says. -/
theorem answers_of_listed {machines : Nat → Machine} {time : Nat} {after next : Option Uuid}
    {page : List Account} (isListed : listed machines query time after page next)
    (inWindow : pageSizeOrRefuseOneOutsideTheWindow query.limit accountsPerPage
      mostAccountsPerPage = .ok limit) (positive : 1 ≤ limit) :
    Keyset.Answers Account.accountId limit.toNat (wantedAt machines query) time after page
      next := by
  rw [listed, accounts_accountsAnswer] at isListed
  dsimp only at isListed
  rw [inWindow] at isListed
  have answered := Except.ok.inj isListed
  have isPage := congrArg AccountListing.accounts answered
  have isNext := congrArg AccountListing.nextAfter answered
  dsimp only at isPage isNext
  rw [registerPageFrom_accountsAt] at isPage isNext
  refine ⟨isPage.symm, ?_⟩
  rw [← isNext, isPage, theKeyOfTheNextPage, Keyset.nextOf]
  by_cases full : limit.toNat ≤ page.length
  · rw [if_pos ⟨by omega, full⟩, if_pos full]
  · rw [if_neg (fun both => full both.2), if_neg full]

theorem window_of_listed {machines : Nat → Machine} {time : Nat} {after next : Option Uuid}
    {page : List Account} (isListed : listed machines query time after page next) :
    ∃ limit, pageSizeOrRefuseOneOutsideTheWindow query.limit accountsPerPage
      mostAccountsPerPage = .ok limit ∧ 1 ≤ limit := by
  rw [listed, accounts_accountsAnswer] at isListed
  unfold pageSizeOrRefuseOneOutsideTheWindow at isListed ⊢
  cases asked : query.limit with
  | none =>
      exact ⟨accountsPerPage, rfl, by decide⟩
  | some limit =>
      rw [asked] at isListed
      dsimp only at isListed ⊢
      by_cases inside : 1 ≤ limit ∧ limit ≤ mostAccountsPerPage
      · rw [if_pos inside]
        exact ⟨limit, rfl, inside.1⟩
      · rw [if_neg inside] at isListed
        cases isListed

theorem walk_answers {machines : Nat → Machine} {time : Nat} {after : Option Uuid}
    {pages : List (List Account)} (walk : Keyset.Walk (listed machines query) time after pages) :
    ∃ limit : Nat, 0 < limit ∧ Keyset.Walk
      (Keyset.Answers Account.accountId limit (wantedAt machines query)) time after pages := by
  have window : ∃ limit, pageSizeOrRefuseOneOutsideTheWindow query.limit accountsPerPage
      mostAccountsPerPage = .ok limit ∧ 1 ≤ limit := by
    cases walk with
    | last answered => exact window_of_listed answered
    | more answered _ => exact window_of_listed answered
  obtain ⟨limit, inWindow, positive⟩ := window
  refine ⟨limit.toNat, by omega, ?_⟩
  induction walk with
  | last answered =>
      exact .last (answers_of_listed answered inWindow positive)
  | more answered _ inductionHypothesis =>
      exact .more (answers_of_listed answered inWindow positive) inductionHypothesis

end Pages

section Walks

variable {sha256 : List UInt8 → List UInt8} {chart : Chart} {machines : Nat → Machine}
  {query : AccountListingQuery}

theorem mem_wantedAt {time : Nat} {shown : Account} :
    shown ∈ wantedAt machines query time ↔
      ∃ account ∈ (machines time).committed.accounts, query.wants account = true ∧
        accountFrom account = shown := by
  simp only [wantedAt, List.mem_map, List.mem_filter, and_assoc]

/-- A tenant's accounts have an id each. -/
theorem distinct_wanted (successive : Successive sha256 chart machines) (time : Nat) :
    ((machines time).committed.accounts.filter query.wants).Pairwise fun left right =>
      left.id ≠ right.id := by
  have kept := (sound_of_interleaved (successive.interleaved time)).kept
  have keyed : AccountRow.primaryKey = some ∘ fun account : AccountRow =>
      (account.tenantId, account.id) := rfl
  have unique := kept.pkAccounts
  rw [UniqueIndex.Holds, keyed, List.filterMap_eq_map, List.Nodup, List.pairwise_map] at unique
  refine (unique.filter query.wants).imp_of_mem ?_
  intro left right isLeft isRight apart same
  have tenants := (wants_tenant (List.mem_filter.mp isLeft).2).trans
    (wants_tenant (List.mem_filter.mp isRight).2).symm
  exact apart (Prod.ext tenants same)

theorem distinct_wantedAt (successive : Successive sha256 chart machines) (time : Nat) :
    (wantedAt machines query time).Pairwise fun left right =>
      left.accountId ≠ right.accountId := by
  rw [wantedAt, List.pairwise_map]
  exact distinct_wanted successive time

theorem wantedAt_grows (successive : Successive sha256 chart machines) {earlier later : Nat}
    (le : earlier ≤ later) {shown : Account} (isThere : shown ∈ wantedAt machines query earlier) :
    shown ∈ wantedAt machines query later := by
  obtain ⟨account, wasThere, wanted, isShown⟩ := mem_wantedAt.mp isThere
  exact mem_wantedAt.mpr
    ⟨account, successive.accounts_subset le wasThere, wanted, isShown⟩

/-- An account is shown as itself alone: no other of its tenant has its id. -/
theorem mem_of_mem_wantedAt (successive : Successive sha256 chart machines) {time later : Nat}
    (le : time ≤ later) {account : AccountRow}
    (isThere : account ∈ (machines later).committed.accounts)
    (wanted : query.wants account = true)
    (shown : accountFrom account ∈ wantedAt machines query time) :
    account ∈ (machines time).committed.accounts := by
  obtain ⟨other, wasThere, otherWanted, same⟩ := mem_wantedAt.mp shown
  have ids : other.id = account.id := congrArg Account.accountId same
  have tenants := (wants_tenant wanted).trans (wants_tenant otherWanted).symm
  have kept := (sound_of_interleaved (successive.interleaved later)).kept
  have oneKey : account.primaryKey = some (other.tenantId, other.id) := by
    rw [AccountRow.primaryKey, tenants, ids]
  have isSame : other = account :=
    UniqueIndex.holds_eq kept.pkAccounts (successive.accounts_subset le wasThere) isThere rfl oneKey
  rw [← isSame]
  exact wasThere

/-- Of openings, falling behind no key is appearing above it. -/
theorem openedAhead_iff (successive : Successive sha256 chart machines)
    (pages : List (List Account)) :
    OpenedAhead machines query pages ↔
      Keyset.Ahead Account.accountId (wantedAt machines query) 0 pages := by
  constructor
  · intro opened index page isPage more last isLast shown isThere isNew
    rw [Nat.zero_add] at isThere isNew
    obtain ⟨account, nowThere, wanted, isShown⟩ := mem_wantedAt.mp isThere
    rw [← isShown] at isNew ⊢
    refine opened index page isPage more last isLast account nowThere wanted ?_
    intro wasThere
    exact isNew (mem_wantedAt.mpr ⟨account, wasThere, wanted, rfl⟩)
  · intro ahead index page isPage more last isLast account isThere wanted isNew
    have apart := ahead index page isPage more last isLast (accountFrom account)
    rw [Nat.zero_add] at apart
    apply apart (mem_wantedAt.mpr ⟨account, isThere, wanted, rfl⟩)
    intro shown
    exact isNew (mem_of_mem_wantedAt successive (Nat.le_succ index) isThere wanted shown)

end Walks

/-- A walk over a growing register goes up by id and answers accounts of the query
alone; and it holds every one that had committed before its last page was read exactly
when every opening that committed between two pages did so above the key handed out. -/
theorem register_walk_is_exact {sha256 : List UInt8 → List UInt8} {chart : Chart}
    {machines : Nat → Machine} (successive : Successive sha256 chart machines)
    {query : AccountListingQuery} {pages : List (List Account)}
    (walk : Keyset.Walk (listed machines query) 0 none pages) :
    pages.flatten.Pairwise (fun left right => left.accountId < right.accountId) ∧
    (∀ index page, pages[index]? = some page → ∀ shown ∈ page,
      ∃ account ∈ (machines index).committed.accounts, query.wants account = true ∧
        accountFrom account = shown) ∧
    ((∀ account ∈ (machines (pages.length - 1)).committed.accounts,
        query.wants account = true → accountFrom account ∈ pages.flatten) ↔
      OpenedAhead machines query pages) := by
  obtain ⟨limit, positive, answers⟩ := walk_answers walk
  have distinct := @distinct_wantedAt sha256 chart machines query successive
  refine ⟨(Keyset.rising_walk distinct answers).1, ?_, ?_⟩
  · intro index page isPage shown member
    have isThere := Keyset.mem_rowsAt_of_walk answers isPage member
    rw [Nat.zero_add] at isThere
    exact mem_wantedAt.mp isThere
  · rw [openedAhead_iff successive]
    constructor
    · intro complete
      apply Keyset.ahead_of_complete distinct answers
      · intro earlier later le shown isThere
        exact wantedAt_grows successive le isThere
      · intro shown isThere
        rw [Nat.zero_add] at isThere
        obtain ⟨account, nowThere, wanted, isShown⟩ := mem_wantedAt.mp isThere
        rw [← isShown]
        exact complete account nowThere wanted
    · intro ahead account isThere wanted
      apply Keyset.complete_of_ahead distinct positive answers ahead
      · rw [Nat.zero_add]
        exact mem_wantedAt.mpr ⟨account, isThere, wanted, rfl⟩
      · exact Keyset.above_none _

namespace Shop

/-- Every account of the shop, one a page. -/
def oneAPage : AccountListingQuery := ⟨"shop", some 1, none, none, none⟩

def pageAfter (book : Book) (after : Option Uuid) : List Account :=
  registerPageFrom (accountsAt book ⟨"shop", 1, after, none, none⟩)

/-- The first page is read after some steps, and every other after some more. -/
def readBetween (before after : List Action) : Nat → Machine
  | 0 => machineAfter before
  | _ + 1 => resumed before after

theorem readBetween_successive {before after : List Action}
    (possible : ((machineAfter before).steps id after).isSome = true) :
    Successive id chart (readBetween before after) where
  starts := interleaved_machineAfter before
  runs := by
    intro time
    cases time with
    | zero => exact ⟨after, steps_resumed possible⟩
    | succ time => exact ⟨[], rfl⟩

theorem listed_oneAPage {machines : Nat → Machine} {time : Nat} {after next : Option Uuid}
    (isNext : theKeyOfTheNextPage (pageAfter (machines time).committed after) 1 = next) :
    listed machines oneAPage time after (pageAfter (machines time).committed after) next := by
  rw [listed, accounts_accountsAnswer, ← isNext]
  rfl

/-- The till's opening has drawn its id and not committed; the fee account's has drawn
the next one and committed. -/
def tillInFlight : List Action :=
  [.elsewhere, .start (opening "till" "till") (envOf 1), .assign 0] ++ statements 0 3 ++
    session 1 2 (opening "fees" "fees") 4

/-- The till commits behind the key of the first page, and no page holds it. -/
theorem tillInFlight_skipped :
    let machines := readBetween tillInFlight (statements 0 1)
    Successive id chart machines ∧
      ∃ pages, Keyset.Walk (listed machines oneAPage) 0 none pages ∧
        ∃ account ∈ (machines (pages.length - 1)).committed.accounts,
          oneAPage.wants account = true ∧ accountFrom account ∉ pages.flatten := by
  intro machines
  have walk : Keyset.Walk (listed machines oneAPage) 0 none
      [pageAfter (machines 0).committed none, pageAfter (machines 1).committed (some fees)] :=
    .more (listed_oneAPage (by decide +kernel)) (.last (listed_oneAPage (by decide +kernel)))
  refine ⟨readBetween_successive (by decide +kernel), _, walk, ?_⟩
  have opened : till ∈ ((machines 1).committed.accounts.filter oneAPage.wants).map
      AccountRow.id := by
    decide +kernel
  have ids : (List.flatten [pageAfter (machines 0).committed none,
      pageAfter (machines 1).committed (some fees)]).map Account.accountId = [fees] := by
    decide +kernel
  obtain ⟨account, member, isTill⟩ := List.mem_map.mp opened
  obtain ⟨isThere, wanted⟩ := List.mem_filter.mp member
  refine ⟨account, isThere, wanted, ?_⟩
  intro onPage
  have isListed := List.mem_map_of_mem (f := Account.accountId) onPage
  rw [ids, List.mem_singleton] at isListed
  have isFees : till = fees := isTill.symm.trans isListed
  exact absurd isFees (by decide)

/-- The till is open before the first page, the fee account between the pages. -/
theorem feesBetween_complete :
    let machines := readBetween (.elsewhere :: session 0 1 (opening "till" "till") 4)
      (session 1 2 (opening "fees" "fees") 4)
    ∃ pages, Keyset.Walk (listed machines oneAPage) 0 none pages ∧
      ∀ account ∈ (machines (pages.length - 1)).committed.accounts,
        oneAPage.wants account = true → accountFrom account ∈ pages.flatten := by
  intro machines
  have walk : Keyset.Walk (listed machines oneAPage) 0 none
      [pageAfter (machines 0).committed none, pageAfter (machines 1).committed (some till),
        pageAfter (machines 2).committed (some fees)] :=
    .more (listed_oneAPage (by decide +kernel)) (.more (listed_oneAPage (by decide +kernel))
      (.last (listed_oneAPage (by decide +kernel))))
  have successive : Successive id chart machines := readBetween_successive (by decide +kernel)
  refine ⟨_, walk, (register_walk_is_exact successive walk).2.2.mpr ?_⟩
  intro index page isPage more last isLast account isThere wanted isNew
  have early : index = 0 := by
    by_contra later
    obtain ⟨time, rfl⟩ := Nat.exists_eq_succ_of_ne_zero later
    exact isNew isThere
  subst early
  have isTill : (pageAfter (machines 0).committed none).getLast?.map Account.accountId =
      some till := by
    decide +kernel
  rw [← Option.some.inj isPage] at isLast
  rw [Option.mem_def.mp isLast] at isTill
  rw [Option.some.inj isTill]
  obtain ⟨actions, ran⟩ := successive.runs 0
  obtain ⟨added, grown⟩ := (grows_above (successive.interleaved 0) (Nat.zero_le _)
    ran).1.precedes.accounts
  have first : (machines 0).committed.accounts.map AccountRow.id = [till] := by decide +kernel
  have both : (machines 1).committed.accounts.map AccountRow.id = [till] ++ [fees] := by
    decide +kernel
  rw [← grown, List.map_append, first] at both
  have isAdded : account ∈ added := by
    rw [Nat.zero_add, ← grown, List.mem_append] at isThere
    exact isThere.resolve_left isNew
  have isFees := List.mem_map_of_mem (f := AccountRow.id) isAdded
  rw [List.append_cancel_left both, List.mem_singleton] at isFees
  rw [isFees]
  decide

end Shop

end OpenLedger
