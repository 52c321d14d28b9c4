import OpenLedger.Reports.ChartVersions

/-!
# Statements pinned to a chart version

The committed rows of the chart's transactions are a presentation the reports
can read, and a statement pinned to a superseded version reads the same one at
every later moment, unless a row of it was committed late.
-/

namespace OpenLedger

open ChartMachine

/-- What every step keeps of the chart's tables: the primary keys, over what is
committed and what each transaction adds, and what the keys of each row refer
to. -/
structure ChartKept (chart : Chart) (machine : ChartMachine) : Prop where
  fresh : ∀ id, machine.begun ≤ id → (machine.transaction id).own = []
  holds : UniqueIndex.Holds ChartRow.primaryKey machine.committed
  admits : ∀ id, UniqueIndex.Admits ChartRow.primaryKey machine.committed
    (machine.transaction id).own
  apart : ∀ s t, s ≠ t → UniqueIndex.Apart ChartRow.primaryKey
    (machine.transaction s).own (machine.transaction t).own
  sound : ∀ id, ∀ row ∈ machine.visible id,
    row.Checked ∧ row.References chart (machine.visible id)

section Kept

variable {chart : Chart} {machine next : ChartMachine}

theorem ChartRow.References.mono {visible more : List ChartRow} {row : ChartRow}
    (references : row.References chart visible) (grown : visible ⊆ more) :
    row.References chart more := by
  have versions : chartVersions visible ⊆ chartVersions more := by
    intro v member
    obtain ⟨note, held⟩ := mem_chartVersions.mp member
    exact mem_chartVersions.mpr ⟨note, grown held⟩
  have lines : fsLines visible ⊆ fsLines more := List.filterMap_subset _ grown
  cases row with
  | version v note =>
      trivial
  | line f =>
      exact versions references
  | presentation p =>
      obtain ⟨version, type, ⟨f, inLines, named⟩, contras⟩ := references
      refine ⟨versions version, type, ⟨f, lines inLines, named⟩, ?_⟩
      intro contra isContra side isSide
      obtain ⟨g, inContras, contraNamed⟩ := contras contra isContra side isSide
      exact ⟨g, lines inContras, contraNamed⟩

theorem chartKept_empty : ChartKept chart ChartMachine.empty where
  fresh _ _ := rfl
  holds := UniqueIndex.holds_nil _
  admits _ := UniqueIndex.admits_nil _ _
  apart _ _ _ := UniqueIndex.apart_nil _ _
  sound id row member := by cases member

/-- A row past its trigger is in no table yet. -/
theorem ChartKept.of_own (kept : ChartKept chart machine)
    {transaction : Nat → ChartTransaction}
    (same : ∀ other, (transaction other).own = (machine.transaction other).own) :
    ChartKept chart { machine with transaction } := by
  constructor
  · intro other late
    change (transaction other).own = []
    rw [same]
    exact kept.fresh other late
  · exact kept.holds
  · intro other
    change UniqueIndex.Admits _ _ (transaction other).own
    rw [same]
    exact kept.admits other
  · intro s t different
    change UniqueIndex.Apart _ (transaction s).own (transaction t).own
    rw [same, same]
    exact kept.apart s t different
  · intro other row member
    have seen : ({ machine with transaction } : ChartMachine).visible other =
        machine.visible other := by
      rw [visible, same]
      rfl
    rw [seen] at member ⊢
    exact kept.sound other row member

theorem inserting_own (machine : ChartMachine) (id : Nat) (row : ChartRow) (other : Nat) :
    ((machine.set id { machine.transaction id with inHand := some row }).transaction other).own =
      (machine.transaction other).own := by
  rw [set_transaction]
  by_cases same : other = id
  · rw [if_pos same, same]
  · rw [if_neg same]

theorem ChartKept.soundCommitted (kept : ChartKept chart machine) {row : ChartRow}
    (member : row ∈ machine.committed) :
    row.Checked ∧ row.References chart machine.committed := by
  have sound := kept.sound machine.begun row
  rw [visible, kept.fresh machine.begun le_rfl, List.append_nil] at sound
  exact sound member

/-- A transaction that ends keeps nothing of its own. -/
theorem ChartKept.finished (kept : ChartKept chart machine) (id : Nat) :
    ChartKept chart (machine.set id .finished) := by
  have own : ∀ other, ((machine.set id .finished).transaction other).own = [] ∨
      ((machine.set id .finished).transaction other).own = (machine.transaction other).own := by
    intro other
    rw [set_transaction]
    by_cases same : other = id
    · exact Or.inl (by rw [if_pos same]; rfl)
    · exact Or.inr (by rw [if_neg same])
  constructor
  · intro other late
    rcases own other with none | same
    · exact none
    · rw [same]
      exact kept.fresh other late
  · exact kept.holds
  · intro other
    rcases own other with none | same
    · rw [none]
      exact UniqueIndex.admits_nil _ _
    · rw [same]
      exact kept.admits other
  · intro s t different
    rcases own s with none | same
    · rw [none]
      exact UniqueIndex.apart_nil _ _
    · rcases own t with none' | same'
      · rw [none']
        exact (UniqueIndex.apart_nil _ _).symm
      · rw [same, same']
        exact kept.apart s t different
  · intro other row member
    rw [visible, set_committed] at member ⊢
    rcases own other with none | same
    · rw [none, List.append_nil] at member ⊢
      exact kept.soundCommitted member
    · rw [same] at member ⊢
      exact kept.sound other row member

theorem apart_of_free {id other : Nat} {row : ChartRow}
    (free : machine.isHeldElsewhere id row = false) (begun : other < machine.begun)
    (different : other ≠ id) :
    UniqueIndex.Apart ChartRow.primaryKey [row] (machine.transaction other).own := by
  intro k ofRow ofHeld
  obtain ⟨held, inOwn, heldKey⟩ := List.mem_filterMap.mp ofHeld
  have rowKey : row.primaryKey = some k := by
    simpa [List.filterMap_cons, ChartRow.primaryKey] using (List.mem_filterMap.mp ofRow)
  have conflict : machine.isHeldElsewhere id row = true := by
    rw [isHeldElsewhere, List.any_eq_true]
    refine ⟨other, List.mem_range.mpr begun, ?_⟩
    rw [decide_eq_true different, Bool.true_and, List.any_eq_true]
    exact ⟨held, inOwn, decide_eq_true (heldKey.trans rowKey.symm)⟩
  rw [free] at conflict
  cases conflict

/-- A row that lands keeps the tables' keys. -/
theorem ChartKept.landed (kept : ChartKept chart machine) {id : Nat} {row : ChartRow}
    (begun : id < machine.begun) (free : machine.isHeldElsewhere id row = false)
    (admitted : ChartMachine.Admits chart (machine.visible id) row) :
    ChartKept chart (machine.set id
      { machine.transaction id with
        own := (machine.transaction id).own ++ [row], inHand := none }) := by
  obtain ⟨key, checked, references⟩ := admitted
  have mine : ∀ other, other = id → ((machine.set id
      { machine.transaction id with
        own := (machine.transaction id).own ++ [row], inHand := none }).transaction other).own =
      (machine.transaction id).own ++ [row] := by
    intro other same
    rw [set_transaction, if_pos same]
  have theirs : ∀ other, other ≠ id → ((machine.set id
      { machine.transaction id with
        own := (machine.transaction id).own ++ [row], inHand := none }).transaction other).own =
      (machine.transaction other).own := by
    intro other different
    rw [set_transaction, if_neg different]
  have apartFromOthers : ∀ other, other ≠ id →
      UniqueIndex.Apart ChartRow.primaryKey ((machine.transaction id).own ++ [row])
        (machine.transaction other).own := by
    intro other different
    by_cases known : other < machine.begun
    · exact (kept.apart id other (Ne.symm different)).append
        (apart_of_free free known different)
    · rw [kept.fresh other (by omega)]
      exact (UniqueIndex.apart_nil _ _).symm
  constructor
  · intro other late
    have different : other ≠ id := by
      intro same
      have : machine.begun ≤ id := same ▸ late
      omega
    rw [theirs other different]
    exact kept.fresh other late
  · exact kept.holds
  · intro other
    by_cases same : other = id
    · rw [mine other same]
      exact UniqueIndex.admits_append (kept.admits id) key
    · rw [theirs other same]
      exact kept.admits other
  · intro s t different
    by_cases isId : s = id
    · have other : t ≠ id := by
        rintro rfl
        exact different isId
      rw [mine s isId, theirs t other]
      exact apartFromOthers t other
    · rw [theirs s isId]
      by_cases isId' : t = id
      · rw [mine t isId']
        exact (apartFromOthers s isId).symm
      · rw [theirs t isId']
        exact kept.apart s t different
  · intro other held member
    by_cases same : other = id
    · rw [visible, mine other same, ← List.append_assoc] at member ⊢
      rcases List.mem_append.mp member with before | isRow
      · obtain ⟨fine, refers⟩ := kept.sound id held before
        exact ⟨fine, refers.mono (List.subset_append_left _ _)⟩
      · rw [List.mem_singleton.mp isRow]
        exact ⟨checked, references.mono (List.subset_append_left _ _)⟩
    · rw [visible, theirs other same] at member ⊢
      exact kept.sound other held member

/-- A commit adds the transaction's rows to the committed ones. -/
theorem ChartKept.committed (kept : ChartKept chart machine) (id : Nat) :
    ChartKept chart { machine.set id .finished with committed := machine.visible id } := by
  have mine : ((machine.set id .finished).transaction id).own = [] := by
    rw [set_transaction, if_pos rfl]
    rfl
  have theirs : ∀ other, other ≠ id →
      ((machine.set id .finished).transaction other).own = (machine.transaction other).own := by
    intro other different
    rw [set_transaction, if_neg different]
  have ended := kept.finished id
  constructor
  · exact ended.fresh
  · exact UniqueIndex.holds_append kept.holds (kept.admits id)
  · intro other
    by_cases same : other = id
    · subst same
      change UniqueIndex.Admits _ _ ((machine.set other .finished).transaction other).own
      rw [mine]
      exact UniqueIndex.admits_nil _ _
    · change UniqueIndex.Admits _ _ ((machine.set id .finished).transaction other).own
      rw [theirs other same]
      exact (kept.admits other).behind (kept.apart other id same)
  · exact ended.apart
  · intro other row member
    change row ∈ machine.visible id ++ ((machine.set id .finished).transaction other).own
      at member
    change _ ∧ row.References chart
      (machine.visible id ++ ((machine.set id .finished).transaction other).own)
    rcases List.mem_append.mp member with before | own
    · obtain ⟨fine, refers⟩ := kept.sound id row before
      exact ⟨fine, refers.mono (List.subset_append_left _ _)⟩
    · by_cases same : other = id
      · subst same
        rw [mine] at own
        cases own
      · rw [theirs other same] at own ⊢
        obtain ⟨fine, refers⟩ := kept.sound other row (List.mem_append_right _ own)
        refine ⟨fine, refers.mono ?_⟩
        rw [visible, visible, List.append_assoc]
        exact List.append_subset.mpr ⟨List.subset_append_left _ _,
          fun r inOwn => List.mem_append_right _ (List.mem_append_right _ inOwn)⟩

theorem chartKept_step {action : ChartAction} (kept : ChartKept chart machine)
    (stepped : machine.step chart action = some next) : ChartKept chart next := by
  cases action with
  | begin =>
      simp only [step, Option.some.injEq] at stepped
      subst stepped
      exact ⟨fun id late => kept.fresh id (by simp only at late; omega), kept.holds,
        kept.admits, kept.apart, kept.sound⟩
  | run id statement =>
      simp only [step] at stepped
      split at stepped
      · rename_i isOpen
        have begun : id < machine.begun := by
          have both := Bool.and_eq_true_iff.mp isOpen
          exact of_decide_eq_true both.1
        rcases act_cases stepped with
          ⟨row, _, _, rfl⟩ | ⟨row, _, free, admitted, rfl⟩ | ⟨_, rfl⟩ | rfl
        · exact kept.of_own (inserting_own machine id row)
        · exact kept.landed begun free admitted
        · exact kept.committed id
        · exact kept.finished id
      · cases stepped

theorem ChartKept.soundLine (kept : ChartKept chart machine) {f : FsLine}
    (member : f ∈ fsLines machine.committed) :
    (ChartRow.line f).Checked ∧ (ChartRow.line f).References chart machine.committed := by
  obtain ⟨row, held, isLine⟩ := List.mem_filterMap.mp member
  cases row with
  | line g =>
      cases isLine
      exact kept.soundCommitted held
  | version v note => cases isLine
  | presentation p => cases isLine

theorem ChartKept.soundRow (kept : ChartKept chart machine) {p : PresentationRow}
    (member : p ∈ presentationRows machine.committed) :
    (ChartRow.presentation p).Checked ∧
      (ChartRow.presentation p).References chart machine.committed := by
  obtain ⟨row, held, isRow⟩ := List.mem_filterMap.mp member
  cases row with
  | presentation q =>
      cases isRow
      exact kept.soundCommitted held
  | version v note => cases isRow
  | line f => cases isRow

theorem chartKept_of_play {actions : List ChartAction} (kept : ChartKept chart machine)
    (played : machine.play chart actions = some next) : ChartKept chart next := by
  induction actions generalizing machine with
  | nil =>
      simp only [play, Option.some.injEq] at played
      exact played ▸ kept
  | cons action rest inductionHypothesis =>
      obtain ⟨middle, stepped, later⟩ := Option.bind_eq_some_iff.mp played
      exact inductionHypothesis (chartKept_step kept stepped) later

end Kept

/-- A presentation of the reports over the chart's rows. -/
structure Presentation.Lists (presentation : Presentation) (rows : List ChartRow) : Prop where
  versions : presentation.versions = chartVersions rows
  lines : presentation.lines = fsLines rows
  rows : presentation.rows = presentationRows rows

/-- What transactions commit to the chart's tables is a presentation. -/
def ChartKept.presentation {chart : Chart} {machine : ChartMachine}
    (kept : ChartKept chart machine) : Presentation where
  versions := chartVersions machine.committed
  lines := fsLines machine.committed
  rows := presentationRows machine.committed
  pkFsLines := by
    refine UniqueIndex.holds_filterMap kept.holds _ _ (fun k => ("fs_lines", k)) ?_
    intro row f k isLine isKey
    cases row with
    | line g =>
        cases isLine
        cases isKey
        rfl
    | version v note => cases isLine
    | presentation p => cases isLine
  fkFsLinesVersion line member := (kept.soundLine member).2
  ckFsLinesCodeReserved line member := (kept.soundLine member).1.1
  ckFsLinesSideMatchesStatement line member := (kept.soundLine member).1.2
  pkPresentation := by
    refine UniqueIndex.holds_filterMap kept.holds _ _ (fun k => ("chart_presentation", k)) ?_
    intro row p k isRow isKey
    cases row with
    | presentation q =>
        cases isRow
        cases isKey
        rfl
    | version v note => cases isRow
    | line f => cases isRow
  fkPresentationVersion row member := (kept.soundRow member).2.1
  fkPresentationFsLine row member := (kept.soundRow member).2.2.2.1
  fkPresentationFsLineContra row member contra isContra side isSide :=
    (kept.soundRow member).2.2.2.2 contra isContra side isSide
  ckContraRequiredForPerShard row member := (kept.soundRow member).1.1
  ckContraIsBalanceSheet row member := (kept.soundRow member).1.2.1
  ckPerShardIsBalanceSheet row member := (kept.soundRow member).1.2.2

theorem ChartKept.presents {chart : Chart} {machine : ChartMachine}
    (kept : ChartKept chart machine) : kept.presentation.Presents chart :=
  fun _ member => (kept.soundRow member).2.2.1

/-- At every moment of every run the committed rows are a presentation of the chart. -/
theorem presented_of_play {chart : Chart} {actions : List ChartAction} {machine : ChartMachine}
    (played : ChartMachine.empty.play chart actions = some machine) :
    ∃ presentation : Presentation,
      presentation.Lists machine.committed ∧ presentation.Presents chart := by
  have kept := chartKept_of_play chartKept_empty played
  exact ⟨kept.presentation, ⟨rfl, rfl, rfl⟩, kept.presents⟩

section Pinned

variable {earlier later : Presentation} {rows more : List ChartRow} {v : Int}

theorem linesOf_eq (lists : earlier.Lists rows) (statement : FsStatement) :
    earlier.linesOf v statement =
      (fsLines (rowsOfVersion v rows)).filter fun line => decide (line.statement = statement) := by
  rw [Presentation.linesOf, lists.lines]
  clear lists
  induction rows with
  | nil =>
      rfl
  | cons row rest inductionHypothesis =>
      cases row with
      | line f =>
          by_cases named : f.chartVersion = v
          · by_cases onIt : f.statement = statement
            · simpa [fsLines, rowsOfVersion, ChartRow.isGuarded, ChartRow.chartVersion,
                named, onIt] using inductionHypothesis
            · simpa [fsLines, rowsOfVersion, ChartRow.isGuarded, ChartRow.chartVersion,
                named, onIt] using inductionHypothesis
          · simpa [fsLines, rowsOfVersion, ChartRow.isGuarded, ChartRow.chartVersion,
              named] using inductionHypothesis
      | version w note =>
          simpa [fsLines, rowsOfVersion, ChartRow.isGuarded] using inductionHypothesis
      | presentation p =>
          by_cases named : p.chartVersion = v
          · simpa [fsLines, rowsOfVersion, ChartRow.isGuarded, ChartRow.chartVersion,
              named] using inductionHypothesis
          · simpa [fsLines, rowsOfVersion, ChartRow.isGuarded, ChartRow.chartVersion,
              named] using inductionHypothesis

theorem row?_eq (lists : earlier.Lists rows) (typeCode : String) :
    earlier.row? v typeCode =
      (presentationRows (rowsOfVersion v rows)).find? fun row =>
        decide (row.typeCode = typeCode) := by
  rw [Presentation.row?, lists.rows]
  clear lists
  induction rows with
  | nil =>
      rfl
  | cons row rest inductionHypothesis =>
      cases row with
      | presentation p =>
          by_cases named : p.chartVersion = v
          · by_cases ofType : p.typeCode = typeCode
            · simp [presentationRows, rowsOfVersion, ChartRow.isGuarded, ChartRow.chartVersion,
                named, ofType]
            · simpa [presentationRows, rowsOfVersion, ChartRow.isGuarded,
                ChartRow.chartVersion, named, ofType] using inductionHypothesis
          · simpa [presentationRows, rowsOfVersion, ChartRow.isGuarded, ChartRow.chartVersion,
              named] using inductionHypothesis
      | version w note =>
          simpa [presentationRows, rowsOfVersion, ChartRow.isGuarded] using inductionHypothesis
      | line f =>
          by_cases named : f.chartVersion = v
          · simpa [presentationRows, rowsOfVersion, ChartRow.isGuarded, ChartRow.chartVersion,
              named] using inductionHypothesis
          · simpa [presentationRows, rowsOfVersion, ChartRow.isGuarded, ChartRow.chartVersion,
              named] using inductionHypothesis

variable (wasThere : v ∈ earlier.versions) (isThere : v ∈ later.versions)
  (sameLines : ∀ statement, later.linesOf v statement = earlier.linesOf v statement)
  (sameRows : ∀ typeCode, later.row? v typeCode = earlier.row? v typeCode)

include wasThere isThere sameLines sameRows

/-- A balance sheet reads of a version its lines and its rows. -/
theorem balanceSheetAt_pinned (book : Book) (tenantId : String) (asOf : ReportInstant)
    (cursor : Xid) :
    balanceSheetAt later book tenantId asOf cursor (some v) =
      balanceSheetAt earlier book tenantId asOf cursor (some v) := by
  have unpresented : hasUnpresentedPosition later book tenantId asOf cursor v =
      hasUnpresentedPosition earlier book tenantId asOf cursor v := by
    simp only [hasUnpresentedPosition, sameRows]
  have positions : presentedPositions later book tenantId asOf cursor v =
      presentedPositions earlier book tenantId asOf cursor v := by
    simp only [presentedPositions, sameRows]
  have face : ∀ held, balanceSheetFace later tenantId cursor v (scopesOf book tenantId) held =
      balanceSheetFace earlier tenantId cursor v (scopesOf book tenantId) held := by
    intro held
    simp only [balanceSheetFace, sameLines]
  have was : resolveVersion earlier (some v) = .ok v := if_pos wasThere
  have is : resolveVersion later (some v) = .ok v := if_pos isThere
  simp only [balanceSheetAt, was, is, unpresented, positions, face]

theorem incomeStatementFor_pinned (book : Book) (tenantId : String)
    (fromAt toAt : ReportInstant) (cursor : Xid) :
    incomeStatementFor later book tenantId fromAt toAt cursor (some v) =
      incomeStatementFor earlier book tenantId fromAt toAt cursor (some v) := by
  have unpresented : hasUnpresentedFlow later book tenantId fromAt toAt cursor v =
      hasUnpresentedFlow earlier book tenantId fromAt toAt cursor v := by
    simp only [hasUnpresentedFlow, sameRows]
  have flows : presentedFlows later book tenantId fromAt toAt cursor v =
      presentedFlows earlier book tenantId fromAt toAt cursor v := by
    simp only [presentedFlows, sameRows]
  have face : ∀ held, incomeStatementFace later tenantId cursor v (scopesOf book tenantId) held =
      incomeStatementFace earlier tenantId cursor v (scopesOf book tenantId) held := by
    intro held
    simp only [incomeStatementFace, sameLines]
  have was : resolveVersion earlier (some v) = .ok v := if_pos wasThere
  have is : resolveVersion later (some v) = .ok v := if_pos isThere
  simp only [incomeStatementFor, was, is, unpresented, flows, face]

end Pinned

/-- Of every two moments of the run, a statement pinned to a version that the
first one superseded is the same at the second. -/
def PinnedStatementsReproduce (chart : Chart) (actions : List ChartAction) : Prop :=
  ∀ earlier later rest, ∀ before after : ChartMachine,
    actions = earlier ++ (later ++ rest) →
    ChartMachine.empty.play chart earlier = some before →
    before.play chart later = some after →
    ∀ was is : Presentation, was.Lists before.committed → is.Lists after.committed →
    ∀ v ∈ was.versions, ∀ w ∈ was.versions, v < w →
      (∀ book tenantId asOf cursor,
        balanceSheetAt is book tenantId asOf cursor (some v) =
          balanceSheetAt was book tenantId asOf cursor (some v)) ∧
      ∀ book tenantId fromAt toAt cursor,
        incomeStatementFor is book tenantId fromAt toAt cursor (some v) =
          incomeStatementFor was book tenantId fromAt toAt cursor (some v)

theorem pinnedStatementsReproduce_of_frozen {chart : Chart} {actions : List ChartAction}
    (frozen : SupersededFrozen chart actions) : PinnedStatementsReproduce chart actions := by
  intro earlier later rest before after split reached played was is wasLists isLists
    v present w above below
  have present' : v ∈ is.versions := by
    rw [wasLists.versions] at present
    rw [isLists.versions]
    obtain ⟨note, held⟩ := mem_chartVersions.mp present
    exact mem_chartVersions.mpr ⟨note, committed_grows played held⟩
  have same : rowsOfVersion v after.committed = rowsOfVersion v before.committed :=
    frozen earlier later rest before after split reached played v w (wasLists.versions ▸ above)
      below
  have lines : ∀ statement, is.linesOf v statement = was.linesOf v statement := by
    intro statement
    rw [linesOf_eq isLists, linesOf_eq wasLists, same]
  have rows : ∀ typeCode, is.row? v typeCode = was.row? v typeCode := by
    intro typeCode
    rw [row?_eq isLists, row?_eq wasLists, same]
  exact ⟨fun book tenantId => balanceSheetAt_pinned present present' lines rows book tenantId,
    fun book tenantId => incomeStatementFor_pinned present present' lines rows book tenantId⟩

/-- A superseded chart version is frozen throughout a run, and the statements
pinned to it with it, exactly when no transaction commits a row of it after
another one, while that row was past the trigger and uncommitted, has committed
a version above it. -/
theorem superseded_versions_are_frozen (chart : Chart) (actions : List ChartAction) :
    (SupersededFrozen chart actions ∧ PinnedStatementsReproduce chart actions) ↔
      ¬ Raced chart actions := by
  constructor
  · rintro ⟨frozen, _⟩ raced
    exact not_frozen_of_raced raced frozen
  · intro unraced
    have frozen : SupersededFrozen chart actions := by
      intro earlier later rest before after split reached played
      exact frozenBetween_of_unraced unraced split reached played
    exact ⟨frozen, pinnedStatementsReproduce_of_frozen frozen⟩

section LateLine

/-- A chart of one line at version 1, and a second line for it. -/
def cashLine : FsLine := ⟨1, "cash", "Cash", .balanceSheet, .asset, 10⟩

def lateLine : FsLine := ⟨1, "receivables", "Receivables", .balanceSheet, .asset, 20⟩

def versionOneSeeded : List ChartAction :=
  [.begin, .run 0 (.insert (.version 1 "first")), .run 0 .land,
    .run 0 (.insert (.line cashLine)), .run 0 .land, .run 0 .commit]

/-- Transaction 1 inserts the second line, and transaction 2 commits version 2
before transaction 1 commits. -/
def lineOvertaken : List ChartAction :=
  [.begin, .begin, .run 1 (.insert (.line lateLine)), .run 1 .land,
    .run 2 (.insert (.version 2 "second")), .run 2 .land]

/-- Version 1 gains a line after version 2 has superseded it. -/
theorem late_line_restates_version_one :
    ¬ SupersededFrozen ⟨[], List.nodup_nil⟩
      (versionOneSeeded ++ lineOvertaken ++ [.run 2 .commit, .run 1 .commit]) := by
  refine not_frozen_of_raced
    ⟨versionOneSeeded ++ lineOvertaken, [], [], 1, 2, .line lateLine, _, _, _, by simp,
      rfl, rfl, rfl, ⟨by decide, rfl, Or.inl ?_, 2, ?_, by decide⟩, ?_⟩
  · exact List.mem_singleton.mpr rfl
  · exact List.mem_singleton.mpr rfl
  · exact List.mem_singleton.mpr rfl

end LateLine

end OpenLedger
