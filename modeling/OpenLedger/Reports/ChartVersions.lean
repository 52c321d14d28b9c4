import OpenLedger.Reports.Statements

/-!
# Chart versions

Transactions that insert `chart_versions`, `fs_lines` and `chart_presentation`
rows.  Every statement, and the query inside a trigger, sees the rows committed
when it starts and its own transaction's.  The trigger that freezes a superseded
version reads `max(version)` and locks nothing.
-/

namespace OpenLedger

/-- A row of one of the chart's append-only tables. -/
inductive ChartRow where
  | version (version : Int) (note : String)
  | line (line : FsLine)
  | presentation (row : PresentationRow)
deriving DecidableEq, Repr

namespace ChartRow

def tgTableName : ChartRow → String
  | version .. => "chart_versions"
  | line _ => "fs_lines"
  | presentation _ => "chart_presentation"

def chartVersion : ChartRow → Int
  | version v _ => v
  | line f => f.chartVersion
  | presentation p => p.chartVersion

/-- The code a row's primary key has beside its version. -/
def code : ChartRow → String
  | version .. => ""
  | line f => f.code
  | presentation p => p.typeCode

/-- `pk_chart_versions`, `pk_fs_lines` and `pk_presentation`, each of its table. -/
def primaryKey (row : ChartRow) : Option (String × Int × String) :=
  some (row.tgTableName, row.chartVersion, row.code)

/-- Whether `refuse_stale_chart_version` guards the row's table. -/
def isGuarded : ChartRow → Bool
  | version .. => false
  | line _ => true
  | presentation _ => true

end ChartRow

/-- `SELECT version FROM chart_versions`. -/
def chartVersions (rows : List ChartRow) : List Int :=
  rows.filterMap fun
    | .version version _ => some version
    | _ => none

def fsLines (rows : List ChartRow) : List FsLine :=
  rows.filterMap fun
    | .line line => some line
    | _ => none

def presentationRows (rows : List ChartRow) : List PresentationRow :=
  rows.filterMap fun
    | .presentation row => some row
    | _ => none

/-- The `fs_lines` and `chart_presentation` rows of one version. -/
def rowsOfVersion (version : Int) (rows : List ChartRow) : List ChartRow :=
  rows.filter fun row => row.isGuarded && decide (row.chartVersion = version)

/-- `RAISE EXCEPTION` of `refuse_stale_chart_version`. -/
def Raised.staleChartVersion (tgTableName : String) (version currentMax : Int) : Raised :=
  ⟨checkViolation, tgTableName ++ " names chart version " ++ toString version ++
    ", below the current maximum " ++ toString currentMax ++
      " -- a superseded chart version is frozen history; append a new version instead"⟩

/-- `refuse_stale_chart_version`, over the rows its query sees. -/
def refuseStaleChartVersion (visible : List ChartRow) (new : ChartRow) : Except Raised Unit :=
  match (chartVersions visible).max? with
  | none => .ok ()
  | some currentMax =>
      if new.chartVersion < currentMax then
        .error (Raised.staleChartVersion new.tgTableName new.chartVersion currentMax)
      else
        .ok ()

/-- The `BEFORE INSERT` triggers of a row's table. -/
def beforeInsert (visible : List ChartRow) (new : ChartRow) : Except Raised Unit :=
  if new.isGuarded then refuseStaleChartVersion visible new else .ok ()

namespace ChartRow

/-- The `CHECK`s of the row's table. -/
def Checked : ChartRow → Prop
  | version v note => 0 < v ∧ ∃ character ∈ note.toList, character ≠ ' '
  | line f => f.code ≠ "current_year_earnings" ∧ f.side.matchesStatement f.statement = true
  | presentation p =>
      (p.counterpartyScope = .perShard → p.fsLineContra.isSome = true) ∧
        (p.fsLineContra.isSome = true → p.category.swings = true) ∧
          (p.counterpartyScope = .perShard → p.category.swings = true)

instance : (row : ChartRow) → Decidable row.Checked
  | version _ _ => @instDecidableAnd _ _ _ (List.decidableBEx _ _)
  | line _ => inferInstanceAs (Decidable (_ ∧ _))
  | presentation _ => inferInstanceAs (Decidable (_ ∧ _))

/-- The foreign keys of the row's table, over the rows they see. -/
def References (chart : Chart) (visible : List ChartRow) : ChartRow → Prop
  | version .. => True
  | line f => f.chartVersion ∈ chartVersions visible
  | presentation p =>
      p.chartVersion ∈ chartVersions visible ∧
      (∃ type ∈ chart.types, type.code = p.typeCode ∧ type.category = p.category ∧
        type.counterpartyScope = p.counterpartyScope) ∧
      (∃ f ∈ fsLines visible, f.chartVersion = p.chartVersion ∧
        f.code = p.fsLine ∧ f.statement = p.fsStatement ∧ f.side = p.fsSide) ∧
      ∀ contra ∈ p.fsLineContra, ∀ side ∈ p.fsSideContra,
        ∃ f ∈ fsLines visible, f.chartVersion = p.chartVersion ∧
          f.code = contra ∧ f.statement = p.fsStatement ∧ f.side = side

instance (chart : Chart) (visible : List ChartRow) :
    (row : ChartRow) → Decidable (row.References chart visible)
  | version .. => inferInstanceAs (Decidable True)
  | line _ => inferInstanceAs (Decidable (_ ∈ _))
  | presentation _ => inferInstanceAs (Decidable (_ ∧ _))

end ChartRow

/-- One transaction: the rows it has inserted, and the row of the statement it
is running, past its trigger and not yet in its table. -/
structure ChartTransaction where
  own : List ChartRow
  inHand : Option ChartRow
  ended : Bool

namespace ChartTransaction

def fresh : ChartTransaction := ⟨[], none, false⟩

def finished : ChartTransaction := ⟨[], none, true⟩

/-- A row the transaction has inserted or is inserting. -/
def Holds (transaction : ChartTransaction) (row : ChartRow) : Prop :=
  row ∈ transaction.own ∨ transaction.inHand = some row

end ChartTransaction

/-- The chart's committed rows, and the transactions begun so far. -/
structure ChartMachine where
  committed : List ChartRow
  begun : Nat
  transaction : Nat → ChartTransaction

/-- What an open transaction does next. -/
inductive ChartStatement where
  /-- An `INSERT` reaches its trigger. -/
  | insert (row : ChartRow)
  /-- The row past its trigger reaches its table's keys and checks. -/
  | land
  /-- An `UPDATE`, `DELETE` or `TRUNCATE`, which `refuse_mutation` or
  `refuse_truncate` raises on. -/
  | mutate
  | commit
  | rollback
deriving DecidableEq

inductive ChartAction where
  | begin
  | run (id : Nat) (statement : ChartStatement)
deriving DecidableEq

namespace ChartMachine

def empty : ChartMachine := ⟨[], 0, fun _ => .fresh⟩

/-- What a statement of a transaction sees. -/
def visible (machine : ChartMachine) (id : Nat) : List ChartRow :=
  machine.committed ++ (machine.transaction id).own

def isOpen (machine : ChartMachine) (id : Nat) : Bool :=
  decide (id < machine.begun) && !(machine.transaction id).ended

/-- Whether another open transaction has inserted the row's primary key: the
index makes the second one wait. -/
def isHeldElsewhere (machine : ChartMachine) (id : Nat) (row : ChartRow) : Bool :=
  (List.range machine.begun).any fun other =>
    decide (other ≠ id) &&
      (machine.transaction other).own.any fun held => decide (held.primaryKey = row.primaryKey)

def set (machine : ChartMachine) (id : Nat) (transaction : ChartTransaction) : ChartMachine :=
  { machine with transaction := Function.update machine.transaction id transaction }

/-- Whether a row may join what its statement sees: its key is free there, and
its checks and foreign keys hold. -/
def Admits (chart : Chart) (visible : List ChartRow) (row : ChartRow) : Prop :=
  UniqueIndex.Admits ChartRow.primaryKey visible [row] ∧ row.Checked ∧
    row.References chart visible

instance (chart : Chart) (visible : List ChartRow) (row : ChartRow) :
    Decidable (Admits chart visible row) :=
  inferInstanceAs (Decidable (_ ∧ _))

/-- One step of an open transaction: `none` while it waits.  A refused statement
aborts its transaction. -/
def act (chart : Chart) (machine : ChartMachine) (id : Nat) :
    ChartStatement → Option ChartMachine
  | .insert row =>
      let transaction := machine.transaction id
      if transaction.inHand.isSome then none
      else
        match beforeInsert (machine.visible id) row with
        | .error _ => some (machine.set id .finished)
        | .ok () => some (machine.set id { transaction with inHand := some row })
  | .land =>
      let transaction := machine.transaction id
      match transaction.inHand with
      | none => none
      | some row =>
          if machine.isHeldElsewhere id row then none
          else if Admits chart (machine.visible id) row then
            some (machine.set id
              { transaction with own := transaction.own ++ [row], inHand := none })
          else some (machine.set id .finished)
  | .mutate => some (machine.set id .finished)
  | .commit =>
      if (machine.transaction id).inHand.isSome then none
      else some { machine.set id .finished with committed := machine.visible id }
  | .rollback => some (machine.set id .finished)

def step (chart : Chart) (machine : ChartMachine) : ChartAction → Option ChartMachine
  | .begin => some { machine with begun := machine.begun + 1 }
  | .run id statement => if machine.isOpen id then machine.act chart id statement else none

def play (chart : Chart) (machine : ChartMachine) : List ChartAction → Option ChartMachine
  | [] => some machine
  | action :: rest => (machine.step chart action).bind fun next => next.play chart rest

/-- What one step of an open transaction can do: a row passes its trigger, or
joins its table, or the transaction commits, or it ends with nothing kept. -/
theorem act_cases {chart : Chart} {machine next : ChartMachine} {id : Nat}
    {statement : ChartStatement} (acts : machine.act chart id statement = some next) :
    (∃ row, (machine.transaction id).inHand = none ∧
      beforeInsert (machine.visible id) row = .ok () ∧
        next = machine.set id { machine.transaction id with inHand := some row }) ∨
    (∃ row, (machine.transaction id).inHand = some row ∧
      machine.isHeldElsewhere id row = false ∧ Admits chart (machine.visible id) row ∧
        next = machine.set id
          { machine.transaction id with
            own := (machine.transaction id).own ++ [row], inHand := none }) ∨
    (statement = .commit ∧
      next = { machine.set id .finished with committed := machine.visible id }) ∨
    next = machine.set id .finished := by
  cases statement with
  | insert row =>
      simp only [act] at acts
      split at acts
      · cases acts
      · rename_i idle
        split at acts
        · exact Or.inr (Or.inr (Or.inr (Option.some.inj acts).symm))
        · rename_i passed
          exact Or.inl ⟨row, by simpa using idle, passed, (Option.some.inj acts).symm⟩
  | land =>
      simp only [act] at acts
      split at acts
      · cases acts
      · rename_i row inHand
        split at acts
        · cases acts
        · rename_i free
          split at acts
          · rename_i admitted
            exact Or.inr (Or.inl
              ⟨row, inHand, by simpa using free, admitted, (Option.some.inj acts).symm⟩)
          · exact Or.inr (Or.inr (Or.inr (Option.some.inj acts).symm))
  | mutate =>
      exact Or.inr (Or.inr (Or.inr (Option.some.inj acts).symm))
  | commit =>
      simp only [act] at acts
      split at acts
      · cases acts
      · exact Or.inr (Or.inr (Or.inl ⟨rfl, (Option.some.inj acts).symm⟩))
  | rollback =>
      exact Or.inr (Or.inr (Or.inr (Option.some.inj acts).symm))

theorem play_append (chart : Chart) (machine : ChartMachine) (earlier later : List ChartAction) :
    machine.play chart (earlier ++ later) =
      (machine.play chart earlier).bind fun next => next.play chart later := by
  induction earlier generalizing machine with
  | nil =>
      rfl
  | cons action rest inductionHypothesis =>
      simp only [List.cons_append, play]
      cases machine.step chart action with
      | none => rfl
      | some next => exact inductionHypothesis next

theorem play_snoc {chart : Chart} {machine next : ChartMachine} {earlier : List ChartAction}
    {action : ChartAction} (played : machine.play chart (earlier ++ [action]) = some next) :
    ∃ middle, machine.play chart earlier = some middle ∧ middle.step chart action = some next := by
  rw [play_append] at played
  obtain ⟨middle, reached, last⟩ := Option.bind_eq_some_iff.mp played
  refine ⟨middle, reached, ?_⟩
  simpa [play, Option.bind_some] using last

@[simp]
theorem set_committed (machine : ChartMachine) (id : Nat) (transaction : ChartTransaction) :
    (machine.set id transaction).committed = machine.committed :=
  rfl

theorem set_transaction (machine : ChartMachine) (id other : Nat)
    (transaction : ChartTransaction) :
    (machine.set id transaction).transaction other =
      if other = id then transaction else machine.transaction other := by
  simp [set, Function.update_apply]

end ChartMachine

open ChartMachine

section Freeze

variable {chart : Chart} {machine next : ChartMachine}

/-- A step leaves the committed rows as they are, unless it is a commit, which
adds the transaction's own. -/
theorem committed_of_step {action : ChartAction} (stepped : machine.step chart action = some next) :
    next.committed = machine.committed ∨
      ∃ id, action = .run id .commit ∧
        next.committed = machine.committed ++ (machine.transaction id).own := by
  cases action with
  | begin =>
      simp only [step, Option.some.injEq] at stepped
      exact Or.inl (by rw [← stepped])
  | run id statement =>
      simp only [step] at stepped
      split at stepped
      · rcases act_cases stepped with ⟨row, _, _, rfl⟩ | ⟨row, _, _, _, rfl⟩ | ⟨rfl, rfl⟩ | rfl
        · exact Or.inl rfl
        · exact Or.inl rfl
        · exact Or.inr ⟨id, rfl, rfl⟩
        · exact Or.inl rfl
      · cases stepped

theorem committed_of_commit {id : Nat}
    (stepped : machine.step chart (.run id .commit) = some next) :
    next.committed = machine.committed ++ (machine.transaction id).own := by
  simp only [step, act] at stepped
  split at stepped
  · split at stepped
    · cases stepped
    · rw [← Option.some.inj stepped]
      rfl
  · cases stepped

theorem committed_grows {actions : List ChartAction}
    (played : machine.play chart actions = some next) :
    machine.committed ⊆ next.committed := by
  induction actions generalizing machine with
  | nil =>
      simp only [play, Option.some.injEq] at played
      rw [played]
      exact List.Subset.refl _
  | cons action rest inductionHypothesis =>
      obtain ⟨middle, stepped, later⟩ := Option.bind_eq_some_iff.mp played
      have first : machine.committed ⊆ middle.committed := by
        rcases committed_of_step stepped with same | ⟨id, _, grown⟩
        · rw [same]
          exact List.Subset.refl _
        · rw [grown]
          exact List.subset_append_left _ _
      exact List.Subset.trans first (inductionHypothesis later)

theorem mem_chartVersions {rows : List ChartRow} {v : Int} :
    v ∈ chartVersions rows ↔ ∃ note, ChartRow.version v note ∈ rows := by
  rw [chartVersions, List.mem_filterMap]
  constructor
  · rintro ⟨row, member, named⟩
    cases row with
    | version w note =>
        simp only [Option.some.injEq] at named
        exact ⟨note, named ▸ member⟩
    | line f => cases named
    | presentation p => cases named
  · rintro ⟨note, member⟩
    exact ⟨_, member, rfl⟩

theorem chartVersions_append (rows more : List ChartRow) :
    chartVersions (rows ++ more) = chartVersions rows ++ chartVersions more :=
  List.filterMap_append

/-- A row past the trigger is of no version below one its query saw. -/
theorem le_of_beforeInsert {visible : List ChartRow} {row : ChartRow}
    (passed : beforeInsert visible row = .ok ()) (guarded : row.isGuarded = true) {w : Int}
    (member : w ∈ chartVersions visible) : w ≤ row.chartVersion := by
  rw [beforeInsert, if_pos guarded, refuseStaleChartVersion] at passed
  cases greatest : (chartVersions visible).max? with
  | none =>
      rw [List.max?_eq_none_iff] at greatest
      rw [greatest] at member
      cases member
  | some currentMax =>
      rw [greatest] at passed
      have below : ¬ row.chartVersion < currentMax := by
        intro stale
        simp [stale] at passed
      have atMost : w ≤ currentMax := (List.max?_le_iff greatest).mp le_rfl w member
      omega

/-- `t` is about to commit a version above a row that `s` is past the trigger
with and has not committed. -/
structure Overtaken (machine : ChartMachine) (s t : Nat) (row : ChartRow) : Prop where
  other : s ≠ t
  guarded : row.isGuarded = true
  held : (machine.transaction s).Holds row
  above : ∃ w ∈ chartVersions (machine.transaction t).own, row.chartVersion < w

/-- Somewhere in the run a row was overtaken, and its transaction then committed
it. -/
def Raced (chart : Chart) (actions : List ChartAction) : Prop :=
  ∃ earlier later rest s t row, ∃ before last after : ChartMachine,
    actions = earlier ++ .run t .commit :: (later ++ .run s .commit :: rest) ∧
    ChartMachine.empty.play chart earlier = some before ∧
    before.play chart (.run t .commit :: later) = some last ∧
    last.step chart (.run s .commit) = some after ∧
    Overtaken before s t row ∧ row ∈ (last.transaction s).own

/-- The rows of every version below the highest committed one are the same
later. -/
def FrozenBetween (before after : ChartMachine) : Prop :=
  ∀ v w, w ∈ chartVersions before.committed → v < w →
    rowsOfVersion v after.committed = rowsOfVersion v before.committed

/-- Of every two moments of the run, the superseded versions of the first are
the same at the second. -/
def SupersededFrozen (chart : Chart) (actions : List ChartAction) : Prop :=
  ∀ earlier later rest, ∀ before after : ChartMachine,
    actions = earlier ++ (later ++ rest) →
    ChartMachine.empty.play chart earlier = some before →
    before.play chart later = some after → FrozenBetween before after

/-- Every uncommitted row below a committed version was overtaken. -/
def OvertakenSince (chart : Chart) (history : List ChartAction) (machine : ChartMachine) : Prop :=
  ∀ s row w, row.isGuarded = true → (machine.transaction s).Holds row →
    w ∈ chartVersions machine.committed → row.chartVersion < w →
    ∃ earlier t later before, history = earlier ++ .run t .commit :: later ∧
      ChartMachine.empty.play chart earlier = some before ∧ Overtaken before s t row

theorem overtakenSince_empty : OvertakenSince chart [] ChartMachine.empty := by
  intro s row w _ _ member _
  cases member

/-- What an overtaken row says of a history it says of a longer one. -/
theorem OvertakenSince.snoc {history : List ChartAction} {action : ChartAction}
    (since : OvertakenSince chart history machine)
    (kept : ∀ s row, row.isGuarded = true → (next.transaction s).Holds row →
      (machine.transaction s).Holds row ∨ ∀ w ∈ chartVersions machine.committed,
        w ≤ row.chartVersion)
    (same : next.committed = machine.committed) :
    OvertakenSince chart (history ++ [action]) next := by
  intro s row w guarded holds member below
  rw [same] at member
  rcases kept s row guarded holds with held | atLeast
  · obtain ⟨earlier, t, later, before, rfl, played, overtaken⟩ :=
      since s row w guarded held member below
    exact ⟨earlier, t, later ++ [action], before, by simp, played, overtaken⟩
  · have := atLeast w member
    omega

theorem holds_of_finished {id s : Nat} {row : ChartRow}
    (holds : ((machine.set id .finished).transaction s).Holds row) :
    s ≠ id ∧ (machine.transaction s).Holds row := by
  rw [set_transaction] at holds
  by_cases same : s = id
  · rw [if_pos same] at holds
    rcases holds with member | inHand
    · cases member
    · cases inHand
  · rw [if_neg same] at holds
    exact ⟨same, holds⟩

theorem overtakenSince_step {history : List ChartAction} {action : ChartAction}
    (played : ChartMachine.empty.play chart history = some machine)
    (since : OvertakenSince chart history machine)
    (stepped : machine.step chart action = some next) :
    OvertakenSince chart (history ++ [action]) next := by
  cases action with
  | begin =>
      simp only [step, Option.some.injEq] at stepped
      subst stepped
      exact since.snoc (fun s row _ holds => Or.inl holds) rfl
  | run id statement =>
      simp only [step] at stepped
      split at stepped
      · rcases act_cases stepped with
          ⟨row, idle, passed, rfl⟩ | ⟨row, inHand, _, _, rfl⟩ | ⟨rfl, rfl⟩ | rfl
        · refine since.snoc (fun s held guarded holds => ?_) rfl
          rw [set_transaction] at holds
          by_cases same : s = id
          · subst same
            rw [if_pos rfl] at holds
            rcases holds with inserted | inserting
            · exact Or.inl (Or.inl inserted)
            · cases inserting
              exact Or.inr fun w member =>
                le_of_beforeInsert passed guarded (by
                  rw [visible, chartVersions_append]
                  exact List.mem_append_left _ member)
          · rw [if_neg same] at holds
            exact Or.inl holds
        · refine since.snoc (fun s held _ holds => Or.inl ?_) rfl
          rw [set_transaction] at holds
          by_cases same : s = id
          · subst same
            rw [if_pos rfl] at holds
            rcases holds with inserted | inserting
            · rcases List.mem_append.mp inserted with before | landed
              · exact Or.inl before
              · rw [List.mem_singleton.mp landed]
                exact Or.inr inHand
            · cases inserting
          · rw [if_neg same] at holds
            exact holds
        · -- a version committed just now overtakes what every other one holds
          intro s row w guarded holds member below
          obtain ⟨other, held⟩ := holds_of_finished holds
          change w ∈ chartVersions (machine.committed ++ (machine.transaction id).own) at member
          rw [chartVersions_append] at member
          rcases List.mem_append.mp member with already | justNow
          · obtain ⟨earlier, t, later, before, rfl, reached, overtaken⟩ :=
              since s row w guarded held already below
            exact ⟨earlier, t, later ++ [.run id .commit], before, by simp, reached, overtaken⟩
          · exact ⟨history, id, [], machine, rfl, played, other, guarded, held, w, justNow, below⟩
        · exact since.snoc (fun s row _ holds => Or.inl (holds_of_finished holds).2) rfl
      · cases stepped

theorem overtakenSince_of_play {history : List ChartAction}
    (played : ChartMachine.empty.play chart history = some machine) :
    OvertakenSince chart history machine := by
  induction history using List.reverseRecOn generalizing machine with
  | nil =>
      simp only [play, Option.some.injEq] at played
      subst played
      exact overtakenSince_empty
  | append_singleton earlier action inductionHypothesis =>
      obtain ⟨middle, reached, stepped⟩ := play_snoc played
      exact overtakenSince_step reached (inductionHypothesis reached) stepped

theorem rowsOfVersion_append (v : Int) (rows more : List ChartRow) :
    rowsOfVersion v (rows ++ more) = rowsOfVersion v rows ++ rowsOfVersion v more :=
  List.filter_append ..

theorem mem_rowsOfVersion {v : Int} {rows : List ChartRow} {row : ChartRow} :
    row ∈ rowsOfVersion v rows ↔
      row ∈ rows ∧ row.isGuarded = true ∧ row.chartVersion = v := by
  simp [rowsOfVersion, List.mem_filter]

/-- While no overtaken row is committed, what is superseded stays as it is. -/
theorem frozenBetween_of_unraced {actions earlier later rest : List ChartAction}
    {before after : ChartMachine} (unraced : ¬ Raced chart actions)
    (split : actions = earlier ++ (later ++ rest))
    (reached : ChartMachine.empty.play chart earlier = some before)
    (played : before.play chart later = some after) : FrozenBetween before after := by
  induction later using List.reverseRecOn generalizing rest after with
  | nil =>
      simp only [play, Option.some.injEq] at played
      subst played
      exact fun _ _ _ _ => rfl
  | append_singleton middle action inductionHypothesis =>
      obtain ⟨between, walked, stepped⟩ := play_snoc played
      intro v w member below
      have sofar := @inductionHypothesis (action :: rest) _ (by simpa using split) walked
        v w member below
      rcases committed_of_step stepped with same | ⟨s, rfl, grown⟩
      · rw [same, sofar]
      have nothing : rowsOfVersion v (between.transaction s).own = [] := by
        rw [List.eq_nil_iff_forall_not_mem]
        intro row added
        obtain ⟨own, guarded, named⟩ := mem_rowsOfVersion.mp added
        have history : ChartMachine.empty.play chart (earlier ++ middle) = some between := by
          rw [play_append, reached]
          exact walked
        have stillThere : w ∈ chartVersions between.committed := by
          obtain ⟨note, held⟩ := mem_chartVersions.mp member
          exact mem_chartVersions.mpr ⟨note, committed_grows walked held⟩
        obtain ⟨first, t, second, start, whole, begun, overtaken⟩ :=
          overtakenSince_of_play history s row w guarded (Or.inl own) stillThere (by omega)
        rw [whole, play_append, begun] at history
        refine unraced ⟨first, second, rest, s, t, row, start, between, after, ?_, begun,
          history, stepped, overtaken, own⟩
        calc actions = (earlier ++ middle) ++ .run s .commit :: rest := by simp [split]
          _ = _ := by rw [whole]; simp
      rw [grown, rowsOfVersion_append, nothing, List.append_nil, sofar]

/-- Committing an overtaken row changes a superseded version. -/
theorem not_frozen_of_raced {actions : List ChartAction} (raced : Raced chart actions) :
    ¬ SupersededFrozen chart actions := by
  intro frozen
  obtain ⟨earlier, later, rest, s, t, row, before, last, after, split, reached, played,
    stepped, overtaken, own⟩ := raced
  obtain ⟨w, ofCommitter, below⟩ := overtaken.above
  have history : ChartMachine.empty.play chart (earlier ++ .run t .commit :: later) =
      some last := by
    rw [play_append, reached]
    exact played
  have committedThen : w ∈ chartVersions last.committed := by
    obtain ⟨first, committing, remaining⟩ := Option.bind_eq_some_iff.mp played
    have firstHas : w ∈ chartVersions first.committed := by
      rw [committed_of_commit committing, chartVersions_append]
      exact List.mem_append_right _ ofCommitter
    obtain ⟨note, held⟩ := mem_chartVersions.mp firstHas
    exact mem_chartVersions.mpr ⟨note, committed_grows remaining held⟩
  have same := frozen (earlier ++ .run t .commit :: later) [.run s .commit] rest last after
    (by simp [split]) history (by simp [play, stepped]) row.chartVersion w committedThen below
  rw [committed_of_commit stepped, rowsOfVersion_append] at same
  have none : rowsOfVersion row.chartVersion (last.transaction s).own = [] :=
    by simpa using same
  have added : row ∈ rowsOfVersion row.chartVersion (last.transaction s).own :=
    mem_rowsOfVersion.mpr ⟨own, overtaken.guarded, rfl⟩
  rw [none] at added
  cases added

end Freeze

end OpenLedger
