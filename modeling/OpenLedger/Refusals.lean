import OpenLedger.Traces

/-!
# What a refusal leaves behind

Only an accepted request that is no replay reaches its commit.  A request that
is refused, or answered from the book, has asked for none, whatever else runs
beside it, and alone it leaves the book as it was.
-/

namespace OpenLedger

open Postgres

/-- No statement of a bracket was its commit. -/
def Uncommitted (trace : List Ran) : Prop := ∀ ran ∈ trace, ran.request ≠ .commit

/-- Whether a refusal is about the transaction a command names. -/
def WriteError.namesTarget : WriteError → Bool
  | .resolveTargetUnknown _ => true
  | .resolveTargetNotPending _ => true
  | .reverseTargetUnknown _ => true
  | .reverseTargetNotReversible _ => true
  | .targetAlreadySuperseded _ => true
  | _ => false

def namesTarget : Except WriteError Posted → Bool
  | .ok _ => false
  | .error refusal => refusal.namesTarget

/-- Whether an operation that answers this may have committed. -/
def Outcome.mayCommit : Outcome → Bool
  | .posted (.ok answer) => !answer.replayed
  | .postedBatch answers => answers.all fun answer => !namesTarget answer
  | .opened (.ok answer) => !answer.replayed
  | .defined (.ok answer) => !answer.replayed
  | .closed (.ok _) => true
  | _ => false

/-- A commit behind an answer makes the answer one of `fresh`. -/
def Spends {ε α : Type} (fresh : α → Prop) (answer : Except ε α) (trace : List Ran) : Prop :=
  Uncommitted trace ∨ ∃ value, answer = .ok value ∧ fresh value

def anytime : Tracked → Prop := fun _ => True

section Rules

variable {env : Env} {ε α : Type} {fresh : α → Prop} {tracked : Tracked}

theorem uncommitted_nil : Uncommitted [] := fun _ member => absurd member List.not_mem_nil

theorem Uncommitted.append {trace : List Ran} (uncommitted : Uncommitted trace) {ran : Ran}
    (notCommit : ran.request ≠ .commit) : Uncommitted (trace ++ [ran]) := by
  intro other member
  rcases List.mem_append.mp member with isOld | isNew
  · exact uncommitted other isOld
  · obtain rfl := List.mem_singleton.mp isNew
    exact notCommit

theorem spends_done (uncommitted : Uncommitted tracked.trace) (answer : Except ε α) :
    Tracks env anytime (Spends fresh) (.done answer) tracked :=
  Or.inl uncommitted

/-- A statement that is no commit. -/
theorem spends_ask (storage : StorageError → ε) (request : Request)
    (next : request.Answer → UseCase ε α) (notCommit : request ≠ .commit)
    (uncommitted : Uncommitted tracked.trace)
    (continues : ∀ (snapshot committed : Book) (answer : request.Answer) (after : Tracked),
      (statement env (snapshot.apply tracked.written)
        (committed.apply tracked.written) request).1 = .ok answer →
      Uncommitted after.trace →
      Tracks env anytime (Spends fresh) (next answer).run after) :
    Tracks env anytime (Spends fresh) (ask storage request >>= next).run tracked := by
  refine tracks_ask storage request next (fun isCommit => absurd isCommit notCommit)
    (fun failure trace cases => Or.inl ?_) fun snapshot committed answer _ _ answered =>
      continues snapshot committed answer _ answered (uncommitted.append notCommit)
  rcases cases with rfl | ⟨_, snapshot, committed, rfl⟩
  · exact uncommitted
  · exact uncommitted.append notCommit

theorem spends_refused (storage : StorageError → ε) (refusal : ε)
    (uncommitted : Uncommitted tracked.trace) :
    Tracks env anytime (Spends fresh)
      (do ask storage .rollback; refuse refusal : UseCase ε α).run tracked :=
  spends_ask _ _ _ (by simp) uncommitted fun _ _ _ _ _ later => spends_done later _

theorem spends_answered (storage : StorageError → ε) (answer : α) (isFresh : fresh answer)
    (uncommitted : Uncommitted tracked.trace) :
    Tracks env anytime (Spends fresh)
      (do ask storage .commit; return answer : UseCase ε α).run tracked := by
  refine tracks_ask storage .commit _ (fun _ => trivial) (fun failure trace cases => Or.inl ?_)
    fun _ _ _ _ _ _ => Or.inr ⟨answer, rfl, isFresh⟩
  rcases cases with rfl | ⟨notCommit, _⟩
  · exact uncommitted
  · exact absurd rfl notCommit

end Rules

section UseCases

variable {env : Env} (sha256 : List UInt8 → List UInt8)

theorem spends_post (command : PostTransaction) (tracked : Tracked)
    (uncommitted : Uncommitted tracked.trace) :
    Tracks env anytime (Spends fun posted : Posted => posted.replayed = false)
      (post sha256 command).run tracked := by
  unfold post
  cases planFor sha256 command with
  | error refusal =>
      exact spends_done uncommitted _
  | ok planned =>
      refine spends_ask _ _ _ (by simp) uncommitted fun _ _ _ _ _ begun => ?_
      refine spends_ask _ _ _ (by simp) begun fun _ _ claimed _ _ ran => ?_
      cases claimed with
      | none =>
          refine spends_ask _ _ _ (by simp) ran fun _ _ stored _ _ looked => ?_
          refine spends_ask _ _ _ (by simp) looked fun _ _ _ _ _ rolledBack => ?_
          cases stored <;> exact spends_done rolledBack _
      | some claimed =>
          cases claimed with
          | supersessionRefused refusal =>
              exact spends_refused _ _ ran
          | appended appended =>
              dsimp only
              split
              · exact spends_answered _ _ rfl ran
              · unfold commitOrRefuseUnknownAccount
                split
                · exact spends_refused _ _ ran
                · split
                  · exact spends_refused _ _ ran
                  · exact spends_answered _ _ rfl ran

theorem spends_openAccount (command : OpenAccount) (tracked : Tracked)
    (uncommitted : Uncommitted tracked.trace) :
    Tracks env anytime (Spends fun opened : AccountOpened => opened.replayed = false)
      (openAccount sha256 command).run tracked := by
  unfold openAccount
  refine spends_ask _ _ _ (by simp) uncommitted fun _ _ _ _ _ begun => ?_
  refine spends_ask _ _ _ (by simp) begun fun _ _ triple _ _ read => ?_
  cases triple with
  | none =>
      exact spends_refused _ _ read
  | some triple =>
      dsimp only
      split
      · exact spends_refused _ _ read
      · refine spends_ask _ _ _ (by simp) read fun _ _ claimed _ _ ran => ?_
        rcases claimed with - | (⟨eventId, account⟩ | -)
        · refine spends_ask _ _ _ (by simp) ran fun _ _ stored _ _ looked => ?_
          refine spends_ask _ _ _ (by simp) looked fun _ _ _ _ _ rolledBack => ?_
          rcases stored with - | ⟨eventId, - | account⟩ <;> exact spends_done rolledBack _
        · exact spends_answered _ _ rfl ran
        · exact spends_refused _ _ ran

theorem spends_definePeriod (command : DefinePeriod) (tracked : Tracked)
    (uncommitted : Uncommitted tracked.trace) :
    Tracks env anytime (Spends fun defined : PeriodDefined => defined.replayed = false)
      (definePeriod sha256 command).run tracked := by
  unfold definePeriod
  split
  · exact spends_done uncommitted _
  · exact spends_done uncommitted _
  · refine spends_ask _ _ _ (by simp) uncommitted fun _ _ _ _ _ begun => ?_
    refine spends_ask _ _ _ (by simp) begun fun _ _ claimed _ _ ran => ?_
    rcases claimed with - | (⟨eventId, period⟩ | - | - | -)
    · refine spends_ask _ _ _ (by simp) ran fun _ _ stored _ _ looked => ?_
      refine spends_ask _ _ _ (by simp) looked fun _ _ _ _ _ rolledBack => ?_
      rcases stored with - | ⟨eventId, - | period⟩ <;> exact spends_done rolledBack _
    · exact spends_answered _ _ rfl ran
    · exact spends_refused _ _ ran
    · exact spends_refused _ _ ran
    · exact spends_refused _ _ ran

theorem spends_closePeriod (command : ClosePeriod) (tracked : Tracked)
    (uncommitted : Uncommitted tracked.trace) :
    Tracks env anytime (Spends fun _ : PeriodClosed => True)
      (closePeriod sha256 command).run tracked := by
  unfold closePeriod
  refine spends_ask _ _ _ (by simp) uncommitted fun _ _ _ _ _ begun => ?_
  refine spends_ask _ _ _ (by simp) begun fun _ _ context _ _ read => ?_
  cases context with
  | none =>
      exact spends_refused _ _ read
  | some context =>
      dsimp only
      split
      · exact spends_refused _ _ read
      · split
        · exact spends_refused _ _ read
        · refine spends_ask _ _ _ (by simp) read fun _ _ claimed _ _ ran => ?_
          rcases claimed with - | (⟨eventId, transactionId, cursor, swept⟩ | -)
          · refine spends_ask _ _ _ (by simp) ran fun _ _ held _ _ looked => ?_
            refine spends_ask _ _ _ (by simp) looked fun _ _ _ _ _ rolledBack => ?_
            split <;> exact spends_done rolledBack _
          · refine spends_ask _ _ _ (by simp) ran fun _ _ rows _ _ checkpointed => ?_
            exact spends_answered _ _ trivial checkpointed
          · exact spends_refused _ _ ran

/-- A batch answers of its own accord nothing about a named transaction. -/
theorem answersForMembers_namesTarget (outcomes : List MemberOutcome)
    (replayed : List (Option StoredResult)) :
    ∀ answer ∈ answersForMembers outcomes replayed, namesTarget answer = false := by
  fun_induction answersForMembers outcomes replayed with
  | case1 =>
      exact fun _ member => absurd member List.not_mem_nil
  | _ =>
      rename_i inductionHypothesis
      intro answer member
      rcases List.mem_cons.mp member with rfl | isLater
      · rfl
      · exact inductionHypothesis answer isLater

theorem planFor_namesTarget {command : PostTransaction} {refusal : WriteError}
    (refused : planFor sha256 command = .error refusal) : refusal.namesTarget = false := by
  unfold planFor at refused
  split at refused
  · cases refused
    rfl
  · split at refused
    · cases refused
      rfl
    · split at refused
      · cases refused
        rfl
      · cases refused

theorem answersInArrivalOrder_namesTarget {planned : List (Except WriteError Planned)}
    {answered : List (Except WriteError Posted)}
    (plans : ∀ refusal, .error refusal ∈ planned → refusal.namesTarget = false)
    (answers : ∀ answer ∈ answered, namesTarget answer = false) :
    ∀ answer ∈ answersInArrivalOrder planned answered, namesTarget answer = false := by
  fun_induction answersInArrivalOrder planned answered with
  | case1 =>
      exact fun _ member => absurd member List.not_mem_nil
  | case2 refusal planned answered inductionHypothesis =>
      intro answer member
      rcases List.mem_cons.mp member with rfl | isLater
      · exact plans refusal List.mem_cons_self
      · exact inductionHypothesis (fun other isThere => plans other (List.mem_cons_of_mem _ isThere))
          answers answer isLater
  | case3 command planned first answered inductionHypothesis =>
      intro answer member
      rcases List.mem_cons.mp member with rfl | isLater
      · exact answers _ List.mem_cons_self
      · exact inductionHypothesis (fun other isThere => plans other (List.mem_cons_of_mem _ isThere))
          (fun other isThere => answers other (List.mem_cons_of_mem _ isThere)) answer isLater
  | case4 command planned inductionHypothesis =>
      intro answer member
      rcases List.mem_cons.mp member with rfl | isLater
      · rfl
      · exact inductionHypothesis (fun other isThere => plans other (List.mem_cons_of_mem _ isThere))
          answers answer isLater

theorem spends_appendTheBatch (members : List BatchMember) (tracked : Tracked)
    (uncommitted : Uncommitted tracked.trace) :
    Tracks env anytime
      (Spends fun answers : List (Except WriteError Posted) =>
        ∀ answer ∈ answers, namesTarget answer = false)
      (appendTheBatch members).run tracked := by
  unfold appendTheBatch
  refine spends_ask _ _ _ (by simp) uncommitted fun _ _ _ _ _ begun => ?_
  refine spends_ask _ _ _ (by simp) begun fun _ _ outcomes _ _ ran => ?_
  dsimp only
  split
  · exact spends_refused _ _ ran
  · cases noneReplay : (membersReplayingAnEarlierWrite members outcomes).isEmpty with
    | true =>
        rw [replayedResultsFor_of_isEmpty noneReplay, pure_bind]
        split
        · exact spends_refused _ _ ran
        · exact spends_answered _ _ (answersForMembers_namesTarget _ _) ran
    | false =>
        rw [replayedResultsFor_of_not_isEmpty noneReplay]
        refine spends_ask _ _ _ (by simp) ran fun _ _ replayed _ _ looked => ?_
        split
        · exact spends_refused _ _ looked
        · exact spends_answered _ _ (answersForMembers_namesTarget _ _) looked

/-- A batch that answers some member about a named transaction asked for no
commit. -/
theorem spends_postBatch (commands : List PostTransaction) (tracked : Tracked)
    (uncommitted : Uncommitted tracked.trace) :
    Tracks env anytime
      (fun (answers : List (Except WriteError Posted)) trace =>
        Uncommitted trace ∨ ∀ answer ∈ answers, namesTarget answer = false)
      (postBatch sha256 commands) tracked := by
  have plans : ∀ commands : List PostTransaction, ∀ refusal,
      .error refusal ∈ commands.map (planFor sha256) → refusal.namesTarget = false := by
    intro commands refusal member
    obtain ⟨command, _, refused⟩ := List.mem_map.mp member
    exact planFor_namesTarget sha256 refused
  have accepted : ∀ answer : Except WriteError Posted,
      (∃ value, answer = .ok value ∧ value.replayed = false) → namesTarget answer = false := by
    rintro _ ⟨value, rfl, _⟩
    rfl
  unfold postBatch
  split
  · exact Or.inl uncommitted
  · refine tracks_bind (spends_post sha256 _ tracked uncommitted) fun answer after spent => ?_
    refine spent.imp_right fun isFresh other member => ?_
    obtain rfl := List.mem_singleton.mp member
    exact accepted _ isFresh
  · unfold postTogether
    dsimp only
    split
    · exact Or.inl uncommitted
    · refine tracks_bind (spends_post sha256 _ tracked uncommitted) fun answer after spent => ?_
      refine spent.imp_right fun isFresh => answersInArrivalOrder_namesTarget (plans _) ?_
      intro other member
      obtain rfl := List.mem_singleton.mp member
      exact accepted _ isFresh
    · refine tracks_bind (spends_appendTheBatch _ tracked uncommitted)
        fun answer after spent => ?_
      rcases spent with still | ⟨answers, rfl, noneNames⟩
      · cases answer <;> exact Or.inl still
      · exact Or.inr (answersInArrivalOrder_namesTarget (plans _) noneNames)

/-- An operation whose answer is no fresh acceptance asked for no commit. -/
theorem spends_program (operation : Operation) (tracked : Tracked)
    (uncommitted : Uncommitted tracked.trace) :
    Tracks env anytime
      (fun outcome trace => outcome.mayCommit = false → Uncommitted trace)
      (operation.program sha256) tracked := by
  cases operation with
  | post command =>
      refine tracks_bind (spends_post sha256 command tracked uncommitted)
        fun answer after spent refused => ?_
      rcases spent with still | ⟨value, rfl, isFresh⟩
      · exact still
      · simp [Outcome.mayCommit, isFresh] at refused
  | postBatch commands =>
      refine tracks_bind (spends_postBatch sha256 commands tracked uncommitted)
        fun answers after spent refused => ?_
      rcases spent with still | noneNames
      · exact still
      · obtain ⟨answer, member, names⟩ := List.all_eq_false.mp refused
        rw [noneNames answer member] at names
        exact absurd rfl names
  | openAccount command =>
      refine tracks_bind (spends_openAccount sha256 command tracked uncommitted)
        fun answer after spent refused => ?_
      rcases spent with still | ⟨value, rfl, isFresh⟩
      · exact still
      · simp [Outcome.mayCommit, isFresh] at refused
  | definePeriod command =>
      refine tracks_bind (spends_definePeriod sha256 command tracked uncommitted)
        fun answer after spent refused => ?_
      rcases spent with still | ⟨value, rfl, isFresh⟩
      · exact still
      · simp [Outcome.mayCommit, isFresh] at refused
  | closePeriod command =>
      refine tracks_bind (spends_closePeriod sha256 command tracked uncommitted)
        fun answer after spent refused => ?_
      rcases spent with still | ⟨value, rfl, _⟩
      · exact still
      · cases refused

end UseCases

section Alone

variable {env : Env} {α : Type}

/-- Run alone, a bracket without a commit leaves the book as it was. -/
theorem Tracks.run {final : α → List Ran → Prop}
    {program : Program Request Request.Reply α} {tracked : Tracked}
    (tracks : Tracks env anytime final program tracked) :
    ∃ trace, final (program.run (handle env) tracked.toConnection).1 trace ∧
      (Uncommitted trace → Uncommitted tracked.trace ∧
        (program.run (handle env) tracked.toConnection).2.committed = tracked.committed) := by
  induction program generalizing tracked with
  | done answer =>
      exact ⟨tracked.trace, tracks, fun uncommitted => ⟨uncommitted, rfl⟩⟩
  | ask request next inductionHypothesis =>
      have goesOn := tracks.2 _ _ (Track.answered request (Grows.refl _ tracked.committed)
        (Grows.refl _ tracked.committed))
      obtain ⟨trace, ended, unchanged⟩ := inductionHypothesis _ goesOn
      refine ⟨trace, ended, fun uncommitted => ?_⟩
      obtain ⟨noCommit, same⟩ := unchanged uncommitted
      refine ⟨fun ran member => noCommit ran (List.mem_append_left _ member), same.trans ?_⟩
      have notCommit : request ≠ .commit :=
        noCommit _ (List.mem_append_right _ (List.mem_singleton_self _))
      rcases Connection.after_cases tracked.toConnection request
        (statement env tracked.working tracked.working request).2 with ⟨isCommit, _⟩ | ⟨_, same, _⟩
      · exact absurd isCommit notCommit
      · exact same

/-- Alone, an operation whose answer is no fresh acceptance leaves the book as
it was. -/
theorem perform_unchanged (sha256 : List UInt8 → List UInt8) (operation : Operation)
    (book : Book) (refused : (operation.perform sha256 env book).1.mayCommit = false) :
    (operation.perform sha256 env book).2 = book := by
  obtain ⟨trace, ended, unchanged⟩ :=
    (@spends_program env sha256 operation ⟨⟨book, .none⟩, []⟩ uncommitted_nil).run
  exact (unchanged (ended refused)).2

end Alone

end OpenLedger
