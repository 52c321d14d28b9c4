import OpenLedger.Interleaved

/-!
# Following one session

A property of one use-case that speaks of the statements behind it, of the books
they saw and of what its bracket wrote, is proved along the use-case alone,
against whatever else commits.  Here it is carried to the sessions of any
machine.
-/

namespace OpenLedger

open Postgres

/-- A bracket beside the statements behind it. -/
structure Tracked extends Connection where
  trace : List Ran

/-- One request of a tracked bracket, answered while others commit, or failed. -/
inductive Track (env : Env) (tracked : Tracked) :
    (request : Request) → request.Reply → Tracked → Prop where
  | answered (request : Request) {snapshot committed : Book}
      (seen : Grows tracked.written tracked.committed snapshot)
      (grown : Grows tracked.written snapshot committed) :
      Track env tracked request
        (statement env (snapshot.apply tracked.written)
          (committed.apply tracked.written) request).1
        ⟨Connection.after ⟨committed, tracked.written⟩ request
            (statement env (snapshot.apply tracked.written)
              (committed.apply tracked.written) request).2,
          tracked.trace ++ [⟨request, snapshot, committed⟩]⟩
  | failed (request : Request) {committed : Book}
      (grown : Grows tracked.written tracked.committed committed) (failure : StorageError) :
      Track env tracked request (.error failure) ⟨⟨committed, .none⟩, tracked.trace⟩

/-- Whatever else commits, the program commits only from a bracket `atCommit`
holds of, and ends with an answer and a trace `final` holds of. -/
def Tracks {α : Type} (env : Env) (atCommit : Tracked → Prop) (final : α → List Ran → Prop)
    (program : Program Request Request.Reply α) (tracked : Tracked) : Prop :=
  program.Upholds (fun tracked request => request = .commit → atCommit tracked)
    (fun tracked request => Track env tracked request)
    (fun answer tracked => final answer tracked.trace) tracked

section Rules

variable {env : Env} {atCommit : Tracked → Prop} {ε α : Type}
  {final : Except ε α → List Ran → Prop} {tracked : Tracked}

/-- One request of a use-case: a failure stops it, and an answer goes on from
what the statement wrote. -/
theorem tracks_ask (storage : StorageError → ε) (request : Request)
    (next : request.Answer → UseCase ε α) (committing : request = .commit → atCommit tracked)
    (failed : ∀ failure trace, trace = tracked.trace ∨
        (request ≠ .commit ∧ ∃ snapshot committed,
          trace = tracked.trace ++ [⟨request, snapshot, committed⟩]) →
      final (.error (storage failure)) trace)
    (continues : ∀ (snapshot committed : Book) (answer : request.Answer),
      Grows tracked.written tracked.committed snapshot →
      Grows tracked.written snapshot committed →
      (statement env (snapshot.apply tracked.written)
        (committed.apply tracked.written) request).1 = .ok answer →
      Tracks env atCommit final (next answer).run
        ⟨Connection.after ⟨committed, tracked.written⟩ request
            (statement env (snapshot.apply tracked.written)
              (committed.apply tracked.written) request).2,
          tracked.trace ++ [⟨request, snapshot, committed⟩]⟩) :
    Tracks env atCommit final (ask storage request >>= next).run tracked := by
  rw [run_ask_bind]
  refine ⟨committing, fun reply after track => ?_⟩
  cases track with
  | failed _ failure =>
      exact failed failure _ (Or.inl rfl)
  | @answered snapshot committed seen grown =>
      cases answered : (statement env (snapshot.apply tracked.written)
          (committed.apply tracked.written) request).1 with
      | error failure =>
          refine failed failure _ (Or.inr ⟨fun isCommit => ?_, snapshot, committed, rfl⟩)
          subst isCommit
          cases answered
      | ok answer =>
          exact continues snapshot committed answer seen grown answered

theorem tracks_bind {β : Type} {middle : β → List Ran → Prop} {last : α → List Ran → Prop}
    {program : Program Request Request.Reply β} {next : β → Program Request Request.Reply α}
    (first : Tracks env atCommit middle program tracked)
    (second : ∀ answer after, middle answer after.trace →
      Tracks env atCommit last (next answer) after) :
    Tracks env atCommit last (program >>= next) tracked :=
  Program.upholds_bind first second

end Rules

/-- What a session is tracked by, and what became of its commit: it ran from a
bracket `atCommit` holds of, and others have landed behind it since. -/
structure Session.Tracks (committed : Book) (atCommit : Env → Tracked → Prop)
    (final : Outcome → List Ran → Prop) (session : Session) : Prop where
  tracks : OpenLedger.Tracks session.env (atCommit session.env) final session.program
    ⟨⟨session.snapshot.getD committed, session.written⟩, session.trace⟩
  history : ∀ before ran after, session.trace = before ++ ran :: after →
    ran.request = .commit → ∃ written,
      atCommit session.env ⟨⟨ran.current, written⟩, before⟩ ∧ Kept ran.current ∧
        Lands ran.current written ∧ Landed (fun _ => True) (ran.current.apply written) committed

section Machines

variable {sha256 : List UInt8 → List UInt8} {machine after : Machine}
  {atCommit : Env → Tracked → Prop} {final : Outcome → List Ran → Prop}

/-- `atCommit` does not mind what others commit. -/
def Steady (atCommit : Env → Tracked → Prop) : Prop :=
  ∀ env written trace before after, Grows written before after →
    atCommit env ⟨⟨before, written⟩, trace⟩ → atCommit env ⟨⟨after, written⟩, trace⟩

theorem Tracks.later {α : Type} {env : Env} {last : α → List Ran → Prop}
    {program : Program Request Request.Reply α} {written : Writes} {before later : Book}
    {trace : List Ran} (steady : Steady atCommit)
    (tracks : Tracks env (atCommit env) last program ⟨⟨before, written⟩, trace⟩)
    (grows : Grows written before later) :
    Tracks env (atCommit env) last program ⟨⟨later, written⟩, trace⟩ := by
  have needed : ∀ request : Request, (request = .commit → atCommit env ⟨⟨before, written⟩, trace⟩) →
      request = .commit → atCommit env ⟨⟨later, written⟩, trace⟩ :=
    fun request holds isCommit => steady _ _ _ _ _ grows (holds isCommit)
  have possible : ∀ (request : Request) reply next,
      Track env ⟨⟨later, written⟩, trace⟩ request reply next →
      Track env ⟨⟨before, written⟩, trace⟩ request reply next := by
    intro request reply next track
    cases track with
    | answered seen grown =>
        exact @Track.answered env ⟨⟨before, written⟩, trace⟩ request _ _ (grows.trans seen) grown
    | failed grown failure =>
        exact @Track.failed env ⟨⟨before, written⟩, trace⟩ request _ (grows.trans grown) failure
  exact Program.upholds_transfer needed possible (fun _ holds => holds) tracks

theorem Session.Tracks.later {before after : Book} {session : Session}
    (steady : Steady atCommit) (tracked : session.Tracks before atCommit final)
    (grows : Grows session.written before after) (landed : Landed (fun _ => True) before after) :
    session.Tracks after atCommit final := by
  refine ⟨?_, fun earlier ran rest isTrace isCommit => ?_⟩
  · have tracks := tracked.tracks
    cases looked : session.snapshot with
    | none =>
        rw [looked] at tracks
        exact tracks.later steady grows
    | some snapshot =>
        rw [looked] at tracks
        exact tracks
  · obtain ⟨written, holds, kept, lands, since⟩ :=
      tracked.history earlier ran rest isTrace isCommit
    exact ⟨written, holds, kept, lands, since.trans landed⟩

/-- A session that goes on is tracked from where its statement left it. -/
theorem Session.Tracks.advance {committed : Book} {session : Session}
    {program : Program Request Request.Reply Outcome} {written : Writes} {trace : List Ran}
    (tracks : OpenLedger.Tracks session.env (atCommit session.env) final program
      ⟨⟨committed, written⟩, trace⟩)
    (history : ∀ before ran after, trace = before ++ ran :: after →
      ran.request = .commit → ∃ written,
        atCommit session.env ⟨⟨ran.current, written⟩, before⟩ ∧ Kept ran.current ∧
          Lands ran.current written ∧
          Landed (fun _ => True) (ran.current.apply written) committed) :
    (session.advance program written trace).Tracks committed atCommit final := by
  refine ⟨?_, history⟩
  cases program with
  | done answer =>
      exact tracks
  | ask request next =>
      exact tracks

/-- A statement lands its session's bracket, or commits nothing. -/
theorem Machine.Sound.landed_of_run (sound : machine.Sound) {index : Nat} {session : Session}
    (here : machine.sessions[index]? = some session)
    (ran : machine.runStatement index session = some after) :
    Landed (fun _ => True) machine.committed after.committed := by
  obtain ⟨snapshot, request, next, _, _, _, _, rfl, ⟨_, lands, committing⟩ | ⟨_, sameBook⟩⟩ :=
    sound.run_spec here ran
  · rw [committing]
    exact Landed.refl.bracket sound.kept lands trivial
  · rw [sameBook]
    exact .refl

/-- Only a bracket that lands changes what is committed. -/
theorem Machine.Sound.landed_of_step {sha256 : List UInt8 → List UInt8} (sound : machine.Sound)
    {action : Action} (stepped : machine.step sha256 action = some after) :
    Landed (fun _ => True) machine.committed after.committed := by
  cases action with
  | run index =>
      obtain ⟨session, here, ran⟩ := Option.bind_eq_some_iff.mp stepped
      exact sound.landed_of_run here ran
  | start operation env =>
      cases stepped
      exact .refl
  | elsewhere =>
      cases stepped
      exact .refl
  | assign index =>
      obtain ⟨session, here, assigned⟩ := Option.bind_eq_some_iff.mp stepped
      dsimp only at assigned
      split at assigned
      · cases assigned
        exact .refl
      · cases assigned
  | look index =>
      obtain ⟨session, here, rfl⟩ := Option.map_eq_some_iff.mp stepped
      exact .refl
  | fail index failure =>
      obtain ⟨session, here, failed⟩ := Option.bind_eq_some_iff.mp stepped
      split at failed
      · cases failed
      · cases failed
        exact .refl

/-- An interleaving's chart is the one it was started with. -/
theorem chart_of_interleaved {sha256 : List UInt8 → List UInt8} {chart : Chart}
    (interleaved : Interleaved sha256 chart machine) : machine.committed.chart = chart := by
  induction interleaved with
  | initial =>
      rfl
  | step interleaved action stepped inductionHypothesis =>
      have landed := (sound_of_interleaved interleaved).landed_of_step stepped
      rw [← landed.precedes.chart, inductionHypothesis]

/-- A statement keeps its own session tracked. -/
theorem Machine.Sound.tracks_run (steady : Steady atCommit) (sound : machine.Sound)
    {index : Nat} {session : Session}
    (here : machine.sessions[index]? = some session)
    (tracked : session.Tracks machine.committed atCommit final)
    (ran : machine.runStatement index session = some after) :
    ∃ advanced, after.sessions = machine.sessions.set index advanced ∧
      advanced.operation = session.operation ∧ advanced.Tracks after.committed atCommit final := by
  obtain ⟨snapshot, request, next, looked, isNext, grown, _, rfl, outcome⟩ :=
    sound.run_spec here ran
  have tracks := tracked.tracks
  rw [looked, Option.getD_some, isNext] at tracks
  have goesOn : Tracks session.env (atCommit session.env) final
      (next (session.answered snapshot machine.committed request).1)
      ⟨session.reached snapshot machine.committed request,
        session.trace ++ [⟨request, snapshot, machine.committed⟩]⟩ :=
    tracks.2 _ _ (Track.answered request (Grows.refl _ snapshot) grown)
  refine ⟨_, rfl, rfl, Session.Tracks.advance goesOn fun before step after isTrace isCommit => ?_⟩
  have landed := sound.landed_of_run here ran
  rcases List.append_eq_append_iff.mp isTrace with
    ⟨tail, isBefore, isLast⟩ | ⟨tail, isEarlier, isRest⟩
  · -- the statement that has just run
    cases tail with
    | nil =>
        rw [List.nil_append, List.cons.injEq] at isLast
        obtain ⟨rfl, _⟩ := isLast
        rw [List.append_nil] at isBefore
        subst isBefore
        rcases outcome with ⟨_, lands, committing⟩ | ⟨notCommit, _⟩
        · refine ⟨session.written, steady _ _ _ _ _ grown (tracks.1 isCommit), sound.kept,
            lands, ?_⟩
          rw [committing]
          exact .refl
        · exact absurd isCommit notCommit
    | cons head rest =>
        have sizes := congrArg List.length isLast
        simp at sizes
  · cases tail with
    | nil =>
        rw [List.nil_append, List.cons.injEq] at isRest
        obtain ⟨rfl, _⟩ := isRest
        rw [List.append_nil] at isEarlier
        subst isEarlier
        rcases outcome with ⟨_, lands, committing⟩ | ⟨notCommit, _⟩
        · refine ⟨session.written, steady _ _ _ _ _ grown (tracks.1 isCommit), sound.kept,
            lands, ?_⟩
          rw [committing]
          exact .refl
        · exact absurd isCommit notCommit
    | cons head rest =>
        rw [List.cons_append, List.cons.injEq] at isRest
        obtain ⟨rfl, _⟩ := isRest
        obtain ⟨written, holds, kept, lands, since⟩ :=
          tracked.history before step rest isEarlier isCommit
        exact ⟨written, holds, kept, lands, since.trans landed⟩

/-- Every session of a machine is tracked, on an operation. -/
def Machine.Tracks (machine : Machine) (operation : Operation)
    (atCommit : Env → Tracked → Prop) (final : Outcome → List Ran → Prop) : Prop :=
  ∀ (index : Nat) (session : Session), machine.sessions[index]? = some session →
    session.operation = operation → session.Tracks machine.committed atCommit final

/-- Replacing one session, and perhaps the committed book, keeps a machine
tracked. -/
theorem Machine.Tracks.replace {operation : Operation} (steady : Steady atCommit)
    (tracked : machine.Tracks operation atCommit final) {index : Nat} {session : Session}
    {committed : Book} (next : Xid)
    (here : session.operation = operation → session.Tracks committed atCommit final)
    (grows : ∀ other session, other ≠ index → machine.sessions[other]? = some session →
      Grows session.written machine.committed committed)
    (landed : Landed (fun _ => True) machine.committed committed) :
    Machine.Tracks { machine.replace index session with committed, next } operation atCommit
      final := by
  intro other found isFound sameOperation
  change (machine.sessions.set index session)[other]? = some found at isFound
  rw [List.getElem?_set] at isFound
  split at isFound
  · split at isFound
    · cases isFound
      exact here sameOperation
    · cases isFound
  · rename_i elsewhere
    exact (tracked other found isFound sameOperation).later steady
      (grows other found (Ne.symm elsewhere) isFound) landed

/-- Every step keeps a machine tracked. -/
theorem Machine.Tracks.step {operation : Operation} (steady : Steady atCommit)
    (fresh : ∀ (env : Env) (book : Book), Kept book →
      OpenLedger.Tracks env (atCommit env) final (operation.program sha256)
        ⟨⟨book, .none⟩, []⟩)
    (sound : machine.Sound) (tracked : machine.Tracks operation atCommit final)
    {action : Action} (stepped : machine.step sha256 action = some after) :
    after.Tracks operation atCommit final := by
  cases action with
  | start started env =>
      cases stepped
      intro index session found sameOperation
      rw [List.getElem?_append] at found
      split at found
      · exact tracked index session found sameOperation
      · rw [List.getElem?_singleton] at found
        split at found
        · cases found
          subst sameOperation
          exact ⟨fresh env machine.committed sound.kept, fun before ran after isTrace => by
            simp at isTrace⟩
        · cases found
  | elsewhere =>
      cases stepped
      exact tracked
  | assign index =>
      obtain ⟨session, here, assigned⟩ := Option.bind_eq_some_iff.mp stepped
      dsimp only at assigned
      split at assigned
      · cases assigned
        refine tracked.replace steady _ (fun sameOperation => ?_)
          (fun _ _ _ _ => Grows.refl _ _) .refl
        have mine := tracked index session here sameOperation
        exact ⟨mine.tracks, mine.history⟩
      · cases assigned
  | look index =>
      obtain ⟨session, here, rfl⟩ := Option.map_eq_some_iff.mp stepped
      refine tracked.replace steady machine.next (fun sameOperation => ?_)
        (fun _ _ _ _ => Grows.refl _ _) .refl
      have mine := tracked index session here sameOperation
      have grows := (sound.sessions index session here).grows
      exact ⟨mine.tracks.later steady grows, mine.history⟩
  | run index =>
      obtain ⟨session, here, ran⟩ := Option.bind_eq_some_iff.mp stepped
      intro other found isFound sameOperation
      by_cases isHere : other = index
      · subst isHere
        obtain ⟨_, _, _, _, _, _, _, isAfter⟩ := runStatement_eq_some ran
        have inside : other < machine.sessions.length :=
          (List.getElem?_eq_some_iff.mp here).1
        have same : found.operation = session.operation := by
          rw [isAfter] at isFound
          change (machine.sessions.set other _)[other]? = some found at isFound
          rw [List.getElem?_set_self inside] at isFound
          cases isFound
          rfl
        obtain ⟨advanced, isAdvanced, _, advancedTracks⟩ := sound.tracks_run steady here
          (tracked other session here (same ▸ sameOperation)) ran
        rw [isAdvanced, List.getElem?_set_self inside] at isFound
        cases isFound
        exact advancedTracks
      · obtain ⟨_, _, _, _, _, _, _, isAfter⟩ := runStatement_eq_some ran
        have wasThere : machine.sessions[other]? = some found := by
          rw [isAfter] at isFound
          change (machine.sessions.set index _)[other]? = some found at isFound
          rwa [List.getElem?_set_ne (Ne.symm isHere)] at isFound
        exact (tracked other found wasThere sameOperation).later steady
          (sound.grows_of_run here ran isHere wasThere) (sound.landed_of_run here ran)
  | fail index failure =>
      obtain ⟨session, here, failed⟩ := Option.bind_eq_some_iff.mp stepped
      split at failed
      · cases failed
      · rename_i request next isNext
        cases failed
        refine tracked.replace steady machine.next (fun sameOperation => ?_)
          (fun _ _ _ _ => Grows.refl _ _) .refl
        have mine := tracked index session here sameOperation
        have tracks := mine.tracks
        rw [isNext] at tracks
        have grows := (sound.sessions index session here).grows
        exact Session.Tracks.advance (tracks.2 _ _ (Track.failed request grows failure))
          mine.history

/-- Every interleaving tracks the sessions of an operation. -/
theorem tracks_of_interleaved {chart : Chart} {operation : Operation}
    (steady : Steady atCommit)
    (fresh : ∀ (env : Env) (book : Book), Kept book →
      OpenLedger.Tracks env (atCommit env) final (operation.program sha256)
        ⟨⟨book, .none⟩, []⟩)
    (interleaved : Interleaved sha256 chart machine) {session : Session}
    (member : session ∈ machine.sessions) (sameOperation : session.operation = operation) :
    session.Tracks machine.committed atCommit final := by
  have tracked : machine.Tracks operation atCommit final := by
    clear member
    induction interleaved with
    | initial =>
        intro index session found
        rw [Machine.initial, List.getElem?_nil] at found
        cases found
    | step interleaved _ stepped inductionHypothesis =>
        exact inductionHypothesis.step steady fresh (sound_of_interleaved interleaved) stepped
  obtain ⟨index, found⟩ := List.getElem?_of_mem member
  exact tracked index session found sameOperation

end Machines

end OpenLedger
