import OpenLedger.Interleaving

/-!
# What every interleaving keeps

Every step of the machine keeps the committed book kept, every session on its
way to a commit that lands, and the open brackets apart.  A run of operations
one after the other is one of the interleavings.
-/

namespace OpenLedger

open Postgres

/-- A session is on its way to a commit that lands, from its snapshot on. -/
structure Session.Sound (committed : Book) (session : Session) : Prop where
  commits : Commits session.env session.program
    ⟨session.snapshot.getD committed, session.written⟩
  grows : Grows session.written (session.snapshot.getD committed) committed

structure Machine.Sound (machine : Machine) : Prop where
  kept : Kept machine.committed
  sessions : ∀ (index : Nat) (session : Session), machine.sessions[index]? = some session →
    session.Sound machine.committed
  apart : ∀ (index other : Nat) (left right : Session), index ≠ other →
    machine.sessions[index]? = some left → machine.sessions[other]? = some right →
      left.written.Apart right.written

theorem Session.Sound.later {before after : Book} {session : Session}
    (sound : session.Sound before) (grows : Grows session.written before after) :
    session.Sound after := by
  cases looked : session.snapshot with
  | none =>
      have commits := sound.commits
      rw [looked] at commits
      refine ⟨?_, ?_⟩
      · rw [looked]
        exact commits.later grows
      · rw [looked]
        exact Grows.refl _ after
  | some snapshot =>
      have commits := sound.commits
      have seen := sound.grows
      rw [looked] at commits seen
      refine ⟨?_, ?_⟩
      · rw [looked]
        exact commits
      · rw [looked]
        exact seen.trans grows

/-- A session whose use-case goes on from a connection is sound there. -/
theorem Session.Sound.advance {committed : Book} {session : Session}
    {program : Program Request Request.Reply Outcome} {written : Writes} {trace : List Ran}
    (commits : Commits session.env program ⟨committed, written⟩) :
    (session.advance program written trace).Sound committed := by
  refine ⟨?_, Grows.refl _ committed⟩
  cases program with
  | done answer =>
      exact commits_done _
  | ask request next =>
      exact commits

/-- Only a commit changes what is committed, and it leaves nothing written. -/
theorem Connection.after_cases (connection : Connection) (request : Request)
    (writes : Writes) :
    (request = .commit ∧
        connection.after request writes = ⟨connection.working, .none⟩) ∨
      (request ≠ .commit ∧ (connection.after request writes).committed = connection.committed ∧
        ((connection.after request writes).written = .none ∨
          (connection.after request writes).written = connection.written.append writes)) := by
  cases request with
  | commit =>
      exact Or.inl ⟨rfl, rfl⟩
  | _ =>
      refine Or.inr ⟨by simp, rfl, ?_⟩
      first
        | exact Or.inl rfl
        | exact Or.inr rfl

namespace Machine

variable {sha256 : List UInt8 → List UInt8} {machine after : Machine}

/-- What a statement that ran needed and did. -/
theorem runStatement_eq_some {index : Nat} {session : Session}
    (ran : machine.runStatement index session = some after) :
    ∃ snapshot request next, session.snapshot = some snapshot ∧
      session.program = .ask request next ∧
      (session.assigned = true ∨
        (session.answered snapshot machine.committed request).2.isEmpty = true) ∧
      machine.Unblocked index (session.answered snapshot machine.committed request).2 ∧
      after = { machine.replace index
          (session.advance (next (session.answered snapshot machine.committed request).1)
            (session.reached snapshot machine.committed request).written
            (session.trace ++ [⟨request, snapshot, machine.committed⟩])) with
        committed := (session.reached snapshot machine.committed request).committed } := by
  unfold runStatement at ran
  split at ran
  · rename_i snapshot request next looked isNext
    dsimp only at ran
    split at ran
    · rename_i allowed
      exact ⟨snapshot, request, next, looked, isNext, allowed.1, allowed.2,
        (Option.some.inj ran).symm⟩
    · cases ran
  · cases ran

/-- Replacing one session, and perhaps the committed book, keeps a machine
sound. -/
theorem Sound.replace (sound : machine.Sound) {index : Nat} {session : Session}
    {committed : Book} (next : Xid) (kept : Kept committed)
    (soundHere : session.Sound committed)
    (grows : ∀ other session, other ≠ index → machine.sessions[other]? = some session →
      Grows session.written machine.committed committed)
    (apart : ∀ other right, other ≠ index → machine.sessions[other]? = some right →
      session.written.Apart right.written) :
    Sound { machine.replace index session with committed, next } := by
  refine ⟨kept, fun here found isFound => ?_, fun here other left right different isLeft
    isRight => ?_⟩
  · change (machine.sessions.set index session)[here]? = some found at isFound
    rw [List.getElem?_set] at isFound
    split at isFound
    · split at isFound
      · cases isFound
        exact soundHere
      · cases isFound
    · rename_i elsewhere
      exact (sound.sessions here found isFound).later
        (grows here found (Ne.symm elsewhere) isFound)
  · change (machine.sessions.set index session)[here]? = some left at isLeft
    change (machine.sessions.set index session)[other]? = some right at isRight
    rw [List.getElem?_set] at isLeft isRight
    split at isLeft
    · split at isLeft
      · cases isLeft
        rename_i isHere _
        subst isHere
        rw [if_neg different] at isRight
        exact apart other right (Ne.symm different) isRight
      · cases isLeft
    · split at isRight
      · split at isRight
        · cases isRight
          rename_i elsewhere isThere _
          subst isThere
          exact (apart here left (Ne.symm elsewhere) isLeft).symm
        · cases isRight
      · exact sound.apart here other left right different isLeft isRight

/-- A session that ends has nothing written, and one that goes on has what its
connection has. -/
theorem apart_advance (session : Session)
    (program : Program Request Request.Reply Outcome) {written : Writes} (trace : List Ran)
    {other : Writes} (apart : written.Apart other) :
    (session.advance program written trace).written.Apart other := by
  cases program with
  | done answer =>
      exact Writes.Apart.none other
  | ask request next =>
      exact apart

/-- What a statement of a sound machine ran on and did: a commit's writes land,
and any other request leaves the committed book alone. -/
theorem Sound.run_spec (sound : machine.Sound) {index : Nat} {session : Session}
    (here : machine.sessions[index]? = some session)
    (ran : machine.runStatement index session = some after) :
    ∃ snapshot request next, session.snapshot = some snapshot ∧
      session.program = .ask request next ∧
      Grows session.written snapshot machine.committed ∧
      machine.Unblocked index (session.answered snapshot machine.committed request).2 ∧
      after = { machine.replace index
          (session.advance (next (session.answered snapshot machine.committed request).1)
            (session.reached snapshot machine.committed request).written
            (session.trace ++ [⟨request, snapshot, machine.committed⟩])) with
        committed := (session.reached snapshot machine.committed request).committed } ∧
      (request = .commit ∧ Lands machine.committed session.written ∧
          session.reached snapshot machine.committed request =
            ⟨machine.committed.apply session.written, .none⟩ ∨
        request ≠ .commit ∧
          (session.reached snapshot machine.committed request).committed =
            machine.committed) := by
  obtain ⟨snapshot, request, next, looked, isNext, _, unblocked, isAfter⟩ :=
    runStatement_eq_some ran
  have mine := sound.sessions index session here
  have commits := mine.commits
  have grown := mine.grows
  rw [looked, Option.getD_some] at commits grown
  rw [isNext] at commits
  refine ⟨snapshot, request, next, looked, isNext, grown, unblocked, isAfter, ?_⟩
  rcases Connection.after_cases ⟨machine.committed, session.written⟩ request
    (session.answered snapshot machine.committed request).2 with
    ⟨isCommit, committing⟩ | ⟨notCommit, sameBook, _⟩
  · exact Or.inl ⟨isCommit, grown.lands (commits.1 isCommit), committing⟩
  · exact Or.inr ⟨notCommit, sameBook⟩

/-- To every other session a statement is growth. -/
theorem Sound.grows_of_run (sound : machine.Sound) {index : Nat} {session : Session}
    (here : machine.sessions[index]? = some session)
    (ran : machine.runStatement index session = some after) {other : Nat} {right : Session}
    (different : other ≠ index) (isRight : machine.sessions[other]? = some right) :
    Grows right.written machine.committed after.committed := by
  obtain ⟨snapshot, request, next, _, _, _, _, rfl, ⟨_, lands, committing⟩ | ⟨_, sameBook⟩⟩ :=
    sound.run_spec here ran
  · rw [committing]
    exact grows_of_commit sound.kept lands
      (sound.apart other index right session different isRight here)
  · rw [sameBook]
    exact Grows.refl _ _

/-- A statement keeps a machine sound: at a commit the bracket's writes land, and
every other open bracket is apart from them. -/
theorem Sound.run (sound : machine.Sound) {index : Nat} {session : Session}
    (here : machine.sessions[index]? = some session)
    (ran : machine.runStatement index session = some after) : after.Sound := by
  have grows : ∀ (other : Nat) (right : Session), other ≠ index →
      machine.sessions[other]? = some right →
        Grows right.written machine.committed after.committed :=
    fun _ _ different isRight => sound.grows_of_run here ran different isRight
  obtain ⟨snapshot, request, next, looked, isNext, grown, unblocked, rfl, outcome⟩ :=
    sound.run_spec here ran
  have commits := (sound.sessions index session here).commits
  rw [looked, Option.getD_some, isNext] at commits
  have goesOn : Commits session.env
      (next (session.answered snapshot machine.committed request).1)
      (session.reached snapshot machine.committed request) :=
    commits.2 _ _ (Step.answered request (Grows.refl _ snapshot) grown)
  have kept : Kept (session.reached snapshot machine.committed request).committed := by
    rcases outcome with ⟨_, lands, committing⟩ | ⟨_, sameBook⟩
    · rw [committing]
      exact sound.kept.apply lands
    · rw [sameBook]
      exact sound.kept
  refine sound.replace machine.next kept (Session.Sound.advance goesOn) grows
    fun other right different isRight => apart_advance session _ _ ?_
  have heldApart := sound.apart index other session right (Ne.symm different) here isRight
  have writesApart := unblocked (right, other) (List.mk_mem_zipIdx_iff_getElem?.mpr isRight)
    different
  rcases Connection.after_cases ⟨machine.committed, session.written⟩ request
    (session.answered snapshot machine.committed request).2 with
    ⟨_, committing⟩ | ⟨_, _, isNone | isAppended⟩
  · rw [Session.reached, committing]
    exact Writes.Apart.none _
  · rw [Session.reached, isNone]
    exact Writes.Apart.none _
  · rw [Session.reached, isAppended]
    exact heldApart.append writesApart

/-- A session started beside the others has written nothing. -/
theorem Sound.start (sound : machine.Sound) (operation : Operation) (env : Env) :
    Sound { machine with
      sessions := machine.sessions ++
        [⟨operation, env, operation.program sha256, .none, none, false, []⟩] } := by
  have split : ∀ (index : Nat) (session : Session),
      (machine.sessions ++ [⟨operation, env, operation.program sha256, .none, none, false, []⟩])[index]? =
          some session →
        machine.sessions[index]? = some session ∨
          index = machine.sessions.length ∧
            session = ⟨operation, env, operation.program sha256, .none, none, false, []⟩ := by
    intro index session found
    rw [List.getElem?_append] at found
    split at found
    · exact Or.inl found
    · rename_i beyond
      rw [List.getElem?_singleton] at found
      split at found
      · exact Or.inr ⟨by omega, (Option.some.inj found).symm⟩
      · cases found
  refine ⟨sound.kept, fun index session found => ?_, fun index other left right different
    isLeft isRight => ?_⟩
  · rcases split index session found with isOld | ⟨_, rfl⟩
    · exact sound.sessions index session isOld
    · exact ⟨commits_program sha256 operation sound.kept, Grows.refl _ _⟩
  · rcases split index left isLeft with oldLeft | ⟨atEnd, rfl⟩
    · rcases split other right isRight with oldRight | ⟨_, rfl⟩
      · exact sound.apart index other left right different oldLeft oldRight
      · exact (Writes.Apart.none _).symm
    · exact Writes.Apart.none _

/-- Every step keeps a machine sound. -/
theorem Sound.step (sound : machine.Sound) {action : Action}
    (stepped : machine.step sha256 action = some after) : after.Sound := by
  cases action with
  | start operation env =>
      cases stepped
      exact sound.start operation env
  | elsewhere =>
      cases stepped
      exact ⟨sound.kept, sound.sessions, sound.apart⟩
  | assign index =>
      obtain ⟨session, here, assigned⟩ := Option.bind_eq_some_iff.mp stepped
      dsimp only at assigned
      split at assigned
      · cases assigned
        have mine := sound.sessions index session here
        exact sound.replace _ sound.kept ⟨mine.commits, mine.grows⟩
          (fun _ _ _ _ => Grows.refl _ _)
          fun other right different isRight =>
            sound.apart index other session right (Ne.symm different) here isRight
      · cases assigned
  | look index =>
      obtain ⟨session, here, rfl⟩ := Option.map_eq_some_iff.mp stepped
      have mine := sound.sessions index session here
      have looked : Session.Sound machine.committed
          { session with snapshot := some machine.committed } :=
        ⟨mine.commits.later mine.grows, Grows.refl _ _⟩
      exact sound.replace machine.next sound.kept looked (fun _ _ _ _ => Grows.refl _ _)
        fun other right different isRight =>
          sound.apart index other session right (Ne.symm different) here isRight
  | run index =>
      obtain ⟨session, here, ran⟩ := Option.bind_eq_some_iff.mp stepped
      exact sound.run here ran
  | fail index failure =>
      obtain ⟨session, here, failed⟩ := Option.bind_eq_some_iff.mp stepped
      split at failed
      · cases failed
      · rename_i request next isNext
        cases failed
        have commits := (sound.sessions index session here).commits
        rw [isNext] at commits
        have goesOn : Commits session.env (next (.error failure))
            ⟨machine.committed, .none⟩ :=
          commits.2 _ _ (Step.failed request (sound.sessions index session here).grows failure)
        exact sound.replace machine.next sound.kept (Session.Sound.advance goesOn)
          (fun _ _ _ _ => Grows.refl _ _)
          fun _ right _ _ => apart_advance session _ _ (Writes.Apart.none right.written)

theorem Sound.initial (chart : Chart) : (Machine.initial chart).Sound where
  kept := Kept.empty chart
  sessions := fun index session found => by
    rw [Machine.initial, List.getElem?_nil] at found
    cases found
  apart := fun index _ left _ _ found => by
    rw [Machine.initial, List.getElem?_nil] at found
    cases found

end Machine

/-- Every interleaving keeps its machine sound, and so its committed book kept. -/
theorem sound_of_interleaved {sha256 : List UInt8 → List UInt8} {chart : Chart}
    {machine : Machine} (interleaved : Interleaved sha256 chart machine) : machine.Sound := by
  induction interleaved with
  | initial =>
      exact Machine.Sound.initial chart
  | step _ _ stepped inductionHypothesis =>
      exact inductionHypothesis.step stepped

section Alone

variable {sha256 : List UInt8 → List UInt8} {chart : Chart}

/-- Other transactions take ids until it is a writer's turn. -/
theorem Interleaved.elsewhere {machine : Machine}
    (interleaved : Interleaved sha256 chart machine) {next : Xid} (later : machine.next ≤ next) :
    Interleaved sha256 chart { machine with next } := by
  induction next, later using Nat.le_induction with
  | base =>
      exact interleaved
  | succ next _ inductionHypothesis =>
      exact inductionHypothesis.step .elsewhere rfl

/-- A session whose every rival has nothing written runs to its end as it would
alone. -/
theorem Interleaved.alone (session : Session) (assigned : session.assigned = true)
    {before : List Session} (idle : ∀ other ∈ before, other.written = .none)
    (program : Program Request Request.Reply Outcome) :
    ∀ {machine : Machine} {written : Writes} {trace : List Ran},
      Interleaved sha256 chart machine →
      machine.sessions = before ++ [session.advance program written trace] →
      ∃ after, Interleaved sha256 chart after ∧
        after.committed =
          (program.run (handle session.env) ⟨machine.committed, written⟩).2.committed ∧
        after.next = machine.next ∧ ∀ other ∈ after.sessions, other.written = .none := by
  induction program with
  | done answer =>
      intro machine written trace interleaved isLast
      refine ⟨machine, interleaved, rfl, rfl, fun other member => ?_⟩
      rw [isLast, List.mem_append, List.mem_singleton] at member
      rcases member with isBefore | rfl
      · exact idle other isBefore
      · rfl
  | ask request next inductionHypothesis =>
      intro machine written trace interleaved isLast
      have here : machine.sessions[before.length]? =
          some (session.advance (.ask request next) written trace) := by
        rw [isLast, List.getElem?_append_right le_rfl, Nat.sub_self]
        rfl
      have looked := interleaved.step (.look before.length)
        (by rw [Machine.step, here]; rfl)
      have replaced : ∀ other : Session,
          (machine.sessions.set before.length other) = before ++ [other] := by
        intro other
        rw [isLast, List.set_append_right _ _ le_rfl, Nat.sub_self]
        rfl
      have hereLooked : (machine.replace before.length
          { session.advance (.ask request next) written trace with
            snapshot := some machine.committed }).sessions[before.length]? =
          some { session.advance (.ask request next) written trace with
            snapshot := some machine.committed } := by
        rw [Machine.replace, replaced, List.getElem?_append_right le_rfl, Nat.sub_self]
        rfl
      have free : ∀ writes : Writes, (machine.replace before.length
          { session.advance (.ask request next) written trace with
            snapshot := some machine.committed }).Unblocked before.length writes := by
        intro writes other member elsewhere
        have inside := List.mk_mem_zipIdx_iff_getElem?.mp
          (show (other.1, other.2) ∈ _ from member)
        rw [Machine.replace, replaced, List.getElem?_append] at inside
        split at inside
        · rw [idle other.1 (List.mem_of_getElem? inside)]
          exact (Writes.Apart.none writes).symm
        · rw [List.getElem?_singleton] at inside
          split at inside
          · exact absurd (by omega) elsewhere
          · cases inside
      have ran := looked.step (.run before.length)
        (by
          rw [Machine.step, hereLooked]
          exact if_pos ⟨Or.inl assigned, free _⟩)
      obtain ⟨after, interleavedAfter, committed, sameNext, noneWritten⟩ :=
        inductionHypothesis _ ran
          (by
            change ((machine.sessions.set before.length _).set before.length _) = _
            rw [replaced, List.set_append_right _ _ le_rfl, Nat.sub_self]
            rfl)
      exact ⟨after, interleavedAfter, committed, sameNext, noneWritten⟩

/-- A run of operations one after the other is an interleaving. -/
theorem interleaved_of_reachable {book : Book} {next : Xid}
    (reachable : Reachable sha256 chart book next) :
    ∃ machine, Interleaved sha256 chart machine ∧ machine.committed = book ∧
      machine.next = next ∧ ∀ session ∈ machine.sessions, session.written = .none := by
  induction reachable with
  | empty =>
      exact ⟨_, .initial, rfl, rfl, fun _ member => absurd member List.not_mem_nil⟩
  | perform _ operation env assigned inductionHypothesis =>
      obtain ⟨machine, interleaved, rfl, rfl, idle⟩ := inductionHypothesis
      have started := (interleaved.elsewhere assigned).step (.start operation env) rfl
      have here : (machine.sessions ++
          [⟨operation, env, operation.program sha256, .none, none, false, []⟩])[machine.sessions.length]? =
            some ⟨operation, env, operation.program sha256, .none, none, false, []⟩ := by
        rw [List.getElem?_append_right le_rfl, Nat.sub_self]
        rfl
      have given := started.step (.assign machine.sessions.length)
        (by
          rw [Machine.step, here]
          exact if_pos ⟨rfl, rfl⟩)
      have fresh : Session.mk operation env (operation.program sha256) .none none true [] =
          (Session.mk operation env (operation.program sha256) .none none true []).advance
            (operation.program sha256) .none [] := by
        cases isProgram : operation.program sha256 <;> rfl
      have isLast : (machine.sessions ++
          [Session.mk operation env (operation.program sha256) .none none false []]).set
            machine.sessions.length
            (Session.mk operation env (operation.program sha256) .none none true []) =
          machine.sessions ++
            [(Session.mk operation env (operation.program sha256) .none none true []).advance
              (operation.program sha256) .none []] := by
        rw [← fresh, List.set_append_right _ _ le_rfl, Nat.sub_self]
        rfl
      obtain ⟨after, interleavedAfter, committed, sameNext, noneWritten⟩ :=
        Interleaved.alone (Session.mk operation env (operation.program sha256) .none none true []) rfl idle
          (operation.program sha256) given isLast
      exact ⟨after, interleavedAfter, committed, sameNext, noneWritten⟩

end Alone

end OpenLedger
