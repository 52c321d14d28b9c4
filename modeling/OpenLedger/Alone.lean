import OpenLedger.Concluding

/-!
# A use-case and what it would do alone

A bracket holds the keys and the balance rows it writes until it commits.  So a
post, an opening or a definition commits beside others what it commits alone over
the book it commits to, and gives the answer it gives there.
-/

namespace OpenLedger

open Postgres

/-- Whatever else commits, a program asks for its commit only where what it has written
is what it would write alone, over every book its bracket may still meet, and the answer
it goes on to give is the one it would give there. -/
def Serializes {α : Type} (env : Env) (alone : Book → α × Book) :
    Program Request Request.Reply α → Connection → Prop :=
  Concludes env fun answer written later => alone later = (answer, later.apply written)

/-- A pure end gives what it makes of the answer. -/
theorem serializes_map {α β : Type} {env : Env} (ending : α → β) {alone : Book → α × Book}
    {program : Program Request Request.Reply α} {connection : Connection}
    (serializes : Serializes env alone program connection) :
    Serializes env (fun book => (ending (alone book).1, (alone book).2))
      (program >>= fun answer => .done (ending answer)) connection :=
  concludes_map ending (fun answer written later isAlone => by dsimp only; rw [isAlone])
    serializes

section UseCases

variable {env : Env} (sha256 : List UInt8 → List UInt8)

/-- A post that found its target and its accounts does alone what it did. -/
theorem serializes_post (command : PostTransaction) {book : Book} (kept : Kept book) :
    Serializes env (runOn env (post sha256 command).run) (post sha256 command).run
      ⟨book, .none⟩ := by
  refine concludes_post sha256 command kept
    fun planned appended writes later isPlanned _ again _ noneMissing => ?_
  obtain ⟨sameCommand, _, _, _⟩ := planFor_ok isPlanned
  have isAlone : runOn env (post sha256 command).run later =
      ((postAlone env later planned).1, later.apply (postAlone env later planned).2) :=
    runOn_post env later isPlanned
  rw [isAlone, postAlone, sameCommand, again]
  dsimp only
  rw [noneMissing]

/-- An opening finds the chart it found, and its key and its account's free. -/
theorem serializes_openAccount (command : OpenAccount) {book : Book} (kept : Kept book) :
    Serializes env (runOn env (openAccount sha256 command).run) (openAccount sha256 command).run
      ⟨book, .none⟩ := by
  refine concludes_openAccount sha256 command kept
    fun triple eventId account writes later charted agreed again => ?_
  have isAlone : runOn env (openAccount sha256 command).run later =
      ((openAlone sha256 env later command).1,
        later.apply (openAlone sha256 env later command).2) :=
    runOn_openAccount sha256 env later command
  rw [isAlone, openAlone, charted]
  dsimp only
  rw [agreed]
  dsimp only
  rw [again]

/-- A definition finds its key, its code and its span free. -/
theorem serializes_definePeriod (command : DefinePeriod) {book : Book} (kept : Kept book) :
    Serializes env (runOn env (definePeriod sha256 command).run) (definePeriod sha256 command).run
      ⟨book, .none⟩ := by
  refine concludes_definePeriod sha256 command kept
    fun hash payload eventId period writes later hashed rendered again => ?_
  have isAlone : runOn env (definePeriod sha256 command).run later =
      ((defineAlone env later command hash payload).1,
        later.apply (defineAlone env later command hash payload).2) :=
    runOn_definePeriod sha256 env later hashed rendered
  rw [isAlone, defineAlone, again]

theorem serializes_postTogether {commands : List PostTransaction}
    (few : ¬ 2 ≤ (membersOf sha256 commands).length) {book : Book} (kept : Kept book) :
    Serializes env (runOn env (postTogether sha256 commands)) (postTogether sha256 commands)
      ⟨book, .none⟩ := by
  rcases members : membersOf sha256 commands with - | ⟨only, - | ⟨_, _⟩⟩
  · rw [postTogether_none sha256 members]
    exact concludes_done _ _
  · have isAlone : runOn env (postTogether sha256 commands) = fun book =>
        (answersInArrivalOrder (commands.map (planFor sha256))
          [(runOn env (post sha256 only.command).run book).1],
          (runOn env (post sha256 only.command).run book).2) :=
      funext fun book => runOn_postTogether_one members
    rw [isAlone, postTogether_one sha256 members]
    exact serializes_map
      (fun answer => answersInArrivalOrder (commands.map (planFor sha256)) [answer])
      (serializes_post sha256 only.command kept)
  · rw [members] at few
    exact absurd (by simp) few

theorem serializes_postBatch {commands : List PostTransaction}
    (few : ¬ 2 ≤ (membersOf sha256 commands).length) {book : Book} (kept : Kept book) :
    Serializes env (runOn env (postBatch sha256 commands)) (postBatch sha256 commands)
      ⟨book, .none⟩ := by
  rcases commands with - | ⟨only, - | ⟨second, rest⟩⟩
  · exact concludes_done _ _
  · have isAlone : runOn env (postBatch sha256 [only]) = fun book =>
        ([(runOn env (post sha256 only).run book).1], (runOn env (post sha256 only).run book).2) :=
      funext fun book => runOn_postBatch_single only
    rw [isAlone]
    exact serializes_map (fun answer => [answer]) (serializes_post sha256 only kept)
  · exact serializes_postTogether sha256 few kept

/-- Whether an operation answers from rows it does not hold: a close, and the one
statement of two commands or more. -/
def Operation.readsAtLarge : Operation → Bool
  | .postBatch commands => decide (2 ≤ (membersOf sha256 commands).length)
  | .closePeriod _ => true
  | _ => false

/-- Any other operation does alone what it did beside others. -/
theorem serializes_program (operation : Operation)
    (holds : operation.readsAtLarge sha256 = false) {book : Book} (kept : Kept book) :
    Serializes env (operation.perform sha256 env) (operation.program sha256) ⟨book, .none⟩ := by
  cases operation with
  | post command =>
      have isAlone : (Operation.post command).perform sha256 env = fun book =>
          (.posted (runOn env (post sha256 command).run book).1,
            (runOn env (post sha256 command).run book).2) :=
        funext fun book => runOn_bind env (post sha256 command).run
          (fun answer => .done (Outcome.posted answer)) (fun _ => ⟨_, rfl⟩) book
      rw [isAlone]
      exact serializes_map Outcome.posted (serializes_post sha256 command kept)
  | postBatch commands =>
      have isAlone : (Operation.postBatch commands).perform sha256 env = fun book =>
          (.postedBatch (runOn env (postBatch sha256 commands) book).1,
            (runOn env (postBatch sha256 commands) book).2) :=
        funext fun book => perform_postBatch commands
      rw [isAlone]
      exact serializes_map Outcome.postedBatch
        (serializes_postBatch sha256 (of_decide_eq_false holds) kept)
  | openAccount command =>
      have isAlone : (Operation.openAccount command).perform sha256 env = fun book =>
          (.opened (runOn env (openAccount sha256 command).run book).1,
            (runOn env (openAccount sha256 command).run book).2) :=
        funext fun book => runOn_bind env (openAccount sha256 command).run
          (fun answer => .done (Outcome.opened answer)) (fun _ => ⟨_, rfl⟩) book
      rw [isAlone]
      exact serializes_map Outcome.opened (serializes_openAccount sha256 command kept)
  | definePeriod command =>
      have isAlone : (Operation.definePeriod command).perform sha256 env = fun book =>
          (.defined (runOn env (definePeriod sha256 command).run book).1,
            (runOn env (definePeriod sha256 command).run book).2) :=
        funext fun book => runOn_bind env (definePeriod sha256 command).run
          (fun answer => .done (Outcome.defined answer)) (fun _ => ⟨_, rfl⟩) book
      rw [isAlone]
      exact serializes_map Outcome.defined (serializes_definePeriod sha256 command kept)
  | closePeriod command =>
      cases holds

end UseCases

end OpenLedger
