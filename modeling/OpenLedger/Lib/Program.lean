import Mathlib.Logic.Basic

/-!
# Programs that ask requests

A `Program` either is done with an answer or asks a request and continues with
whatever reply comes back.  What a request does is left open: `run` interprets
the requests one after another in a state, and `Upholds` quantifies over every
reply an environment may give, with a condition that must hold whenever a
request is asked.  The second reading is the one that survives interleaving.
-/

universe u

/-- A computation over requests, each with its own type of replies. -/
inductive Program (Request : Type) (Reply : Request → Type) (α : Type) : Type where
  | done (answer : α)
  | ask (request : Request) (next : Reply request → Program Request Reply α)

namespace Program

variable {Request : Type} {Reply : Request → Type} {α β State : Type}

/-- Continue a program with its answer. -/
def bind (program : Program Request Reply α)
    (next : α → Program Request Reply β) : Program Request Reply β :=
  match program with
  | done answer => next answer
  | ask request after => ask request fun reply => (after reply).bind next

instance : Monad (Program Request Reply) where
  pure := done
  bind := bind

@[simp]
theorem pure_eq (answer : α) :
    (pure answer : Program Request Reply α) = done answer := rfl

@[simp]
theorem done_bind (answer : α) (next : α → Program Request Reply β) :
    (done answer >>= next) = next answer := rfl

@[simp]
theorem ask_bind
    (request : Request) (after : Reply request → Program Request Reply α)
    (next : α → Program Request Reply β) :
    (ask request after >>= next) =
      ask request fun reply => after reply >>= next := rfl

instance : LawfulMonad (Program Request Reply) := by
  refine LawfulMonad.mk' _ (fun program => ?_) (fun _ _ => rfl) (fun program next last => ?_)
  · induction program with
    | done answer =>
        rfl
    | ask request after inductionHypothesis =>
        exact congrArg (ask request) (funext inductionHypothesis)
  · induction program with
    | done answer =>
        rfl
    | ask request after inductionHypothesis =>
        exact congrArg (ask request) (funext inductionHypothesis)

/-- Interpret every request as a step of one state. -/
def run (handle : (request : Request) → State → Reply request × State) :
    Program Request Reply α → State → α × State
  | done answer, state => (answer, state)
  | ask request next, state =>
      let (reply, after) := handle request state
      (next reply).run handle after

@[simp]
theorem run_done
    (handle : (request : Request) → State → Reply request × State)
    (answer : α) (state : State) :
    (done answer : Program Request Reply α).run handle state = (answer, state) := rfl

@[simp]
theorem run_ask
    (handle : (request : Request) → State → Reply request × State)
    (request : Request) (next : Reply request → Program Request Reply α)
    (state : State) :
    (ask request next).run handle state =
      (next (handle request state).1).run handle (handle request state).2 := rfl

theorem run_bind
    (handle : (request : Request) → State → Reply request × State)
    (program : Program Request Reply α) (next : α → Program Request Reply β)
    (state : State) :
    (program >>= next).run handle state =
      (next (program.run handle state).1).run handle (program.run handle state).2 := by
  induction program generalizing state with
  | done answer =>
      rfl
  | ask request after inductionHypothesis =>
      simp only [ask_bind, run_ask, inductionHypothesis]

/-- A request beside the reply it met. -/
abbrev Exchange (Request : Type) (Reply : Request → Type) : Type :=
  (request : Request) × Reply request

/-- What a program and a port that may reply anything say to each other: the
exchanges in their order, and the answer the program ends with. -/
inductive Converses :
    Program Request Reply α → List (Exchange Request Reply) → α → Prop where
  | done (answer : α) : Converses (done answer) [] answer
  | ask {request : Request} {next : Reply request → Program Request Reply α}
      {reply : Reply request} {exchanges : List (Exchange Request Reply)} {answer : α}
      (continued : Converses (next reply) exchanges answer) :
      Converses (ask request next) (⟨request, reply⟩ :: exchanges) answer

/-- Every run is one such conversation, whatever state the port keeps. -/
theorem converses_run
    (handle : (request : Request) → State → Reply request × State)
    (program : Program Request Reply α) (state : State) :
    ∃ exchanges, program.Converses exchanges (program.run handle state).1 := by
  induction program generalizing state with
  | done answer =>
      exact ⟨[], .done answer⟩
  | ask request next inductionHypothesis =>
      obtain ⟨exchanges, continued⟩ :=
        inductionHypothesis (handle request state).1 (handle request state).2
      exact ⟨_, .ask continued⟩

/-- A conversation with a port whose state moves on by itself: each reply is one
the port may give in a state reached from the one before. -/
inductive HeldOver (reaches : State → State → Prop)
    (may : State → (request : Request) → Reply request → Prop) :
    State → Program Request Reply α → State → α → Prop where
  | done (state : State) (answer : α) : HeldOver reaches may state (done answer) state answer
  | ask {state here after : State} {request : Request} {reply : Reply request}
      {next : Reply request → Program Request Reply α} {answer : α}
      (moved : reaches state here) (replied : may here request reply)
      (continued : HeldOver reaches may here (next reply) after answer) :
      HeldOver reaches may state (ask request next) after answer

/-- Whatever replies the environment may give, `need` holds of every request
the program asks and `final` of the answer it ends with. -/
def Upholds
    (need : State → Request → Prop)
    (may : State → (request : Request) → Reply request → State → Prop)
    (final : α → State → Prop) :
    Program Request Reply α → State → Prop
  | done answer, state => final answer state
  | ask request next, state =>
      need state request ∧
        ∀ reply after, may state request reply after →
          (next reply).Upholds need may final after

section Rules

variable {need : State → Request → Prop}
  {may : State → (request : Request) → Reply request → State → Prop}
  {final : α → State → Prop}

@[simp]
theorem upholds_done (answer : α) (state : State) :
    (done answer : Program Request Reply α).Upholds need may final state ↔
      final answer state := Iff.rfl

@[simp]
theorem upholds_ask
    (request : Request) (next : Reply request → Program Request Reply α)
    (state : State) :
    (ask request next).Upholds need may final state ↔
      need state request ∧
        ∀ reply after, may state request reply after →
          (next reply).Upholds need may final after := Iff.rfl

/-- A program upholds a state whenever it upholds one that needs no less and
lets no more happen. -/
theorem upholds_transfer
    {before after : State}
    (needed : ∀ request, need before request → need after request)
    (possible : ∀ request reply next,
      may after request reply next → may before request reply next)
    (ended : ∀ answer, final answer before → final answer after)
    {program : Program Request Reply α}
    (upheld : program.Upholds need may final before) :
    program.Upholds need may final after := by
  cases program with
  | done answer =>
      exact ended answer upheld
  | ask request next =>
      exact ⟨needed request upheld.1, fun reply state may =>
        upheld.2 reply state (possible request reply state may)⟩

/-- Sequencing: the first program's answer hands its state to the second. -/
theorem upholds_bind
    {middle : β → State → Prop}
    {program : Program Request Reply β} {next : β → Program Request Reply α}
    {state : State}
    (first : program.Upholds need may middle state)
    (second : ∀ answer after, middle answer after →
      (next answer).Upholds need may final after) :
    (program >>= next).Upholds need may final state := by
  induction program generalizing state with
  | done answer =>
      exact second answer state first
  | ask request rest inductionHypothesis =>
      exact ⟨first.1, fun reply after may =>
        inductionHypothesis reply (first.2 reply after may)⟩

theorem upholds_mono
    {final' : α → State → Prop}
    (weaker : ∀ answer state, final answer state → final' answer state)
    {program : Program Request Reply α} {state : State}
    (upheld : program.Upholds need may final state) :
    program.Upholds need may final' state := by
  induction program generalizing state with
  | done answer =>
      exact weaker answer state upheld
  | ask request next inductionHypothesis =>
      exact ⟨upheld.1, fun reply after may =>
        inductionHypothesis reply (upheld.2 reply after may)⟩

/-- What a program upholds over every move of its port holds of how a
conversation ends. -/
theorem HeldOver.upheld {reaches : State → State → Prop}
    {replies : State → (request : Request) → Reply request → Prop}
    {program : Program Request Reply α} {state after : State} {answer : α}
    (held : HeldOver reaches replies state program after answer)
    (upholds : program.Upholds need
      (fun before request reply after => reaches before after ∧ replies after request reply)
      final state) : final answer after := by
  induction held with
  | done state answer =>
      exact upholds
  | ask moved replied continued inductionHypothesis =>
      exact inductionHypothesis (upholds.2 _ _ ⟨moved, replied⟩)

/-- Over a port that only moves forward, a conversation also ends no earlier than
it began. -/
theorem upholds_forward {reaches : State → State → Prop}
    {replies : State → (request : Request) → Reply request → Prop}
    (refl : ∀ state, reaches state state)
    (trans : ∀ {first second third}, reaches first second → reaches second third →
      reaches first third)
    {program : Program Request Reply α} {state : State}
    (upholds : program.Upholds need
      (fun before request reply after => reaches before after ∧ replies after request reply)
      final state) :
    program.Upholds need
      (fun before request reply after => reaches before after ∧ replies after request reply)
      (fun answer after => reaches state after ∧ final answer after) state := by
  induction program generalizing state with
  | done answer =>
      exact ⟨refl state, upholds⟩
  | ask request next inductionHypothesis =>
      refine ⟨upholds.1, fun reply here may => ?_⟩
      have onwards := inductionHypothesis reply (upholds.2 reply here may)
      exact upholds_mono (fun answer after both => ⟨trans may.1 both.1, both.2⟩) onwards

/-- After the exchanges `before`, every conversation ends as `final` says, of
all the exchanges and the answer. -/
def Says (final : α → List (Exchange Request Reply) → Prop)
    (program : Program Request Reply α) (before : List (Exchange Request Reply)) : Prop :=
  program.Upholds (fun _ _ => True)
    (fun before request reply after => after = before ++ [⟨request, reply⟩]) final before

theorem says_ask {final : α → List (Exchange Request Reply) → Prop}
    {request : Request} {next : Reply request → Program Request Reply α}
    {before : List (Exchange Request Reply)}
    (continues : ∀ reply, (next reply).Says final (before ++ [⟨request, reply⟩])) :
    (ask request next).Says final before := by
  refine ⟨trivial, fun reply after isAfter => ?_⟩
  subst isAfter
  exact continues reply

theorem says_bind {middle : β → List (Exchange Request Reply) → Prop}
    {final : α → List (Exchange Request Reply) → Prop}
    {program : Program Request Reply β} {next : β → Program Request Reply α}
    {before : List (Exchange Request Reply)}
    (first : program.Says middle before)
    (second : ∀ answer exchanges, middle answer exchanges → (next answer).Says final exchanges) :
    (program >>= next).Says final before :=
  upholds_bind first second

theorem Says.converses {final : α → List (Exchange Request Reply) → Prop}
    {program : Program Request Reply α} {before exchanges : List (Exchange Request Reply)}
    {answer : α} (holds : program.Says final before)
    (conversation : program.Converses exchanges answer) : final answer (before ++ exchanges) := by
  induction conversation generalizing before with
  | done answer =>
      rw [List.append_nil]
      exact holds
  | ask continued inductionHypothesis =>
      have further := inductionHypothesis (holds.2 _ _ rfl)
      rwa [List.append_assoc] at further

end Rules

/-- Whatever it is answered, a program asks only requests `need` holds of. -/
def Asks (need : Request → Prop) (program : Program Request Reply α) : Prop :=
  program.Upholds (fun (_ : Unit) request => need request) (fun _ _ _ _ => True)
    (fun _ _ => True) ()

section Asking

variable {need : Request → Prop}

theorem asks_done (answer : α) : (done answer : Program Request Reply α).Asks need := trivial

theorem asks_ask {request : Request} {next : Reply request → Program Request Reply α} :
    (ask request next).Asks need ↔ need request ∧ ∀ reply, (next reply).Asks need :=
  ⟨fun asks => ⟨asks.1, fun reply => asks.2 reply () trivial⟩,
    fun both => ⟨both.1, fun reply _ _ => both.2 reply⟩⟩

theorem asks_mono {need' : Request → Prop} (weaker : ∀ request, need request → need' request)
    {program : Program Request Reply α} (asks : program.Asks need) : program.Asks need' := by
  induction program with
  | done answer =>
      exact asks_done answer
  | ask request next inductionHypothesis =>
      obtain ⟨needed, continues⟩ := asks_ask.mp asks
      exact asks_ask.mpr ⟨weaker request needed, fun reply =>
        inductionHypothesis reply (continues reply)⟩

theorem asks_bind {program : Program Request Reply β} {next : β → Program Request Reply α}
    (first : program.Asks need) (second : ∀ answer, (next answer).Asks need) :
    (program >>= next).Asks need :=
  upholds_bind first fun answer _ _ => second answer

end Asking

/-- After a reply that is `last` the program is done, and what it answers without a
reply that is `closing` is `early`. -/
def Stops (last closing : (request : Request) → Reply request → Prop) (early : α → Prop) :
    Program Request Reply α → Prop
  | done answer => early answer
  | ask request next => ∀ reply,
      (last request reply → ∃ answer, next reply = done answer) ∧
        (¬ closing request reply → (next reply).Stops last closing early)

section Stopping

variable {last closing : (request : Request) → Reply request → Prop}

/-- A pure end stops where the program did. -/
theorem stops_map (ending : α → β) {early : α → Prop} {earlyEnd : β → Prop}
    (carried : ∀ answer, early answer → earlyEnd (ending answer))
    {program : Program Request Reply α} (stops : program.Stops last closing early) :
    (program >>= fun answer => done (ending answer)).Stops last closing earlyEnd := by
  induction program with
  | done answer =>
      exact carried answer stops
  | ask request next inductionHypothesis =>
      intro reply
      refine ⟨fun isLast => ?_, fun goesOn =>
        inductionHypothesis reply ((stops reply).2 goesOn)⟩
      obtain ⟨answer, isDone⟩ := (stops reply).1 isLast
      refine ⟨ending answer, ?_⟩
      dsimp only
      rw [isDone]
      rfl

end Stopping

end Program
