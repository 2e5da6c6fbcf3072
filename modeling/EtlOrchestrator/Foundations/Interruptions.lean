import EtlOrchestrator.Foundations.Respects

/-!
# Programs with a handler that may raise

The states of a program list the signals that it has emitted. A program that hands each of its
signals to a handler follows the plain one: it runs as the plain one does as long as the handler
returns, and ends with the exception of the handler at the first signal for which it raises, in a
state that the plain program passes through. The rules follow the programs.
-/

set_option autoImplicit false

variable {σ ε α β κ : Type}

/-- Signals and their handler. One state grows into another when a run can lead there, and a signal
shows the states in which it can be emitted last. -/
structure Signalling (σ ε κ : Type) where
  signals : σ → List κ
  handle : κ → Except ε Unit
  grows : σ → σ → Prop
  shows : κ → σ → Prop

namespace Signalling

variable (signalling : Signalling σ ε κ)

/-- The handler returns for all signals of a list. -/
def Accepts (emitted : List κ) : Prop := ∀ signal ∈ emitted, signalling.handle signal = .ok ()

/-- The handler has accepted all signals of the plain program. -/
def Undisturbed (heeding plain : EStateM ε σ α) (state : σ) : Prop :=
  heeding.run state = plain.run state ∧ ∃ emitted,
    signalling.signals (endState plain state) = signalling.signals state ++ emitted ∧
      signalling.Accepts emitted

/-- The handler has raised for a signal of the plain program, after it had accepted the earlier
ones. -/
def Interrupted (heeding plain : EStateM ε σ α) (state : σ) : Prop :=
  ∃ emitted signal error interrupted, heeding.run state = .error error interrupted ∧
    signalling.signals interrupted = signalling.signals state ++ (emitted ++ [signal]) ∧
    signalling.Accepts emitted ∧ signalling.handle signal = .error error ∧
    signalling.shows signal interrupted ∧ signalling.grows interrupted (endState plain state)

/-- A program runs as the plain one does up to the first signal for which the handler raises. -/
def Follows (heeding plain : EStateM ε σ α) : Prop :=
  ∀ state, signalling.Undisturbed heeding plain state ∨
    signalling.Interrupted heeding plain state

variable {signalling}

theorem Accepts.append {first second : List κ} (accepts : signalling.Accepts first)
    (later : signalling.Accepts second) : signalling.Accepts (first ++ second) :=
  List.forall_mem_append.mpr ⟨accepts, later⟩

/-- The first signal for which the handler raises is unique. -/
theorem Accepts.first_unique {earlier : List κ} : ∀ {otherEarlier later otherLater : List κ}
    {signal other : κ} {error otherError : ε}, signalling.Accepts earlier →
    signalling.Accepts otherEarlier → signalling.handle signal = .error error →
    signalling.handle other = .error otherError →
    earlier ++ signal :: later = otherEarlier ++ other :: otherLater →
      earlier = otherEarlier ∧ signal = other := by
  induction earlier with
  | nil =>
      intro otherEarlier later otherLater signal other error otherError _ accepts raises _ same
      cases otherEarlier with
      | nil => exact ⟨rfl, (List.cons.inj same).1⟩
      | cons first rest =>
          obtain ⟨rfl, _⟩ := List.cons.inj same
          cases (accepts signal List.mem_cons_self).symm.trans raises
  | cons first rest ih =>
      intro otherEarlier later otherLater signal other error otherError accepts otherAccepts
        raises otherRaises same
      cases otherEarlier with
      | nil =>
          obtain ⟨rfl, _⟩ := List.cons.inj same
          cases (accepts first List.mem_cons_self).symm.trans otherRaises
      | cons otherFirst otherRest =>
          obtain ⟨rfl, sameRest⟩ := List.cons.inj same
          obtain ⟨rfl, sameSignal⟩ := ih (List.forall_mem_cons.mp accepts).2
            (List.forall_mem_cons.mp otherAccepts).2 raises otherRaises sameRest
          exact ⟨rfl, sameSignal⟩

namespace Follows

variable {heeding plain : EStateM ε σ α}

/-! ## Rules -/

/-- A program that emits no signal follows itself. -/
theorem of_silent {program : EStateM ε σ α}
    (silent : Respects (fun before after => signalling.signals after = signalling.signals before)
      program) : signalling.Follows program program :=
  fun state => .inl ⟨rfl, [], (silent.at_end state).trans (List.append_nil _).symm,
    List.forall_mem_nil _⟩

/-- A bind follows a bind part by part. -/
theorem bind {rest otherRest : α → EStateM ε σ β} [IsTrans σ signalling.grows]
    (first : signalling.Follows heeding plain)
    (second : ∀ result, signalling.Follows (rest result) (otherRest result))
    (growing : ∀ result, Respects signalling.grows (otherRest result)) :
    signalling.Follows (heeding >>= rest) (plain >>= otherRest) := by
  intro state
  rcases first state with ⟨same, emitted, isEmitted, accepts⟩ |
    ⟨emitted, signal, error, interrupted, raised, isEmitted, accepts, raises, isShown, grown⟩
  · cases ran : plain.run state with
    | error error after =>
        have whole : (plain >>= otherRest).run state = .error error after := by
          rw [EStateM.run_bind, ran]
        refine .inl ⟨?_, emitted, ?_, accepts⟩
        · rw [EStateM.run_bind, same, ran, whole]
        · rw [endState_of_error whole, ← endState_of_error ran, isEmitted]
    | ok result after =>
        rw [endState_of_ok ran] at isEmitted
        have continued : (heeding >>= rest).run state = (rest result).run after := by
          rw [EStateM.run_bind, same, ran]
        rw [Undisturbed, Interrupted, continued, endState_bind ran]
        rcases second result after with ⟨sameRest, more, isMore, acceptsMore⟩ |
          ⟨more, signal, error, interrupted, raised, isMore, acceptsMore, others⟩
        · refine .inl ⟨?_, emitted ++ more, ?_, accepts.append acceptsMore⟩
          · rw [sameRest, EStateM.run_bind, ran]
          · rw [isMore, isEmitted, List.append_assoc]
        · refine .inr ⟨emitted ++ more, signal, error, interrupted, raised, ?_,
            accepts.append acceptsMore, others⟩
          rw [isMore, isEmitted]
          simp only [List.append_assoc]
  · refine .inr ⟨emitted, signal, error, interrupted, ?_, isEmitted, accepts, raises, isShown, ?_⟩
    · rw [EStateM.run_bind, raised]
    · cases ran : plain.run state with
      | error error after =>
          have whole : (plain >>= otherRest).run state = .error error after := by
            rw [EStateM.run_bind, ran]
          rw [endState_of_error whole, ← endState_of_error ran]
          exact grown
      | ok result after =>
          rw [endState_of_ok ran] at grown
          rw [endState_bind ran]
          exact IsTrans.trans _ _ _ grown ((growing result).at_end after)

/-! ## Whole runs -/

variable {state : σ}

/-- Without a signal for which the handler raises, the programs run alike. -/
theorem run_eq (follows : signalling.Follows heeding plain) {emitted : List κ}
    (grown : ∀ before after, signalling.grows before after →
      signalling.signals before <+: signalling.signals after)
    (isEmitted : signalling.signals (endState plain state) = signalling.signals state ++ emitted)
    (accepts : signalling.Accepts emitted) : heeding.run state = plain.run state := by
  rcases follows state with ⟨same, _⟩ |
    ⟨earlier, signal, error, interrupted, _, isEarlier, _, raises, _, grows⟩
  · exact same
  · have begins := grown _ _ grows
    rw [isEmitted, isEarlier, List.prefix_append_right_inj] at begins
    have member : signal ∈ emitted :=
      begins.subset (List.mem_append_right _ List.mem_cons_self)
    cases (accepts signal member).symm.trans raises

/-- At the first signal for which the handler raises, the program ends with its exception. -/
theorem run_eq_error (follows : signalling.Follows heeding plain)
    {earlier later : List κ} {signal : κ} {error : ε}
    (grown : ∀ before after, signalling.grows before after →
      signalling.signals before <+: signalling.signals after)
    (isEmitted : signalling.signals (endState plain state) =
      signalling.signals state ++ (earlier ++ signal :: later))
    (accepts : signalling.Accepts earlier) (raises : signalling.handle signal = .error error) :
    ∃ interrupted, heeding.run state = .error error interrupted ∧
      signalling.signals interrupted = signalling.signals state ++ (earlier ++ [signal]) ∧
      signalling.shows signal interrupted ∧
      signalling.grows interrupted (endState plain state) := by
  rcases follows state with ⟨_, emitted, isWhole, acceptsAll⟩ |
    ⟨emitted, other, otherError, interrupted, raised, isOther, acceptsOther, otherRaises, isShown,
      grows⟩
  · rw [isEmitted, List.append_cancel_left_eq] at isWhole
    have member : signal ∈ emitted := by
      rw [← isWhole]
      exact List.mem_append_right _ List.mem_cons_self
    cases (acceptsAll signal member).symm.trans raises
  · have begins := grown _ _ grows
    rw [isEmitted, isOther, List.prefix_append_right_inj] at begins
    obtain ⟨rest, whole⟩ := begins
    rw [List.append_assoc, List.singleton_append] at whole
    obtain ⟨rfl, rfl⟩ := acceptsOther.first_unique accepts otherRaises raises whole
    cases otherRaises.symm.trans raises
    exact ⟨interrupted, raised, isOther, isShown, grows⟩

end Follows

end Signalling
