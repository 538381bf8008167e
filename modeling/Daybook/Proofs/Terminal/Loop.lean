/-
The terminal comes to an end.

The loop of the terminal has no counter: it makes one round after another,
each with one reading, until one of them is the last.  `Goes` is this loop,
with the states that its readings are made in.  While there is input it gets
shorter; once it is used up there is nothing to be read any more, and then a
session that waits for a file is brought out of its form (`idle_of_cancel`)
and any other one is left.  So there are at most two rounds to come
(`Ending`), and the two that the terminal provides for are enough.
-/
import Daybook.Proofs.Session.Run
import Daybook.Terminal.Loop

namespace Daybook

/-- A form that waits for a file is left when it is cancelled. -/
theorem Session.idle_of_cancel {session : Session} (hawaits : session.awaitsFile = true)
    (world : World) : (session.handle "cancel" world).session.flow = .idle := by
  obtain ⟨form, hform⟩ : ∃ form, session.flow = .building form := by
    unfold awaitsFile at hawaits
    split at hawaits
    · next form hform => exact ⟨form, hform⟩
    · cases hawaits
  have hline : Text.trimmed "cancel" = "cancel" := by decide +kernel
  have hword : Text.lowercase "cancel" ∈ cancelWords := by decide +kernel
  have hanswer : form.answer "cancel" world = (.stop form [Form.cancelNote form.kind], world) := by
    unfold Form.answer
    dsimp only
    rw [hline, if_pos hword]
  rw [handle_eq (by rw [hline]; decide), hline]
  unfold route
  rw [hform]
  dsimp only
  unfold fillIn
  rw [hanswer]
  dsimp only [Turn.stop]
  rw [if_pos rfl]
  split
  · rfl
  · rfl

namespace Terminal

variable {state : State} {input : List (Option String)}

-- ============================================================== one round

namespace State

theorem session_absorb (state : State) (outcome : Outcome) (skipped : String) :
    (state.absorb outcome skipped).1.session = outcome.session := by
  unfold absorb
  dsimp only
  split <;> rfl

/-- No line ends the loop, unless it meets a fault. -/
theorem absorb_ne_finished (state : State) (outcome : Outcome) (skipped : String) :
    (state.absorb outcome skipped).2 ≠ .finished := by
  unfold absorb
  dsimp only
  split
  · exact Status.noConfusion
  · exact Status.noConfusion

/-- No file ends the loop either: its path meets a fault, it cannot be read,
or the session has an answer to it. -/
theorem pickFile_ne_finished (state : State) (text : String) : (state.pickFile text).2 ≠ .finished := by
  unfold pickFile
  split
  · exact Status.noConfusion
  · split
    · exact Status.noConfusion
    · dsimp only
      split
      · exact Status.noConfusion
      · exact absorb_ne_finished _ _ _

theorem getLast?_printing (state : State) {prints : List Print} {last : Print}
    (h : prints.getLast? = some last) : (state.printing prints).prints.getLast? = some last := by
  show (state.prints ++ prints).getLast? = some last
  rw [List.getLast?_append, h]
  rfl

/-- A round in which the loop is left says goodbye. -/
theorem goodbye_of_finished {reading : Option String} (h : (state.round reading).2 = .finished) :
    (state.round reading).1.prints.getLast? = some Screen.goodbye := by
  unfold round at h ⊢
  split at h
  · split at h
    · exact absurd h (absorb_ne_finished _ _ _)
    · dsimp only at h
      split at h
      · exact absurd h (absorb_ne_finished _ _ _)
      · exact absurd h (pickFile_ne_finished _ _)
  · next hprompts =>
      rw [if_neg hprompts]
      dsimp only at h ⊢
      split at h
      · exact getLast?_printing _ rfl
      · split at h
        · next hquit =>
            rw [if_pos hquit]
            exact getLast?_printing _ rfl
        · exact absurd h (absorb_ne_finished _ _ _)

-- =================================================== rounds after the input

/-- At the end of the input, a session that waits for no file is left. -/
theorem round_prompting (h : state.session.awaitsFile = false) :
    ∃ final, state.round none = (final, .finished) := by
  unfold round
  rw [if_neg (by rw [h]; exact Bool.noConfusion)]
  exact ⟨_, rfl⟩

/-- At the end of the input, a session that waits for a file is brought out
of its form. -/
theorem round_waiting (h : state.session.awaitsFile = true) :
    ∃ next, next.session.flow = .idle
      ∧ (state.round none = (next, .running) ∨ ∃ f, state.round none = (next, .failed f)) := by
  have hround : state.round none = (state.printing [Screen.blankLine]).handle "cancel" := by
    unfold round
    rw [if_pos h]
  have hidle : (state.round none).1.session.flow = .idle := by
    rw [hround]
    unfold handle
    rw [session_absorb]
    exact Session.idle_of_cancel h _
  cases hlast : state.round none with
  | mk next status =>
      rw [hlast] at hidle
      refine ⟨next, hidle, ?_⟩
      cases status with
      | running => exact .inl rfl
      | failed f => exact .inr ⟨f, rfl⟩
      | finished =>
          rw [hround] at hlast
          exact absurd (congrArg Prod.snd hlast) (absorb_ne_finished _ _ _)

end State

-- =============================================================== the loop

/-- The loop of the terminal: rounds with one reading each, in the states
that are listed, until one of them is the last.  At the end of the input
there is nothing to be read. -/
inductive Goes : State → List (Option String) → List State → State × Status → Prop
  | ends {state : State} {input : List (Option String)} {result : State × Status}
    (hround : state.round input.head?.join = result) (hlast : result.2 ≠ .running) :
    Goes state input [state] result
  | on {state next : State} {input : List (Option String)} {states : List State}
    {result : State × Status} (hround : state.round input.head?.join = (next, .running))
    (hrest : Goes next input.tail states result) : Goes state input (state :: states) result

/-- There is one way for the loop to go. -/
theorem Goes.unique {states others : List State} {result other : State × Status}
    (h : Goes state input states result) (hother : Goes state input others other) :
    others = states ∧ other = result := by
  induction h generalizing others other with
  | ends hround hlast =>
      cases hother with
      | ends hround' => exact ⟨rfl, hround'.symm.trans hround⟩
      | on hround' =>
          cases hround.symm.trans hround'
          exact absurd rfl hlast
  | on hround _ ih =>
      cases hother with
      | ends hround' hlast' =>
          cases hround'.symm.trans hround
          exact absurd rfl hlast'
      | on hround' hrest' =>
          cases hround.symm.trans hround'
          obtain ⟨rfl, rfl⟩ := ih hrest'
          exact ⟨rfl, rfl⟩

/-- How the loop ends from the states in which it makes readings after the
end of the input: it was over before, one reading was taken for `quit`, one
reading was to cancel a form and met a fault, or one cancelled a form and
the next was taken for `quit`. -/
inductive Ending : List State → State × Status → Prop
  | before (result : State × Status) : Ending [] result
  | left {prompting final : State} (hprompts : prompting.session.awaitsFile = false) :
    Ending [prompting] (final, .finished)
  | failed {waiting final : State} {f : Fault} (hwaits : waiting.session.awaitsFile = true) :
    Ending [waiting] (final, .failed f)
  | cancelled {waiting idle final : State} (hwaits : waiting.session.awaitsFile = true)
    (hidle : idle.session.flow = .idle) : Ending [waiting, idle] (final, .finished)

theorem Ending.length_le {states : List State} {result : State × Status} (h : Ending states result) :
    states.length ≤ 2 := by
  cases h <;> simp

theorem awaitsFile_of_idle {session : Session} (h : session.flow = .idle) :
    session.awaitsFile = false := by
  unfold Session.awaitsFile
  rw [h]

/-- Without any input, two rounds are enough. -/
theorem drain_goes (state : State) :
    ∃ states, Goes state [] states (state.drain 2) ∧ Ending states (state.drain 2) := by
  cases hawaits : state.session.awaitsFile with
  | false =>
      obtain ⟨final, hround⟩ := State.round_prompting hawaits
      have hdrain : state.drain 2 = (final, .finished) := by
        unfold State.drain
        rw [hround]
      rw [hdrain]
      exact ⟨_, .ends hround Status.noConfusion, .left hawaits⟩
  | true =>
      obtain ⟨next, hidle, hround | ⟨f, hround⟩⟩ := State.round_waiting hawaits
      · obtain ⟨final, hlast⟩ := State.round_prompting (awaitsFile_of_idle hidle)
        have hdrain : state.drain 2 = (final, .finished) := by
          unfold State.drain
          rw [hround]
          dsimp only
          unfold State.drain
          rw [hlast]
        rw [hdrain]
        exact ⟨_, .on hround (.ends hlast Status.noConfusion), .cancelled hawaits hidle⟩
      · have hdrain : state.drain 2 = (next, .failed f) := by
          unfold State.drain
          rw [hround]
        rw [hdrain]
        exact ⟨_, .ends hround Status.noConfusion, .failed hawaits⟩

/-- Unless a fault stops it, the loop ends with the goodbye. -/
theorem Goes.ended {states : List State} {result : State × Status}
    (h : Goes state input states result) :
    (result.2 = .finished ∧ result.1.prints.getLast? = some Screen.goodbye)
      ∨ ∃ f, result.2 = .failed f := by
  induction h with
  | @ends state input result hround hlast =>
      cases hstatus : result.2 with
      | running => exact absurd hstatus hlast
      | finished =>
          rw [← hround] at hstatus ⊢
          exact .inl ⟨rfl, State.goodbye_of_finished hstatus⟩
      | failed f => exact .inr ⟨f, rfl⟩
  | on _ _ ih => exact ih

/-- After the last round there are no more. -/
theorem State.rounds_of_last {reading : Option String} {final : State} {status : Status}
    (hround : state.round reading = (final, status)) (hlast : status ≠ .running) :
    state.rounds (reading :: input) = (final, status, input.length) := by
  unfold rounds
  rw [hround]
  cases status with
  | running => exact absurd rfl hlast
  | finished | failed => rfl

/-- The rounds over the whole input are the loop. -/
theorem rounds_go (state : State) (input : List (Option String)) :
    ∃ states final status, Goes state input states (final, status)
      ∧ state.rounds input = (final, status, input.length - states.length)
      ∧ Ending (states.drop input.length) (final, status) := by
  -- Each reading is one round: a round that goes on leaves less to read, and
  -- what the rest comes to is known of every state that it may go on in.
  induction input generalizing state with
  | nil =>
      obtain ⟨states, hgoes, hending⟩ := drain_goes state
      refine ⟨states, _, _, hgoes, ?_, hending⟩
      rw [List.length_nil, Nat.zero_sub]
      rfl
  | cons reading input ih =>
      obtain ⟨⟨next, status⟩, hround⟩ : ∃ result, state.round reading = result := ⟨_, rfl⟩
      by_cases hrunning : status = .running
      · subst hrunning
        obtain ⟨states, final, status, hgoes, hrounds, hending⟩ := ih next
        refine ⟨state :: states, final, status, .on hround hgoes, ?_, hending⟩
        unfold State.rounds
        rw [hround, List.length_cons, List.length_cons, Nat.add_sub_add_right]
        exact hrounds
      · refine ⟨[state], next, status, .ends hround hrunning,
          State.rounds_of_last hround hrunning, ?_⟩
        rw [List.length_cons, List.drop_succ_cons, List.drop_nil]
        exact .before _

/-- The terminal comes to an end from any state, that of its start among
them, whatever the files and the answers of the backend: its loop goes one
way only, with one reading in each round, and what it does not read of the
input is left unread.  At most two readings are made after the end of the
input; if there are two, the first cancels the form that waits for a file,
and the last is taken for `quit`.  Unless a fault stops it, the loop ends
with the goodbye. -/
theorem loop_ends (state : State) (input : List (Option String)) :
    ∃ states final status, Goes state input states (final, status)
      ∧ (∀ others result, Goes state input others result → others = states ∧ result = (final, status))
      ∧ state.rounds input = (final, status, input.length - states.length)
      ∧ Ending (states.drop input.length) (final, status)
      ∧ states.length ≤ input.length + 2
      ∧ ((status = .finished ∧ final.prints.getLast? = some Screen.goodbye)
        ∨ ∃ f, status = .failed f) := by
  obtain ⟨states, final, status, hgoes, hrounds, hending⟩ := rounds_go state input
  have hshort : states.length ≤ input.length + 2 := by
    have hafter := hending.length_le
    rw [List.length_drop] at hafter
    omega
  exact ⟨states, final, status, hgoes, fun _ _ => hgoes.unique, hrounds, hending, hshort, hgoes.ended⟩

end Terminal
end Daybook
