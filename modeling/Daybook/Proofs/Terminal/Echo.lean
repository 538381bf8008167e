/-
What the terminal shows of the answers to a line.

The line itself is on the screen when it is handled.  Among the messages it
is known by its speaker, so what is left out is told by names alone, and a
name is chosen by the user: one of the two voices may bear it, or it may be
empty and then nothing is left out.  Under any other name just the line is
left out, since all answers are in the two voices.
-/
import Daybook.Proofs.Speakers
import Daybook.Terminal.Loop

namespace Daybook

-- ============================================================ the screen

namespace Screen

variable {messages : List Message} {name : String}

theorem showMessages_nameless (messages : List Message) :
    showMessages messages "" = messages.map showMessage := by
  unfold showMessages
  rw [List.filter_eq_self.mpr fun _ _ => decide_eq_true (.inl rfl)]

theorem showMessages_named (hname : name ≠ "") :
    showMessages messages name
      = (messages.filter fun message => message.speaker ≠ name).map showMessage := by
  unfold showMessages
  congr 1
  refine List.filter_congr fun message _ => ?_
  rw [decide_eq_decide]
  exact or_iff_right hname

/-- Of messages after a line, all are shown and the line is not, if and only
if the speaker of the line has a name and speaks none of them. -/
theorem showMessages_cons_iff (line : Message) (messages : List Message) :
    showMessages (line :: messages) line.speaker = messages.map showMessage
      ↔ line.speaker ≠ "" ∧ ∀ message ∈ messages, message.speaker ≠ line.speaker := by
  by_cases hname : line.speaker = ""
  · rw [hname, showMessages_nameless]
    refine ⟨fun h => ?_, fun h => absurd rfl h.1⟩
    have hlength := congrArg List.length h
    rw [List.length_map, List.length_map, List.length_cons] at hlength
    omega
  · rw [showMessages_named hname, List.filter_cons_of_neg (by simp), and_iff_right hname]
    refine ⟨fun h => ?_, fun h => ?_⟩
    · have hlength := congrArg List.length h
      rw [List.length_map, List.length_map, List.length_filter_eq_length_iff] at hlength
      exact fun message hmem => of_decide_eq_true (hlength message hmem)
    · rw [List.filter_eq_self.mpr fun message hmem => decide_eq_true (h message hmem)]

end Screen

namespace Terminal

open Message (note)

variable {state : State} {line : String} {messages : List Message}

-- =============================================================== the line

theorem prints_handle (h : (state.session.handle line state.world).reply = .ok messages) :
    (state.handle line).1.prints
      = state.prints ++ Screen.showMessages messages state.session.username := by
  unfold State.handle State.absorb
  dsimp only
  rw [h]
  rfl

/-- The answers to a line are in the two voices, and the line comes before
them under the name of the user.  Exactly the answers are shown, in order,
if and only if the user has a name and none of them is spoken under it; so
under any name but that of a voice.  In general a named user sees the
answers that bear another name, and never the line; a nameless one sees them
all, and the line. -/
theorem answers_shown_iff (hline : Text.trimmed line ≠ "")
    (hreply : (state.session.handle line state.world).reply = .ok messages) :
    let username := state.session.username
    let shown := (state.handle line).1.prints
    ∃ replies, messages = ⟨username, Text.trimmed line, .text⟩ :: replies ∧ Spoken replies
      ∧ (shown = state.prints ++ replies.map Screen.showMessage
        ↔ username ≠ "" ∧ ∀ reply ∈ replies, reply.speaker ≠ username)
      ∧ (username ∉ ["", Message.mother, Message.guide] →
        shown = state.prints ++ replies.map Screen.showMessage)
      ∧ shown = state.prints ++ (if username = "" then messages
        else replies.filter fun reply => reply.speaker ≠ username).map Screen.showMessage := by
  intro username shown
  obtain ⟨replies, hmessages, hspoken⟩ := Session.spoken_handle hline hreply
  have hshown : shown = state.prints ++ Screen.showMessages messages username := prints_handle hreply
  have hiff : shown = state.prints ++ replies.map Screen.showMessage
      ↔ username ≠ "" ∧ ∀ reply ∈ replies, reply.speaker ≠ username := by
    rw [hshown, List.append_right_inj, hmessages]
    exact Screen.showMessages_cons_iff ⟨username, Text.trimmed line, .text⟩ replies
  refine ⟨replies, hmessages, hspoken, hiff, fun hname => hiff.mpr ⟨?_, fun reply hmem heq => ?_⟩, ?_⟩
  · intro hempty
    exact hname (hempty ▸ List.mem_cons_self)
  · have hvoice : reply.speaker ∈ [Message.mother, Message.guide] := by
      rcases hspoken reply hmem with hspeaker | hspeaker
      · exact hspeaker ▸ List.mem_cons_self
      · exact hspeaker ▸ List.mem_cons_of_mem _ List.mem_cons_self
    exact hname (List.mem_cons_of_mem _ (heq ▸ hvoice))
  · rw [hshown]
    split
    · next hempty => rw [hempty, Screen.showMessages_nameless]
    · next hname =>
        rw [Screen.showMessages_named hname, hmessages, List.filter_cons_of_neg (by simp [username])]

/-- A line that is no instruction is answered by the guide. -/
theorem reply_unknown {session : Session} {text : String} (hidle : session.flow = .idle)
    (hline : Text.trimmed line ≠ "") (hread : Instruction.read (Text.trimmed line) = .unknown text)
    (world : World) :
    (session.handle line world).reply = .ok [⟨session.username, Text.trimmed line, .text⟩,
      note ("Unknown command: \"" ++ Text.trimmed text ++ "\". Type 'help' to see available commands.")] := by
  rw [Session.handle_eq hline]
  unfold Session.route
  rw [hidle]
  dsimp only
  rw [hread]
  rfl

/-- What the guide says of a greeting. -/
def unknownHello : Message :=
  note "Unknown command: \"hello\". Type 'help' to see available commands."

/-- The terminal of a user without a backend. -/
def offline (username : String) : State :=
  State.start username ⟨⟨"http://api.test/api", none⟩, ⟨[], .lost, []⟩, ⟨"/home", [], []⟩, .absent⟩

theorem reply_hello (username : String) :
    ((offline username).session.handle "hello" (offline username).world).reply
      = .ok [⟨username, "hello", .text⟩, unknownHello] := by
  have hline : Text.trimmed "hello" = "hello" := by decide +kernel
  have hread : Instruction.read (Text.trimmed "hello") = .unknown "hello" := by decide +kernel
  have hidle : (offline username).session.flow = .idle := rfl
  rw [reply_unknown hidle (by rw [hline]; decide) hread, hline]
  rfl

theorem answers_shown_iff_ada :
    Text.trimmed "hello" ≠ ""
      ∧ ((offline "ada").session.handle "hello" (offline "ada").world).reply
        = .ok [⟨"ada", "hello", .text⟩, unknownHello]
      ∧ ((offline "ada").handle "hello").1.prints
        = (offline "ada").prints ++ [Screen.showMessage unknownHello] := by
  have hline : Text.trimmed "hello" ≠ "" := by decide +kernel
  obtain ⟨replies, hmessages, -, -, hshown, -⟩ := answers_shown_iff hline (reply_hello "ada")
  cases hmessages
  exact ⟨hline, reply_hello "ada", hshown (by decide)⟩

/-- A user who bears the name of the guide is not told what is wrong with a
line. -/
theorem guide_hides_answer :
    ((offline "MiD").session.handle "hello" (offline "MiD").world).reply
        = .ok [⟨"MiD", "hello", .text⟩, unknownHello]
      ∧ ((offline "MiD").handle "hello").1.prints = (offline "MiD").prints := by
  have hname : (offline "MiD").session.username = "MiD" := rfl
  have hnone : ([⟨"MiD", "hello", .text⟩, unknownHello] : List Message).filter
      (fun message => message.speaker ≠ "MiD") = [] := by decide
  have hnothing : Screen.showMessages [⟨"MiD", "hello", .text⟩, unknownHello] "MiD" = [] := by
    rw [Screen.showMessages_named (by decide), hnone, List.map_nil]
  refine ⟨reply_hello "MiD", ?_⟩
  rw [prints_handle (reply_hello "MiD"), hname, hnothing, List.append_nil]

end Terminal
end Daybook
