/-
What actions on the backend put on the wire, and what their results tell
of the answers.

# Three views of an action

`Sends P` is the coarse one: whatever the answers are, every request that
the action makes has the property `P`, and the requests made before stay
where they were.  It survives every way of putting actions together, the
caught failures included, so the method of every request of a whole step
follows from the calls in it.

`Direct` is the fine one.  A direct action goes on only as long as each
answer is a success, so its result can be read off the answers: it
succeeds when all of them decode, and it fails just with the error of the
last one.  Saving a form is direct; deleting a memory is not, since the
failure of its image does not count.

`Stops F` lies between the two: whatever is sent and answered, an action
stops at faults with the property `F` only.
-/
import Daybook.Backend.Images
import Daybook.Backend.Memories
import Daybook.World

namespace Daybook.Http.Wire

-- ========================================================== the answers

/-- The answer to the request after the next `n`. -/
def answer (wire : Wire) (n : Nat) : Answer := (wire.answers[n]?).getD wire.closing

/-- The wire once some requests have been sent. -/
def sendAll (wire : Wire) (requests : List Request) : Wire :=
  requests.foldl (fun wire request => (wire.send request).2) wire

/-- A request is answered by the next answer. -/
theorem send_fst (wire : Wire) (request : Request) : (wire.send request).1 = wire.answer 0 := by
  unfold send answer
  split
  · next h => rw [h]; rfl
  · next h => rw [h]; rfl

/-- A request uses up one answer. -/
theorem answer_send (wire : Wire) (request : Request) (n : Nat) :
    (wire.send request).2.answer n = wire.answer (n + 1) := by
  unfold send answer
  split
  · next h => rw [h]; rfl
  · next h => rw [h, List.getElem?_cons_succ]

/-- Requests may be sent in two parts. -/
theorem sendAll_append (wire : Wire) (first second : List Request) :
    wire.sendAll (first ++ second) = (wire.sendAll first).sendAll second := by
  unfold sendAll
  rw [List.foldl_append]

/-- All requests are kept in the order in which they were sent. -/
theorem sent_sendAll (wire : Wire) (requests : List Request) :
    (wire.sendAll requests).sent = wire.sent ++ requests := by
  induction requests generalizing wire with
  | nil => exact (List.append_nil _).symm
  | cons request requests ih =>
      show ((wire.send request).2.sendAll requests).sent = _
      rw [ih, sent_send, List.append_assoc, List.singleton_append]

/-- Each of them uses up one answer. -/
theorem answer_sendAll (wire : Wire) (requests : List Request) (n : Nat) :
    (wire.sendAll requests).answer n = wire.answer (requests.length + n) := by
  induction requests generalizing wire with
  | nil =>
      rw [List.length_nil, Nat.zero_add]
      rfl
  | cons request requests ih =>
      show ((wire.send request).2.sendAll requests).answer n = _
      rw [ih, answer_send, List.length_cons]
      congr 1
      omega

end Daybook.Http.Wire

namespace Daybook.Backend

open Http

variable {α β : Type} {P Q : Request → Prop} {site : Site}

-- ============================================================== running

/-- What an action comes to on a wire. -/
def Call.on (action : Call α) (wire : Wire) : Except Trouble α × Wire := ExceptT.run action wire

theorem on_throw (trouble : Trouble) (wire : Wire) :
    (throw trouble : Call α).on wire = (.error trouble, wire) := rfl

/-- A second action goes on from the result and the wire of the first one. -/
theorem on_bind_ok {action : Call α} {next : α → Call β} {wire wire' : Wire} {a : α}
    (h : action.on wire = (.ok a, wire')) : (action >>= next).on wire = (next a).on wire' := by
  show ExceptT.bindCont next (action.on wire).1 (action.on wire).2 = _
  rw [h]
  rfl

/-- A second action is not carried out if the first one failed. -/
theorem on_bind_error {action : Call α} {next : α → Call β} {wire wire' : Wire}
    {trouble : Trouble} (h : action.on wire = (.error trouble, wire')) :
    (action >>= next).on wire = (.error trouble, wire') := by
  show ExceptT.bindCont next (action.on wire).1 (action.on wire).2 = _
  rw [h]
  rfl

/-- A handler has nothing to do if the action succeeds. -/
theorem on_catch_ok {action : Call α} {handler : Trouble → Call α} {wire wire' : Wire} {a : α}
    (h : action.on wire = (.ok a, wire')) :
    (tryCatch action handler).on wire = (.ok a, wire') := by
  have hrun : StateT.run (ExceptT.run action) wire = (.ok a, wire') := h
  show StateT.run (ExceptT.run (tryCatch action handler)) wire = _
  rw [ExceptT.run_tryCatch, StateT.run_bind, hrun]
  rfl

/-- A handler goes on from the wire that the failed action left. -/
theorem on_catch_error {action : Call α} {handler : Trouble → Call α} {wire wire' : Wire}
    {trouble : Trouble} (h : action.on wire = (.error trouble, wire')) :
    (tryCatch action handler).on wire = (handler trouble).on wire' := by
  have hrun : StateT.run (ExceptT.run action) wire = (.error trouble, wire') := h
  show StateT.run (ExceptT.run (tryCatch action handler)) wire = _
  rw [ExceptT.run_tryCatch, StateT.run_bind, hrun]
  rfl

/-- A computation that succeeds sends nothing. -/
theorem on_ofExcept_ok (a : α) (wire : Wire) :
    (Call.ofExcept (.ok a)).on wire = (.ok a, wire) := rfl

theorem on_ofExcept_error (f : Fault) (wire : Wire) :
    (Call.ofExcept (.error f) : Call α).on wire = (.error (.fault f), wire) := rfl

/-- A call sends one request and is told by the next answer. -/
theorem on_call (method : Method) (path : String) (query : Option Record) (body : Body)
    (wire : Wire) :
    (site.call method path query body).on wire
      = ((decode site (wire.answer 0)).mapError .call,
          (wire.send ⟨method, site.base ++ path, site.token, query, body⟩).2) := by
  rw [← Wire.send_fst wire ⟨method, site.base ++ path, site.token, query, body⟩]
  rfl

/-- Two actions in a row succeed only if both do. -/
theorem ok_of_on_bind {action : Call α} {next : α → Call β} {wire : Wire} {b : β}
    (h : ((action >>= next).on wire).1 = .ok b) :
    ∃ a, (action.on wire).1 = .ok a ∧ ((next a).on (action.on wire).2).1 = .ok b := by
  cases hon : action.on wire with
  | mk result wire' =>
      cases result with
      | ok a =>
          rw [on_bind_ok hon] at h
          exact ⟨a, rfl, h⟩
      | error trouble =>
          rw [on_bind_error hon] at h
          cases h

/-- An action that is a computation succeeds only if that does. -/
theorem ok_of_on_ofExcept {value : Except Fault α} {wire : Wire} {a : α}
    (h : ((Call.ofExcept value).on wire).1 = .ok a) : value = .ok a := by
  cases value with
  | ok b => exact congrArg Except.ok (Except.ok.inj h)
  | error f => cases h

/-- What a call succeeds with is the content of the next answer. -/
theorem ok_of_on_call {method : Method} {path : String} {query : Option Record} {body : Body}
    {wire : Wire} {content : Record} (h : ((site.call method path query body).on wire).1 = .ok content) :
    decode site (wire.answer 0) = .ok content := by
  rw [on_call] at h
  cases hdecode : decode site (wire.answer 0) with
  | ok other =>
      rw [hdecode] at h
      exact congrArg Except.ok (Except.ok.inj h)
  | error e =>
      rw [hdecode] at h
      cases h

-- ========================================================= what is sent

/-- Whether every request that an action makes has a property, whatever
the answers are; the requests made before stay. -/
def Sends (P : Request → Prop) (action : Call α) : Prop :=
  ∀ wire : Wire, ∃ new, (action.on wire).2.sent = wire.sent ++ new ∧ ∀ request ∈ new, P request

theorem Sends.mono {action : Call α} (h : Sends P action) (hPQ : ∀ request, P request → Q request) :
    Sends Q action := by
  intro wire
  obtain ⟨new, hsent, hnew⟩ := h wire
  exact ⟨new, hsent, fun request hmem => hPQ request (hnew request hmem)⟩

/-- An action without a request sends nothing that could lack a property. -/
theorem sends_pure (a : α) : Sends P (pure a : Call α) :=
  fun _ => ⟨[], (List.append_nil _).symm, fun _ hmem => absurd hmem List.not_mem_nil⟩

theorem sends_throw (trouble : Trouble) : Sends P (throw trouble : Call α) :=
  fun _ => ⟨[], (List.append_nil _).symm, fun _ hmem => absurd hmem List.not_mem_nil⟩

/-- A computation sends nothing, whatever it comes to. -/
theorem sends_ofExcept (value : Except Fault α) : Sends P (Call.ofExcept value) := by
  cases value with
  | ok a => exact sends_pure a
  | error f => exact sends_throw (.fault f)

/-- Actions one behind the other send what each of them sends. -/
theorem Sends.bind {action : Call α} {next : α → Call β} (h : Sends P action)
    (hnext : ∀ a, Sends P (next a)) : Sends P (action >>= next) := by
  intro wire
  obtain ⟨new, hsent, hnew⟩ := h wire
  cases hon : action.on wire with
  | mk result wire' =>
      rw [hon] at hsent
      cases result with
      | error trouble =>
          rw [on_bind_error hon]
          exact ⟨new, hsent, hnew⟩
      | ok a =>
          obtain ⟨more, hmore, hall⟩ := hnext a wire'
          rw [on_bind_ok hon]
          refine ⟨new ++ more, ?_, fun request hmem => ?_⟩
          · rw [hmore, hsent, List.append_assoc]
          · rcases List.mem_append.mp hmem with hmem | hmem
            · exact hnew request hmem
            · exact hall request hmem

/-- A handler adds the requests that it makes. -/
theorem Sends.catch {action : Call α} {handler : Trouble → Call α} (h : Sends P action)
    (hhandler : ∀ trouble, Sends P (handler trouble)) :
    Sends P (tryCatch action handler) := by
  intro wire
  obtain ⟨new, hsent, hnew⟩ := h wire
  cases hon : action.on wire with
  | mk result wire' =>
      rw [hon] at hsent
      cases result with
      | ok a =>
          rw [on_catch_ok hon]
          exact ⟨new, hsent, hnew⟩
      | error trouble =>
          obtain ⟨more, hmore, hall⟩ := hhandler trouble wire'
          rw [on_catch_error hon]
          refine ⟨new ++ more, ?_, fun request hmem => ?_⟩
          · rw [hmore, hsent, List.append_assoc]
          · rcases List.mem_append.mp hmem with hmem | hmem
            · exact hnew request hmem
            · exact hall request hmem

/-- A call sends the request that it is made of. -/
theorem sends_call {method : Method} {path : String} {query : Option Record} {body : Body}
    (h : P ⟨method, site.base ++ path, site.token, query, body⟩) :
    Sends P (site.call method path query body) := by
  intro wire
  rw [on_call, Wire.sent_send]
  exact ⟨_, rfl, fun request hmem => List.mem_singleton.mp hmem ▸ h⟩

theorem sends_call_method {method : Method} {path : String} {query : Option Record} {body : Body} :
    Sends (·.method = method) (site.call method path query body) := sends_call rfl

/-- A call whose result is only looked at makes just its own request. -/
theorem sent_call_bind {method : Method} {path : String} {query : Option Record}
    {body : Body} {next : Record → Call β} (h : ∀ content, Sends (fun _ => False) (next content))
    (wire : Wire) :
    ((site.call method path query body >>= next).on wire).2.sent
      = wire.sent ++ [⟨method, site.base ++ path, site.token, query, body⟩] := by
  have hon : (site.call method path query body).on wire = _ := on_call method path query body wire
  cases hdecode : decode site (wire.answer 0) with
  | ok content =>
      rw [hdecode] at hon
      obtain ⟨new, hsent, hnone⟩ := h content
        (wire.send ⟨method, site.base ++ path, site.token, query, body⟩).2
      have hnew : new = [] := List.eq_nil_iff_forall_not_mem.mpr fun request => hnone request
      rw [on_bind_ok hon, hsent, hnew, List.append_nil, Wire.sent_send]
  | error e =>
      rw [hdecode] at hon
      rw [on_bind_error hon, Wire.sent_send]

/-- Creating a memory is one request, with the payload as its body. -/
theorem sent_createMemory (payload : Record) (wire : Wire) :
    ((site.createMemory payload).on wire).2.sent
      = wire.sent ++ [⟨.post, site.base ++ "/memories", site.token, none, .json (.obj payload)⟩] := by
  refine sent_call_bind (fun content => ?_) wire
  split
  · exact sends_pure _
  · exact sends_pure _

/-- Whether an action makes a request, whatever the answers are. -/
def Asks (action : Call α) : Prop :=
  ∀ wire : Wire, ∃ request more, (action.on wire).2.sent = wire.sent ++ request :: more

/-- A call makes a request. -/
theorem asks_call (method : Method) (path : String) (query : Option Record) (body : Body) :
    Asks (site.call method path query body) := by
  intro wire
  rw [on_call, Wire.sent_send]
  exact ⟨_, [], rfl⟩

/-- What follows only makes more requests. -/
theorem Asks.bind {action : Call α} {next : α → Call β} (h : Asks action)
    (hnext : ∀ a, Sends P (next a)) : Asks (action >>= next) := by
  intro wire
  obtain ⟨request, more, hsent⟩ := h wire
  cases hon : action.on wire with
  | mk result wire' =>
      rw [hon] at hsent
      cases result with
      | ok a =>
          obtain ⟨new, hnew, -⟩ := hnext a wire'
          rw [on_bind_ok hon]
          refine ⟨request, more ++ new, ?_⟩
          rw [hnew, hsent, List.append_assoc, List.cons_append]
      | error trouble =>
          rw [on_bind_error hon]
          exact ⟨request, more, hsent⟩

-- ==================================================== methods by action

/-- Memories are created by `POST` requests. -/
theorem sends_createMemory (payload : Record) :
    Sends (·.method = .post) (site.createMemory payload) := by
  refine (sends_call_method).bind fun content => ?_
  split
  · exact sends_pure _
  · exact sends_pure _

theorem asks_createMemory (payload : Record) : Asks (site.createMemory payload) := by
  refine (asks_call _ _ _ _).bind (P := fun _ => True) fun content => ?_
  split
  · exact sends_pure _
  · exact sends_pure _

theorem asks_uploadImage (image : Content) (filename : String) (description tags album : Json) :
    Asks (site.uploadImage image filename description tags album) :=
  (asks_call _ _ _ _).bind (P := fun _ => True) fun _ => sends_pure _

/-- Images are uploaded by `POST` requests. -/
theorem sends_uploadImage (image : Content) (filename : String) (description tags album : Json) :
    Sends (·.method = .post) (site.uploadImage image filename description tags album) :=
  (sends_call_method).bind fun _ => sends_pure _

/-- A memory is read by `GET` requests. -/
theorem sends_memory (id : String) : Sends (·.method = .get) (site.memory id) := by
  refine (sends_call_method).bind fun content => ?_
  split
  · exact sends_pure _
  · exact sends_throw _

theorem sends_memories (filters : Record) : Sends (·.method = .get) (site.memories filters) :=
  (sends_ofExcept _).bind fun _ => (sends_call_method).bind fun _ => sends_ofExcept _

theorem sends_searchMemories (text : String) (filters : Record) :
    Sends (·.method = .get) (site.searchMemories text filters) :=
  (sends_ofExcept _).bind fun _ => (sends_call_method).bind fun _ => sends_ofExcept _

/-- Memories are changed by `PUT` requests. -/
theorem sends_updateMemory (id : String) (fields : Record) :
    Sends (·.method = .put) (site.updateMemory id fields) := sends_call_method

theorem sends_updateImage (id : String) (fields : Record) :
    Sends (·.method = .put) (site.updateImage id fields) := sends_call_method

-- ======================================================= direct actions

/-- What a result tells of the first `n` answers on a wire: all of them
are successes, or the last one is the error that the action failed
with. -/
def Tells (site : Site) (wire : Wire) (n : Nat) : Except Trouble α → Prop
  | .ok _ => ∀ i < n, ∃ content, decode site (wire.answer i) = .ok content
  | .error (.call e) => ∃ last, n = last + 1
      ∧ (∀ i < last, ∃ content, decode site (wire.answer i) = .ok content)
      ∧ decode site (wire.answer last) = .error e
  | .error _ => False

/-- Whether an action goes on only after successes, so that its result
tells of all its answers. -/
def Direct (site : Site) (action : Call α) : Prop :=
  ∀ wire : Wire, ∃ requests, (action.on wire).2 = wire.sendAll requests
    ∧ Tells site wire requests.length (action.on wire).1

/-- An action without a request is direct: there is no answer for it to heed. -/
theorem direct_pure (a : α) : Direct site (pure a : Call α) :=
  fun _ => ⟨[], rfl, fun i hi => absurd hi (Nat.not_lt_zero i)⟩

theorem direct_call (method : Method) (path : String) (query : Option Record) (body : Body) :
    Direct site (site.call method path query body) := by
  intro wire
  refine ⟨[⟨method, site.base ++ path, site.token, query, body⟩], ?_, ?_⟩
  · rw [on_call]
    rfl
  · rw [on_call]
    cases hdecode : decode site (wire.answer 0) with
    | ok content =>
        intro i hi
        have hi0 : i = 0 := by
          rw [List.length_singleton] at hi
          omega
        rw [hi0]
        exact ⟨content, hdecode⟩
    | error e => exact ⟨0, rfl, fun i hi => absurd hi (Nat.not_lt_zero i), hdecode⟩

/-- The answers to one action and then to another are told of together. -/
theorem tells_append {wire : Wire} {m n : Nat} {result : Except Trouble β} {requests : List Request}
    (hlen : requests.length = m)
    (hfirst : ∀ i < m, ∃ content, decode site (wire.answer i) = .ok content)
    (hrest : Tells site (wire.sendAll requests) n result) : Tells site wire (m + n) result := by
  have hshift : ∀ i, (wire.sendAll requests).answer i = wire.answer (m + i) := fun i => by
    rw [Wire.answer_sendAll, hlen]
  -- the answers to the second action stand behind the `m` first ones
  have hjoin : ∀ k, (∀ i < k, ∃ content, decode site ((wire.sendAll requests).answer i) = .ok content)
      → ∀ i < m + k, ∃ content, decode site (wire.answer i) = .ok content := by
    intro k hk i hi
    by_cases him : i < m
    · exact hfirst i him
    · obtain ⟨content, hcontent⟩ := hk (i - m) (by omega)
      rw [hshift, Nat.add_sub_cancel' (by omega : m ≤ i)] at hcontent
      exact ⟨content, hcontent⟩
  match result with
  | .ok _ => exact hjoin n hrest
  | .error (.call e) =>
      obtain ⟨last, rfl, hall, hlast⟩ := hrest
      exact ⟨m + last, rfl, hjoin last hall, hshift last ▸ hlast⟩
  | .error (.file _) => exact hrest.elim
  | .error (.fault _) => exact hrest.elim

/-- Direct actions one behind the other are direct, since the second one is
made only after a success. -/
theorem Direct.bind {action : Call α} {next : α → Call β} (h : Direct site action)
    (hnext : ∀ a, Direct site (next a)) : Direct site (action >>= next) := by
  intro wire
  obtain ⟨requests, hwire, htells⟩ := h wire
  cases hon : action.on wire with
  | mk result wire' =>
      rw [hon] at hwire htells
      dsimp only at hwire htells
      cases result with
      | ok a =>
          obtain ⟨more, hmore, htold⟩ := hnext a wire'
          rw [on_bind_ok hon]
          refine ⟨requests ++ more, ?_, ?_⟩
          · rw [hmore, hwire, Wire.sendAll_append]
          · rw [List.length_append]
            exact tells_append rfl htells (hwire ▸ htold)
      | error trouble =>
          rw [on_bind_error hon]
          refine ⟨requests, hwire, ?_⟩
          cases trouble with
          | call e => exact htells
          | file e => exact htells.elim
          | fault f => exact htells.elim

/-- Creating a memory is a single call whose answer is read in full. -/
theorem direct_createMemory (payload : Record) : Direct site (site.createMemory payload) := by
  refine (direct_call _ _ _ _).bind fun content => ?_
  split
  · exact direct_pure _
  · exact direct_pure _

/-- Uploading an image is a single call, and its answer is looked through for
the address. -/
theorem direct_uploadImage (image : Content) (filename : String)
    (description tags album : Json) :
    Direct site (site.uploadImage image filename description tags album) :=
  (direct_call _ _ _ _).bind fun _ => direct_pure _

-- ============================================================== faults

/-- Whether every fault that an action stops at has a property. -/
def Stops (P : Fault → Prop) (action : Call α) : Prop :=
  ∀ (wire : Wire) (f : Fault), (action.on wire).1 = .error (.fault f) → P f

/-- Whether an action never stops at a fault: at most a call fails, or a
file cannot be read. -/
abbrev Faultless (action : Call α) : Prop := Stops (fun _ => False) action

variable {F : Fault → Prop}

theorem stops_pure (a : α) : Stops F (pure a : Call α) := by
  intro wire f h
  cases h

/-- A failed call is no fault. -/
theorem stops_throw_call (e : CallError) : Stops F (throw (.call e) : Call α) := by
  intro wire f h
  cases h

/-- What stands behind a failed call does not count. -/
theorem stops_throw_call_bind (e : CallError) (next : α → Call β) :
    Stops F (throw (.call e) >>= next) := by
  intro wire f h
  rw [on_bind_error (on_throw (.call e) wire)] at h
  cases h

/-- What was found before has no fault but its own. -/
theorem stops_found {found : Except Trouble α} (h : ∀ f, found = .error (.fault f) → F f) :
    Stops F (ExceptT.mk (pure found) : Call α) := fun _ f => h f

/-- A computation has the same faults as an action. -/
theorem stops_ofExcept {value : Except Fault α} (h : ∀ f, value = .error f → F f) :
    Stops F (Call.ofExcept value) := by
  intro wire f hfault
  cases value with
  | ok a => cases hfault
  | error f' =>
      cases hfault
      exact h f rfl

/-- Actions one behind the other stop where one of them does. -/
theorem Stops.bind {action : Call α} {next : α → Call β} (h : Stops F action)
    (hnext : ∀ a, Stops F (next a)) : Stops F (action >>= next) := by
  intro wire f
  cases hon : action.on wire with
  | mk result wire' =>
      cases result with
      | ok a =>
          rw [on_bind_ok hon]
          exact hnext a wire' f
      | error trouble =>
          rw [on_bind_error hon]
          intro hfault
          refine h wire f ?_
          rw [hon]
          exact congrArg Except.error (Except.error.inj hfault)

/-- A handler is given the faults at which the action stops. -/
theorem Stops.catch {action : Call α} {handler : Trouble → Call α} (h : Stops F action)
    (hhandler : ∀ trouble, (∀ f, trouble = .fault f → F f) → Stops F (handler trouble)) :
    Stops F (tryCatch action handler) := by
  intro wire f
  cases hon : action.on wire with
  | mk result wire' =>
      cases result with
      | ok a =>
          rw [on_catch_ok hon]
          intro hfault
          cases hfault
      | error trouble =>
          rw [on_catch_error hon]
          refine hhandler trouble (fun f' hf' => h wire f' ?_) wire' f
          rw [hon, hf']

/-- A direct action fails with a call only. -/
theorem Direct.stops {action : Call α} (h : Direct site action) : Stops F action := by
  intro wire f hfault
  obtain ⟨requests, -, htells⟩ := h wire
  rw [hfault] at htells
  exact htells.elim

/-- A call fails, but it stops at no fault. -/
theorem stops_call {method : Method} {path : String} {query : Option Record} {body : Body} :
    Stops F (site.call method path query body) := (direct_call method path query body).stops

end Daybook.Backend

namespace Daybook.World

open Http Backend

variable {α : Type} {P Q : Request → Prop}

-- ============================================================ the world

/-- What an action does to the world is what it does to its wire. -/
theorem run_eq (world : World) (action : Call α) :
    world.run action = ((action.on world.wire).1, { world with wire := (action.on world.wire).2 }) :=
  rfl

theorem result_of_run {world after : World} {action : Call α} {result : Except Trouble α}
    (h : world.run action = (result, after)) : (action.on world.wire).1 = result :=
  congrArg Prod.fst h

/-- Whether all requests made between two states of the surroundings have
a property, those made before staying in front. -/
def Sent (P : Request → Prop) (before after : World) : Prop :=
  ∃ new, after.wire.sent = before.wire.sent ++ new ∧ ∀ request ∈ new, P request

/-- A step that leaves the wire alone has sent nothing that could lack a
property. -/
theorem Sent.of_wire {before after : World} (h : after.wire = before.wire) : Sent P before after :=
  ⟨[], by rw [h, List.append_nil], fun _ hmem => absurd hmem List.not_mem_nil⟩

theorem Sent.refl (world : World) : Sent P world world := .of_wire rfl

theorem Sent.mono {before after : World} (h : Sent P before after)
    (hPQ : ∀ request, P request → Q request) : Sent Q before after := by
  obtain ⟨new, hsent, hnew⟩ := h
  exact ⟨new, hsent, fun request hmem => hPQ request (hnew request hmem)⟩

/-- What was sent in two steps has the property if it has it in each of them. -/
theorem Sent.trans {first second third : World}
    (h : Sent P first second) (h' : Sent P second third) : Sent P first third := by
  obtain ⟨new, hsent, hnew⟩ := h
  obtain ⟨more, hmore, hall⟩ := h'
  refine ⟨new ++ more, by rw [hmore, hsent, List.append_assoc], fun request hmem => ?_⟩
  rcases List.mem_append.mp hmem with hmem | hmem
  · exact hnew request hmem
  · exact hall request hmem

/-- An action in a world sends what it sends on the wire. -/
theorem sent_run (world : World) {action : Call α} (h : Sends P action) :
    Sent P world (world.run action).2 := h world.wire

/-- The requests made between two states of the surroundings. -/
def requestsSince (before after : World) : List Request :=
  after.wire.sent.drop before.wire.sent.length

/-- The requests between two worlds are those that were added. -/
theorem requestsSince_of_sent {before after : World} {new : List Request}
    (h : after.wire.sent = before.wire.sent ++ new) : requestsSince before after = new := by
  unfold requestsSince
  rw [h, List.drop_left]

/-- They are told by the wire as well. -/
theorem requestsSince_of_wire {before after : World} {requests : List Request}
    (h : after.wire = before.wire.sendAll requests) : requestsSince before after = requests :=
  requestsSince_of_sent (by rw [h, Wire.sent_sendAll])

/-- What is known of all that was sent holds of each request. -/
theorem Sent.all {before after : World} (h : Sent P before after) :
    ∀ request ∈ requestsSince before after, P request := by
  obtain ⟨new, hsent, hnew⟩ := h
  rw [requestsSince_of_sent hsent]
  exact hnew

/-- Queueing an entry makes no request. -/
theorem wire_of_queued {before after : World} {e : CallError} {kind : String}
    {payload : Option Json} (h : before.queueUnreached e kind payload = .queued after) :
    after.wire = before.wire := by
  unfold queueUnreached queue at h
  split at h
  · split at h
    · split at h
      · next hqueued =>
          cases h
          cases happend : Outbox.append before.outbox before.disk (.str kind) _ with
          | ok disk =>
              rw [happend] at hqueued
              cases hqueued
              rfl
          | error refusal =>
              rw [happend] at hqueued
              cases hqueued
      · cases h
      · cases h
    · cases h
  · cases h

/-- Nothing is sent in trying to queue an entry that has no text. -/
theorem wire_of_faulty {before after : World} {e : CallError} {kind : String}
    {payload : Option Json} {f : Fault}
    (h : before.queueUnreached e kind payload = .faulty f after) : after.wire = before.wire := by
  unfold queueUnreached queue at h
  split at h
  · split at h
    · split at h
      · cases h
      · cases h
      · cases h
        rfl
    · cases h
  · cases h

end Daybook.World
