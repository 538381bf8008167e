/-
What is expected of the answers of the backend.

A successful answer is taken apart in many places: memories are listed and
shown, one memory is opened for revision, deleted ones are counted.
`Expected` gathers what those places need of its fields; an answer may lack
any of them, and hold whatever else it likes.  Failures may be anything.

`Yields` follows an action along answers of that kind: it stops at no
fault, and its result has some property.  It goes through `bind` and caught
failures like the views of an action on any answers, and each action on the
backend has its own lemma.
-/
import Daybook.Proofs.Revision.Places
import Daybook.Proofs.Session.Deletion

namespace Daybook

open Backend Http

-- ============================================================= memories

/-- Whether the tags of a memory are a list of strings; there may be none. -/
def Tagged (memory : Record) : Prop :=
  ∃ tags : List JsonString, (Record.get memory "tags").IsList (tags.map .str)

/-- Whether a value is a memory as memories are listed. -/
def Listed (value : Json) : Prop := ∃ memory, value = .obj memory ∧ Tagged memory

/-- Whether a memory has a type, and if that names a kind of entry the
fields of one. -/
structure Complete (memory : Record) : Prop where
  tagged : Tagged memory
  type : ∃ name, (Record.get memory "type").IsText name
  entry : ∀ kind : Entry.Kind, Record.get memory "type" = .ofText kind.name →
    Entry.WellTyped memory kind

/-- A memory of the right types has tags that are a list of texts. -/
theorem tagged_of_wellTyped {kind : Entry.Kind} {memory : Record} (h : Entry.WellTyped memory kind) :
    Tagged memory := by
  cases h with
  | page _ hpage => exact ⟨_, hpage.tags⟩
  | image _ _ htags => exact ⟨_, htags⟩

/-- Whether fields to be set hold a list of strings wherever they set the
tags. -/
def TagsFit (fields : Record) : Prop :=
  ∀ field ∈ fields, field.1 = "tags" → ∃ tags : List JsonString, field.2.IsList (tags.map .str)

/-- Fields whose tags fit, merged into such a memory, leave it one. -/
theorem tagged_merge {record other : Record} (h : Tagged record) (hother : TagsFit other) :
    Tagged (Record.merge record other) := by
  induction other generalizing record with
  | nil => exact h
  | cons field other ih =>
      have hset : Tagged (Record.set record field.1 field.2) := by
        unfold Tagged
        by_cases hkey : field.1 = "tags"
        · rw [hkey, Record.get_set_self]
          exact hother field List.mem_cons_self hkey
        · rw [Record.get_set_of_ne _ _ hkey]
          exact h
      exact ih hset fun later hmem => hother later (List.mem_cons_of_mem _ hmem)

theorem TagsFit.nil : TagsFit [] := fun _ hmem => absurd hmem List.not_mem_nil

/-- One more field fits, if it holds a list of texts or is not for the tags. -/
theorem TagsFit.cons {key : JsonString} {value : Json} {rest : Record} (h : TagsFit rest)
    (hvalue : key = "tags" → ∃ tags : List JsonString, value.IsList (tags.map .str)) :
    TagsFit ((key, value) :: rest) := by
  intro field hmem hkey
  rcases List.mem_cons.mp hmem with rfl | hmem
  · exact hvalue hkey
  · exact h field hmem hkey

theorem TagsFit.other {key : JsonString} {value : Json} {rest : Record} (h : TagsFit rest)
    (hkey : key ≠ "tags") : TagsFit ((key, value) :: rest) := h.cons fun htags => absurd htags hkey

/-- What is sent of a readable copy sets the tags to strings. -/
theorem tagsFit_payload (kind : Entry.Kind) {copy : Copy} (hcopy : copy.Readable) :
    TagsFit (copy.payload kind) := by
  obtain ⟨tags, htags⟩ := hcopy.tags
  have hlist : ("tags" : JsonString) = "tags" →
      ∃ tags : List JsonString, (Json.arr copy.tags).IsList (tags.map .str) :=
    fun _ => ⟨tags, .inl (congrArg Json.arr htags)⟩
  have htail : ∀ key : JsonString, key ≠ "tags" → TagsFit [(key, copy.elementsJson)] :=
    fun _ hkey => TagsFit.nil.other hkey
  have hcommon : ∀ {rest : Record}, TagsFit rest → TagsFit (("content", copy.title)
      :: ("tags", .arr copy.tags) :: ("category", copy.category) :: rest) := fun hrest =>
    ((hrest.other (by decide)).cons hlist).other (by decide)
  cases kind with
  | image => exact (TagsFit.nil.cons hlist).other (by decide)
  | table => exact hcommon ((htail "rows" (by decide)).other (by decide))
  | list => exact hcommon (htail "items" (by decide))
  | timeline => exact hcommon (htail "events" (by decide))

/-- A memory that was revised has the tags of the copy. -/
theorem tagged_revised {revision : Revision} (hcopy : revision.copy.Readable)
    (hmemory : Tagged revision.memory) : Tagged revision.revised :=
  tagged_merge hmemory (tagsFit_payload revision.kind hcopy)

namespace Backend

variable {α β : Type} {site : Site} {P : α → Prop} {Q : β → Prop}

-- ============================================================== answers

/-- What is expected of the content of an answer. -/
structure Expected (content : Record) : Prop where
  memory : ∀ memory, Record.get content "memory" = .obj memory → Complete memory
  memories : ∃ listed, (Record.get content "memories").IsList listed ∧ ∀ value ∈ listed, Listed value
  tags : TagsFit content
  count : ∀ negative, Record.get content "deletedCount" ≠ .float (.infinite negative)

/-- Whether every answer to come is as expected, if it is a success. -/
def Promised (site : Site) (wire : Wire) : Prop :=
  ∀ n content, decode site (wire.answer n) = .ok content → Expected content

/-- A backend that keeps its promise keeps it for the next request. -/
theorem Promised.send {wire : Wire} (h : Promised site wire) (request : Request) :
    Promised site (wire.send request).2 := by
  intro n content hcontent
  rw [Wire.answer_send] at hcontent
  exact h (n + 1) content hcontent

-- ============================================================== actions

/-- Whether a result is no fault, and has a property if it is no failure. -/
def Settles (P : α → Prop) : Except Trouble α → Prop
  | .ok a => P a
  | .error (.fault _) => False
  | .error _ => True

/-- Whether an action stops at no fault and has a result with some property,
as long as the answers are as expected. -/
def Yields (site : Site) (P : α → Prop) (action : Call α) : Prop :=
  ∀ wire, Promised site wire → Promised site (action.on wire).2 ∧ Settles P (action.on wire).1

/-- What an action yields follows the action: a value, a trouble that is no
fault, a request, and one action after another. -/
theorem yields_pure {a : α} (h : P a) : Yields site P (pure a) := fun _ hwire => ⟨hwire, h⟩

theorem yields_throw (e : CallError) : Yields site P (throw (.call e)) :=
  fun _ hwire => ⟨hwire, trivial⟩

theorem yields_ofExcept {value : Except Fault α} {a : α} (h : value = .ok a) (ha : P a) :
    Yields site P (Call.ofExcept value) := by
  rw [h]
  exact yields_pure ha

/-- The promise is about the answers, so a request yields an expected one. -/
theorem yields_call (method : Method) (path : String) (query : Option Record) (body : Body) :
    Yields site Expected (site.call method path query body) := by
  intro wire hwire
  rw [on_call]
  refine ⟨hwire.send _, ?_⟩
  cases hdecode : decode site (wire.answer 0) with
  | ok content => exact hwire 0 content hdecode
  | error e => trivial

theorem Yields.bind {action : Call α} {next : α → Call β} (h : Yields site P action)
    (hnext : ∀ a, P a → Yields site Q (next a)) : Yields site Q (action >>= next) := by
  intro wire hwire
  obtain ⟨hafter, hresult⟩ := h wire hwire
  cases hon : action.on wire with
  | mk result after =>
      rw [hon] at hafter hresult
      cases result with
      | ok a =>
          rw [on_bind_ok hon]
          exact hnext a hresult after hafter
      | error trouble =>
          rw [on_bind_error hon]
          cases trouble with
          | call e => exact ⟨hafter, trivial⟩
          | file e => exact ⟨hafter, trivial⟩
          | fault f => exact hresult.elim

/-- A fault is not handled, and there is none to handle. -/
theorem Yields.catch {action : Call α} {handler : Trouble → Call α} (h : Yields site P action)
    (hhandler : ∀ trouble, (∀ f, trouble ≠ .fault f) → Yields site P (handler trouble)) :
    Yields site P (tryCatch action handler) := by
  intro wire hwire
  obtain ⟨hafter, hresult⟩ := h wire hwire
  cases hon : action.on wire with
  | mk result after =>
      rw [hon] at hafter hresult
      cases result with
      | ok a =>
          rw [on_catch_ok hon]
          exact ⟨hafter, hresult⟩
      | error trouble =>
          rw [on_catch_error hon]
          refine hhandler trouble (fun f hfault => ?_) after hafter
          rw [hfault] at hresult
          exact hresult.elim

-- ==================================================== actions on memories

/-- Filters can be sent if their tags are texts. -/
theorem listParams_ok {filters : Record}
    (h : ∀ field ∈ filters, field.1 = "tags" → ∃ tags, field.2 = .strings tags) :
    ∃ params, listParams filters = .ok params := by
  induction filters with
  | nil => exact ⟨[], rfl⟩
  | cons field filters ih =>
      obtain ⟨params, hparams⟩ := ih fun other hmem => h other (List.mem_cons_of_mem field hmem)
      unfold listParams
      split
      · exact ⟨params, hparams⟩
      · rw [hparams]
        split
        · next hkey =>
            obtain ⟨tags, htags⟩ := h field List.mem_cons_self hkey
            rw [htags, tagsText_strings]
            exact ⟨_, rfl⟩
        · exact ⟨_, rfl⟩

/-- What the operations of the service yield, one by one. -/
theorem yields_createMemory {payload : Record} (hpayload : Tagged payload) :
    Yields site Tagged (site.createMemory payload) := by
  refine (yields_call _ _ _ _).bind fun content hcontent => ?_
  split
  · next memory hmemory => exact yields_pure (hcontent.memory memory hmemory).tagged
  · exact yields_pure (tagged_merge hpayload hcontent.tags)

theorem yields_memory (id : String) : Yields site Complete (site.memory id) := by
  refine (yields_call _ _ _ _).bind fun content hcontent => ?_
  split
  · next memory hmemory => exact yields_pure (hcontent.memory memory hmemory)
  · exact yields_throw _

/-- A list that is expected holds what can be listed. -/
theorem yields_listed {content : Record} (hcontent : Expected content) :
    Yields site (fun found => ∀ value ∈ found, Listed value) (listed content) := by
  obtain ⟨found, hfound, hlisted⟩ := hcontent.memories
  exact yields_ofExcept (Json.elementsOrNone_of_isList hfound) hlisted

theorem yields_memories {filters params : Record} (hparams : listParams filters = .ok params) :
    Yields site (fun found => ∀ value ∈ found, Listed value) (site.memories filters) :=
  (yields_ofExcept (P := fun _ => True) hparams trivial).bind fun _ _ =>
    (yields_call _ _ _ _).bind fun _ hcontent => yields_listed hcontent

theorem yields_searchMemories {text : String} {filters params : Record}
    (hparams : searchParams text filters = .ok params) :
    Yields site (fun found => ∀ value ∈ found, Listed value) (site.searchMemories text filters) :=
  (yields_ofExcept (P := fun _ => True) hparams trivial).bind fun _ _ =>
    (yields_call _ _ _ _).bind fun _ hcontent => yields_listed hcontent

/-- A count is no fault unless it is infinite. -/
theorem count_ok {value : Json} (h : ∀ negative, value ≠ .float (.infinite negative)) :
    ∃ n, count value = .ok n := by
  unfold count
  split
  · exact ⟨_, rfl⟩
  · exact ⟨_, rfl⟩
  · next negative => exact absurd rfl (h negative)
  · exact ⟨_, rfl⟩
  · exact ⟨_, rfl⟩
  · exact ⟨_, rfl⟩

theorem yields_deleteMemories (everything : Bool) (category : Json) (tags : List String) :
    Yields site (fun _ => True) (site.deleteMemories everything category (.strings tags)) := by
  have hparams : ∃ params, scopeParams everything category (.strings tags) = .ok params := by
    unfold scopeParams
    split
    · exact ⟨_, rfl⟩
    · rw [tagsParam_strings]
      exact ⟨_, rfl⟩
  obtain ⟨params, hparams⟩ := hparams
  unfold Site.deleteMemories
  split
  · exact (yields_throw (P := fun _ => False) _).bind fun _ hnone => hnone.elim
  · refine (yields_ofExcept (P := fun _ => True) hparams trivial).bind fun _ _ =>
      (yields_call _ _ _ _).bind fun content hcontent => ?_
    obtain ⟨n, hn⟩ := count_ok hcontent.count
    exact yields_ofExcept hn trivial

end Backend
end Daybook
