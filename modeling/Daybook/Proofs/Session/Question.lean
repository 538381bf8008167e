/-
What the question before a deletion says of the requests that follow a
yes.

The question is made from the scope of the deletion, and the requests are
too.  What the question shows can be read off it again: no two kinds of
question begin alike (`opening_eq_of_question`), and what stands behind the
beginning spells the tags, the category or the id.  One thing is not
shown: the category of a deletion that goes by tags.  So two deletions
with the same question reach the same, unless they go by tags and differ in
the category (`same_requests_iff`).
-/
import Daybook.Proofs.Session.Run
import Daybook.Proofs.Session.Deletion
import Daybook.Proofs.Session.Confirmed

namespace Daybook

open Backend Http
open Message (reply note)

-- ========================================================== the question

namespace Scope

/-- How the question for a scope begins. -/
def opening : Scope → String
  | .everything =>
    "Are you sure you want to DELETE ALL memories? This cannot be undone! (yes/no)"
  | .matching _ [] => "Are you sure you want to delete all memories in category: "
  | .matching _ (_ :: _) => "Are you sure you want to delete all memories with tags: "
  | .single target _ => "Are you sure you want to delete " ++ target.name ++ " #"

/-- What stands behind the beginning of the question. -/
def subject : Scope → String
  | .everything => ""
  | .matching category [] => category.getD "" ++ "? (yes/no)"
  | .matching _ (tag :: tags) => ", ".intercalate (tag :: tags) ++ "? (yes/no)"
  | .single _ id => id ++ "? (yes/no)"

/-- The scope as far as the question shows it: not the category beside
tags. -/
def shown : Scope → Scope
  | .matching _ (tag :: tags) => .matching none (tag :: tags)
  | scope => scope

theorem question_eq (scope : Scope) : scope.question = scope.opening ++ scope.subject := by
  match scope with
  | .everything => rfl
  | .matching _ [] => exact String.append_assoc
  | .matching _ (_ :: _) => exact String.append_assoc
  | .single _ _ => exact String.append_assoc

/-- The sort of a scope: what alone decides how its question begins. -/
def sort : Scope → Scope
  | .everything => .everything
  | .matching _ [] => .matching none []
  | .matching _ (_ :: _) => .matching none [""]
  | .single target _ => .single target ""

theorem opening_sort (scope : Scope) : scope.sort.opening = scope.opening := by
  match scope with
  | .everything => rfl
  | .matching _ [] => rfl
  | .matching _ (_ :: _) => rfl
  | .single _ _ => rfl

/-- The sorts of scopes. -/
def sorts : List Scope :=
  [.everything, .matching none [], .matching none [""], .single .memory "", .single .picture "",
    .single .image ""]

theorem sort_mem (scope : Scope) : scope.sort ∈ sorts := by
  match scope with
  | .everything => decide
  | .matching _ [] => show Scope.matching none [] ∈ sorts; decide
  | .matching _ (_ :: _) => show Scope.matching none [""] ∈ sorts; decide
  | .single target _ =>
      show Scope.single target "" ∈ sorts
      cases target <;> decide

/-- No question begins with all of the beginning of another sort. -/
theorem eq_of_opening : ∀ scope ∈ sorts, ∀ other ∈ sorts,
    scope.opening.toList <+: other.opening.toList → scope = other := by
  decide +kernel

/-- Questions that are the same are of one sort, and go on alike. -/
theorem sort_eq_of_question {scope other : Scope} (h : scope.question = other.question) :
    scope.sort = other.sort ∧ scope.subject = other.subject := by
  have hsame : scope.sort.opening.toList ++ scope.subject.toList
      = other.sort.opening.toList ++ other.subject.toList := by
    rw [question_eq, question_eq] at h
    rw [opening_sort, opening_sort, ← String.toList_append, ← String.toList_append, h]
  have hsort : scope.sort = other.sort := by
    have hpart : other.sort.opening.toList
        <+: scope.sort.opening.toList ++ scope.subject.toList := by
      rw [hsame]
      exact List.prefix_append _ _
    rcases List.prefix_or_prefix_of_prefix (List.prefix_append _ _) hpart with hbefore | hbefore
    · exact eq_of_opening _ scope.sort_mem _ other.sort_mem hbefore
    · exact (eq_of_opening _ other.sort_mem _ scope.sort_mem hbefore).symm
  rw [hsort] at hsame
  exact ⟨hsort, String.toList_inj.mp (List.append_cancel_left hsame)⟩

/-- Whether a scope can be read off its question: its tags hold no comma,
and without tags it has a category. -/
def Legible : Scope → Prop
  | .matching category tags =>
    (∀ tag ∈ tags, ',' ∉ tag.toList) ∧ (tags = [] → category.isSome = true)
  | _ => True

theorem closed_inj {text other : String} (h : text ++ "? (yes/no)" = other ++ "? (yes/no)") :
    text = other := by
  have hlist := congrArg String.toList h
  rw [String.toList_append, String.toList_append] at hlist
  exact String.toList_inj.mp (List.append_cancel_right hlist)

theorem tags_inj {tags others : List String} (hne : tags ≠ []) (hne' : others ≠ [])
    (h : ∀ tag ∈ tags, ',' ∉ tag.toList) (h' : ∀ tag ∈ others, ',' ∉ tag.toList)
    (hsame : ", ".intercalate tags = ", ".intercalate others) : tags = others := by
  have hseparator : ", ".toList = [',', ' '] := by decide
  have hlist := congrArg String.toList hsame
  rw [String.toList_intercalate, String.toList_intercalate, hseparator] at hlist
  have hmap : tags.map String.toList = others.map String.toList := by
    refine Text.intercalate_inj (fun hnil => hne (List.map_eq_nil_iff.mp hnil))
      (fun hnil => hne' (List.map_eq_nil_iff.mp hnil)) (fun text htext => ?_) (fun text htext => ?_)
      hlist
    · obtain ⟨tag, hmem, rfl⟩ := List.mem_map.mp htext
      exact h tag hmem
    · obtain ⟨tag, hmem, rfl⟩ := List.mem_map.mp htext
      exact h' tag hmem
  exact List.map_injective_iff.mpr (fun _ _ => String.toList_inj.mp) hmap

theorem question_shown (scope : Scope) : scope.shown.question = scope.question := by
  match scope with
  | .everything => rfl
  | .matching _ [] => rfl
  | .matching _ (_ :: _) => rfl
  | .single _ _ => rfl

/-- All that a question shows can be read off it. -/
theorem question_eq_iff {scope other : Scope} (hscope : scope.Legible) (hother : other.Legible) :
    scope.question = other.question ↔ scope.shown = other.shown := by
  constructor
  · intro h
    obtain ⟨hsort, hsubject⟩ := sort_eq_of_question h
    match scope, other, hsort with
    | .everything, .everything, _ => rfl
    | .matching _ [], .matching _ [], _ =>
        obtain ⟨name, rfl⟩ := Option.isSome_iff_exists.mp (hscope.2 rfl)
        obtain ⟨name', rfl⟩ := Option.isSome_iff_exists.mp (hother.2 rfl)
        have hname : name = name' := closed_inj hsubject
        rw [hname]
    | .matching _ (tag :: tags), .matching _ (tag' :: tags'), _ =>
        have htags : tag :: tags = tag' :: tags' :=
          tags_inj (List.cons_ne_nil _ _) (List.cons_ne_nil _ _) hscope.1 hother.1
            (closed_inj hsubject)
        show Scope.matching none (tag :: tags) = .matching none (tag' :: tags')
        rw [htags]
    | .single target id, .single target' id', hsort =>
        have hid : id = id' := closed_inj hsubject
        have htarget : target = target' := (Scope.single.inj hsort).1
        rw [hid, htarget]
    | .everything, .matching _ [], hsort => cases hsort
    | .everything, .matching _ (_ :: _), hsort => cases hsort
    | .single _ _, .matching _ [], hsort => cases hsort
    | .single _ _, .matching _ (_ :: _), hsort => cases hsort
  · intro h
    rw [← question_shown, h, question_shown]

/-- Scopes that are shown alike are the same, or go by the same tags. -/
theorem eq_or_tags_of_shown {scope other : Scope} (h : scope.shown = other.shown) :
    scope = other ∨ ∃ category category' tags, tags ≠ [] ∧ scope = .matching category tags
      ∧ other = .matching category' tags := by
  have hcases (scope : Scope) : (scope.shown = scope ∧ ∀ category tag tags,
      scope ≠ .matching category (tag :: tags))
      ∨ ∃ category tag tags, scope = .matching category (tag :: tags) :=
    match scope with
    | .everything => .inl ⟨rfl, fun _ _ _ => Scope.noConfusion⟩
    | .matching _ [] => .inl ⟨rfl, fun _ _ _ hsame => nomatch (Scope.matching.inj hsame).2⟩
    | .matching category (tag :: tags) => .inr ⟨category, tag, tags, rfl⟩
    | .single _ _ => .inl ⟨rfl, fun _ _ _ => Scope.noConfusion⟩
  rcases hcases scope with ⟨hself, hother⟩ | ⟨category, tag, tags, rfl⟩
  · rcases hcases other with ⟨hself', -⟩ | ⟨category', tag', tags', rfl⟩
    · exact .inl (hself.symm.trans (h.trans hself'))
    · exact absurd (hself.symm.trans h) (hother none tag' tags')
  · rcases hcases other with ⟨hself', hother'⟩ | ⟨category', tag', tags', rfl⟩
    · exact absurd (hself'.symm.trans h.symm) (hother' none tag tags)
    · have htags : tag :: tags = tag' :: tags' := (Scope.matching.inj h).2
      exact .inr ⟨category, category', tag :: tags, List.cons_ne_nil _ _, rfl, by rw [htags]⟩

end Scope

-- ===================================================== scopes of deletions

namespace Deletion

variable {deletion other : Deletion}

/-- Whether a deletion goes by a scope. -/
def GoesBy (deletion : Deletion) : Scope → Prop
  | .everything => deletion.everything = true
  | .matching category tags => deletion.everything = false ∧ deletion.category = category
    ∧ deletion.tags = tags ∧ (tags ≠ [] ∨ category.isSome = true)
  | .single _ _ => deletion.everything = false ∧ deletion.tags = [] ∧ deletion.category = none

theorem goesBy_of_scope? {scope : Scope} (h : deletion.scope? = some scope) :
    deletion.GoesBy scope := by
  unfold scope? at h
  split at h
  · next heverything =>
      cases h
      exact heverything
  · next hsome =>
      have hsome : deletion.everything = false := Bool.eq_false_iff.mpr hsome
      split at h
      · next hfilter =>
          cases h
          exact ⟨hsome, rfl, rfl, hfilter⟩
      · next hfilter =>
          obtain ⟨id, -, rfl⟩ := Option.map_eq_some_iff.mp h
          exact ⟨hsome, Classical.byContradiction fun htags => hfilter (.inl htags),
            Option.not_isSome_iff_eq_none.mp fun hcategory => hfilter (.inr hcategory)⟩

/-- The scope of a deletion that was read from a line can be read off its
question. -/
theorem legible_of_read {line : String} {scope : Scope}
    (hread : Instruction.read line = .delete deletion) (h : deletion.scope? = some scope) :
    scope.Legible := by
  have hgoes := goesBy_of_scope? h
  match scope with
  | .everything => trivial
  | .matching category tags =>
      obtain ⟨-, -, rfl, hfilter⟩ := hgoes
      exact ⟨Instruction.not_mem_of_read hread, fun hnil => hfilter.resolve_left (not_not_intro hnil)⟩
  | .single _ _ => trivial

/-- Scopes that are shown alike are the same, unless they go by tags and
differ in the category. -/
theorem scope_eq_iff {scope scope' : Scope} (h : deletion.scope? = some scope)
    (h' : other.scope? = some scope') (hshown : scope.shown = scope'.shown) :
    scope = scope' ↔ deletion.everything = true ∨ deletion.tags = []
      ∨ deletion.category = other.category := by
  have hgoes := goesBy_of_scope? h
  have hgoes' := goesBy_of_scope? h'
  rcases Scope.eq_or_tags_of_shown hshown with rfl | ⟨category, category', tags, hne, rfl, rfl⟩
  · refine ⟨fun _ => ?_, fun _ => rfl⟩
    match scope with
    | .everything => exact .inl hgoes
    | .matching category tags => exact .inr (.inr (hgoes.2.1.trans hgoes'.2.1.symm))
    | .single _ _ => exact .inr (.inl hgoes.2.1)
  · obtain ⟨hsome, hcategory, htags, -⟩ := hgoes
    obtain ⟨-, hcategory', -, -⟩ := hgoes'
    rw [hcategory, hcategory', htags, hsome]
    constructor
    · intro hsame
      exact .inr (.inr (Scope.matching.inj hsame).1)
    · rintro (hfalse | hnil | hsame)
      · cases hfalse
      · exact absurd hnil hne
      · rw [hsame]

/-- The request of a deletion by tags tells its category. -/
theorem category_of_request {site : Site}
    (h : [site.deletion "/memories" (some deletion.filters)]
      = [site.deletion "/memories" (some other.filters)]) (htags : deletion.tags = other.tags) :
    deletion.category = other.category := by
  have hfilters : deletion.filters = other.filters :=
    Option.some.inj (congrArg Request.query (List.cons.inj h).1)
  unfold filters at hfilters
  rw [htags] at hfilters
  have hfield := List.append_cancel_right hfilters
  cases hcategory : deletion.category with
  | none =>
      cases hcategory' : other.category with
      | none => rfl
      | some category' =>
          rw [hcategory, hcategory'] at hfield
          cases hfield
  | some category =>
      cases hcategory' : other.category with
      | none =>
          rw [hcategory, hcategory'] at hfield
          cases hfield
      | some category' =>
          rw [hcategory, hcategory'] at hfield
          cases hfield
          rfl

end Deletion

namespace Session

variable {session : Session} {line answer question : String} {deletion : Deletion} {world : World}

-- ========================================================== two steps

/-- A line that asks for a deletion: it is answered with the question, and
the deletion waits from then on. -/
structure Asks (session : Session) (line : String) (world : World) (deletion : Deletion)
    (question : String) : Prop where
  shown : (session.handle line world).reply
    = .ok [⟨session.username, Text.trimmed line, .text⟩, reply question]
  waiting : (session.handle line world).session.waiting? = some deletion

/-- The requests that are made when a line is followed by an answer. -/
def requestsOf (session : Session) (line answer : String) (world : World) : List Request :=
  let asked := session.handle line world
  World.requestsSince world (asked.session.handle answer asked.world).world

/-- A deletion is asked for and nothing else happens. -/
theorem handle_delete (hidle : session.flow = .idle) (hgate : session.gate.pending = none)
    (hread : Instruction.read (Text.trimmed line) = .delete deletion) {scope : Scope}
    (hscope : deletion.scope? = some scope) :
    session.handle line world
      = ⟨.ok [⟨session.username, Text.trimmed line, .text⟩, reply scope.question],
        { session with
          gate := ⟨some ⟨"delete", .delete deletion, scope.question⟩⟩, flow := .confirming },
        world⟩ := by
  rw [handle_read hidle hread fun _ => Instruction.noConfusion]
  unfold carryOut delete
  dsimp only
  rw [hscope]
  dsimp only
  rw [confirm_eq hgate]
  rfl

theorem take_line (session : Session) (line : String) (world : World) :
    session.take (.line line) world = session.handle line world := rfl

/-- A line that asks for a deletion is read as that deletion, and its
question is that for its scope. -/
theorem Asks.read (h : session.Asks line world deletion question) (hidle : session.flow = .idle)
    (hgate : session.gate.pending = none) :
    ∃ scope, Instruction.read (Text.trimmed line) = .delete deletion
      ∧ deletion.scope? = some scope ∧ question = scope.question := by
  have hcoherent : session.Coherent := coherent_of_empty hgate
    (by rw [hidle]; exact Flow.noConfusion) fun form hform => by rw [hidle] at hform; cases hform
  have hwaiting := h.waiting
  have hturned := (take_spec hcoherent (.line line) world).turned.gate
  rw [take_line] at hturned
  rcases hturned with hsame | hempty | ⟨text, action, hinput, -, hasked, hafter⟩
  · rw [waiting?_of_gate hsame, waiting?_of_empty hgate] at hwaiting
    cases hwaiting
  · rw [waiting?_of_empty (congrArg Gate.pending hempty)] at hwaiting
    cases hwaiting
  · cases hinput
    have hpending := congrArg Gate.pending hafter
    cases hasked with
    | @delete asked scope hread hscope =>
        rw [waiting?_of_pending hpending rfl] at hwaiting
        cases hwaiting
        have hshown := h.shown
        rw [handle_delete hidle hgate hread hscope] at hshown
        simp only [Except.ok.injEq, List.cons.injEq, reply, Message.mk.injEq, true_and, and_true]
          at hshown
        exact ⟨scope, hread, hscope, hshown.symm⟩
    | edit prompt htype =>
        unfold waiting? at hwaiting
        rw [hpending] at hwaiting
        cases hwaiting

/-- A line that is read as a deletion with a scope asks for it. -/
theorem asks_of_read (hidle : session.flow = .idle) (hgate : session.gate.pending = none)
    (hread : Instruction.read (Text.trimmed line) = .delete deletion) {scope : Scope}
    (hscope : deletion.scope? = some scope) :
    session.Asks line world deletion scope.question := by
  have hhandle : session.handle line world = _ := handle_delete hidle hgate hread hscope
  exact ⟨by rw [hhandle], by rw [hhandle]; rfl⟩

/-- Behind a yes the deletion that waits is carried out. -/
theorem handle_yes {kind prompt : String} (hflow : session.flow = .confirming)
    (hpending : session.gate.pending = some ⟨kind, .delete deletion, prompt⟩)
    (hyes : Gate.decisionOf (Text.trimmed answer) = .yes) :
    session.handle answer world
      = let outcome := { session with gate := .empty, flow := .idle }.carryOutDelete deletion world
        { outcome with
          reply := outcome.reply.map (⟨session.username, Text.trimmed answer, .text⟩ :: ·) } := by
  have hne : Text.trimmed answer ≠ "" := by
    intro hempty
    rw [hempty] at hyes
    exact absurd hyes (by decide)
  rw [handle_eq hne]
  unfold route
  rw [hflow]
  dsimp only
  unfold settle Gate.resolve
  rw [hpending]
  dsimp only
  rw [hyes]
  rfl

/-- What a deletion does depends on its scope alone. -/
theorem world_carryOutDelete {other : Deletion} (h : deletion.scope? = other.scope?) :
    (session.carryOutDelete deletion world).world = (session.carryOutDelete other world).world := by
  unfold carryOutDelete
  rw [h]
  dsimp only
  split
  · rw [world_deleteMany, world_deleteMany]
  · rw [world_deleteMany, world_deleteMany]
  · rw [world_deleteOne, world_deleteOne]
  · rfl

/-- The requests behind a yes are those of the deletion that was asked
for. -/
theorem requestsOf_delete (hidle : session.flow = .idle) (hgate : session.gate.pending = none)
    (hread : Instruction.read (Text.trimmed line) = .delete deletion) {scope : Scope}
    (hscope : deletion.scope? = some scope)
    (hyes : Gate.decisionOf (Text.trimmed answer) = .yes) :
    session.requestsOf line answer world = World.requestsSince world
      ({ session with gate := .empty, flow := .idle }.carryOutDelete deletion world).world := by
  unfold requestsOf
  rw [handle_delete hidle hgate hread hscope]
  dsimp only
  rw [handle_yes rfl rfl hyes]

/-- The requests of a deletion by tags. -/
theorem requests_of_tags (hplain : deletion.Plain) {category : Option String} {tags : List String}
    (hscope : deletion.scope? = some (.matching category tags)) :
    World.requestsSince world (session.carryOutDelete deletion world).world
      = [world.site.deletion "/memories" (some deletion.filters)] := by
  obtain ⟨-, rfl, rfl, hfilter⟩ := Deletion.goesBy_of_scope? hscope
  unfold carryOutDelete
  rw [hscope]
  exact World.requestsSince_of_sent (sent_deleteMany hplain hfilter _)

-- ========================================================== main result

variable {other : String} {deletion' : Deletion}

/-- Two lines that ask the same question make the same requests behind a
yes, unless they go by tags and name another category: the question shows
everything, the id, the category or the tags, but not the category beside
tags. -/
theorem same_requests_iff (hidle : session.flow = .idle) (hgate : session.gate.pending = none)
    (h : session.Asks line world deletion question)
    (h' : session.Asks other world deletion' question)
    (hyes : Gate.decisionOf (Text.trimmed answer) = .yes) :
    session.requestsOf line answer world = session.requestsOf other answer world
      ↔ deletion.everything = true ∨ deletion.tags = [] ∨ deletion.category = deletion'.category := by
  obtain ⟨scope, hread, hscope, hquestion⟩ := h.read hidle hgate
  obtain ⟨scope', hread', hscope', hquestion'⟩ := h'.read hidle hgate
  have hshown : scope.shown = scope'.shown :=
    (Scope.question_eq_iff (Deletion.legible_of_read hread hscope)
      (Deletion.legible_of_read hread' hscope')).mp (hquestion.symm.trans hquestion')
  rw [requestsOf_delete hidle hgate hread hscope hyes,
    requestsOf_delete hidle hgate hread' hscope' hyes,
    ← Deletion.scope_eq_iff hscope hscope' hshown]
  constructor
  · intro hsame
    rcases Scope.eq_or_tags_of_shown hshown with heq | ⟨category, category', tags, -, rfl, rfl⟩
    · exact heq
    · rw [requests_of_tags (Instruction.plain_of_read hread) hscope,
        requests_of_tags (Instruction.plain_of_read hread') hscope'] at hsame
      obtain ⟨-, hcategory, htags, -⟩ := Deletion.goesBy_of_scope? hscope
      obtain ⟨-, hcategory', htags', -⟩ := Deletion.goesBy_of_scope? hscope'
      rw [← hcategory, ← hcategory', Deletion.category_of_request hsame (htags.trans htags'.symm)]
  · intro hsame
    rw [world_carryOutDelete (hscope.trans ((congrArg some hsame).trans hscope'.symm))]

/-- Filters do not count where everything is to be deleted. -/
theorem same_requests_iff_everything :
    let world : World := ⟨⟨"http://api.test/api", none⟩, ⟨[], .lost, []⟩, ⟨"/home", [], []⟩, .writable⟩
    let deletion : Deletion := ⟨.memory, none, true, [], none⟩
    let deletion' : Deletion := ⟨.memory, none, true, ["work"], some "happy"⟩
    (start "ada").Asks "delete all" world deletion Scope.everything.question
      ∧ (start "ada").Asks "delete all tags: work category: happy" world deletion'
        Scope.everything.question
      ∧ ((start "ada").requestsOf "delete all" "yes" world
          = (start "ada").requestsOf "delete all tags: work category: happy" "yes" world
        ↔ deletion.everything = true ∨ deletion.tags = []
          ∨ deletion.category = deletion'.category) := by
  intro world deletion deletion'
  have hread : Instruction.read (Text.trimmed "delete all") = .delete deletion := by
    decide +kernel
  have hread' : Instruction.read (Text.trimmed "delete all tags: work category: happy")
      = .delete deletion' := by decide +kernel
  have hasks : (start "ada").Asks "delete all" world deletion Scope.everything.question :=
    asks_of_read rfl rfl hread rfl
  have hasks' : (start "ada").Asks "delete all tags: work category: happy" world deletion'
      Scope.everything.question := asks_of_read rfl rfl hread' rfl
  exact ⟨hasks, hasks', same_requests_iff rfl rfl hasks hasks' (by decide)⟩

/-- A category beside the tags goes unmentioned in the question and is sent
all the same. -/
theorem same_question_other_requests :
    let world : World := ⟨⟨"http://api.test/api", none⟩, ⟨[], .lost, []⟩, ⟨"/home", [], []⟩, .writable⟩
    let question := "Are you sure you want to delete all memories with tags: work? (yes/no)"
    (start "ada").Asks "delete memories tags: work" world ⟨.memory, none, false, ["work"], none⟩
        question
      ∧ (start "ada").Asks "delete memories tags: work category: happy" world
        ⟨.memory, none, false, ["work"], some "happy"⟩ question
      ∧ (start "ada").requestsOf "delete memories tags: work" "yes" world
        ≠ (start "ada").requestsOf "delete memories tags: work category: happy" "yes" world := by
  intro world question
  have hread : Instruction.read (Text.trimmed "delete memories tags: work")
      = .delete ⟨.memory, none, false, ["work"], none⟩ := by decide +kernel
  have hread' : Instruction.read (Text.trimmed "delete memories tags: work category: happy")
      = .delete ⟨.memory, none, false, ["work"], some "happy"⟩ := by decide +kernel
  refine ⟨asks_of_read rfl rfl hread rfl, asks_of_read rfl rfl hread' rfl, fun hsame => ?_⟩
  rw [requestsOf_delete rfl rfl hread rfl (by decide),
    requestsOf_delete rfl rfl hread' rfl (by decide),
    requests_of_tags (Instruction.plain_of_read hread) rfl,
    requests_of_tags (Instruction.plain_of_read hread') rfl] at hsame
  have hcategory := Deletion.category_of_request hsame rfl
  cases hcategory

end Session
end Daybook
