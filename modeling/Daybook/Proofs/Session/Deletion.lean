/-
What carrying out a deletion puts on the wire.

A deletion of everything or by filters is one request to all memories, and
what restricts it is never empty.  A deletion by id is one request to the
memory or to the image with that id.  Only a memory that is shown as an
image takes a second request with it, and that one goes first
(`Deletion.Reaches`).  Nothing else is asked, whatever the answers are; a
value of the wrong shape may only keep the requests from being made.
-/
import Daybook.Proofs.Exchange
import Daybook.Proofs.Instruction.Deletion
import Daybook.Session.Actions

namespace Daybook

open Backend Http

-- ============================================================= requests

/-- The request to delete what is at a path. -/
def Backend.Site.deletion (site : Site) (path : String) (query : Option Record) : Request :=
  ⟨.delete, site.base ++ path, site.token, query, .none⟩

/-- The filters of a deletion as they are sent, the tags with commas
between them. -/
def Deletion.filters (deletion : Deletion) : Record :=
  (match deletion.category with
    | some category => [("category", .str category)]
    | none => [] : Record) ++
  (if deletion.tags = [] then [] else [("tags", .str (",".intercalate deletion.tags))] : Record)

/-- The image that goes with a memory that is shown as one. -/
def imageIdOf (fields : Record) (id : String) : String :=
  ((Record.get fields "image_id").orElse (.str id)).text

/-- The requests that a deletion makes if it makes any. -/
inductive Deletion.Reaches (site : Site) (visible : List Json) (deletion : Deletion) :
    List Request → Prop
  | everything (h : deletion.everything = true) :
    Reaches site visible deletion [site.deletion "/memories" (some [("deleteAll", .str "true")])]
  | filtered (heverything : deletion.everything = false)
    (hfilter : deletion.tags ≠ [] ∨ deletion.category.isSome) (hfilters : deletion.filters ≠ [])
    (hvalues : ∀ field ∈ deletion.filters, field.2 ≠ .str "") :
    Reaches site visible deletion [site.deletion "/memories" (some deletion.filters)]
  | memory {id : String} (heverything : deletion.everything = false) (htags : deletion.tags = [])
    (hcategory : deletion.category = none) (htarget : deletion.target = .memory)
    (hid : deletion.id = some id) :
    Reaches site visible deletion [site.deletion ("/memories/" ++ id) none]
  | imaged {id : String} {fields : Record} (heverything : deletion.everything = false)
    (htags : deletion.tags = []) (hcategory : deletion.category = none)
    (htarget : deletion.target = .memory) (hid : deletion.id = some id)
    (hshown : Session.findVisible id visible = .ok (some (.obj fields)))
    (htype : Record.get fields "type" = .ofText "image") :
    Reaches site visible deletion [site.deletion ("/images/" ++ imageIdOf fields id) none,
      site.deletion ("/memories/" ++ id) none]
  | image {id : String} (heverything : deletion.everything = false) (htags : deletion.tags = [])
    (hcategory : deletion.category = none) (htarget : deletion.target ≠ .memory)
    (hid : deletion.id = some id) :
    Reaches site visible deletion [site.deletion ("/images/" ++ id) none]

variable {site : Site} {visible : List Json} {deletion : Deletion}

/-- Everything a deletion reaches for is deleted. -/
theorem Deletion.Reaches.method {requests : List Request}
    (h : deletion.Reaches site visible requests) : ∀ request ∈ requests, request.method = .delete := by
  intro request hmem
  cases h with
  | imaged =>
      simp only [List.mem_cons, List.not_mem_nil, or_false] at hmem
      rcases hmem with rfl | rfl
      · rfl
      · rfl
  | _ =>
      rw [List.mem_singleton.mp hmem]
      rfl

-- =============================================================== filters

/-- Texts that are not empty are not empty when they are joined. -/
theorem intercalate_ne_empty {separator : String} {texts : List String} (hne : texts ≠ [])
    (h : ∀ text ∈ texts, text ≠ "") : separator.intercalate texts ≠ "" := by
  cases texts with
  | nil => exact absurd rfl hne
  | cons first rest =>
      intro hempty
      refine h first List.mem_cons_self ?_
      cases rest with
      | nil => rwa [String.intercalate_singleton] at hempty
      | cons second rest =>
          rw [String.intercalate_cons_cons, String.append_eq_empty_iff,
            String.append_eq_empty_iff] at hempty
          exact hempty.1.1

/-- A text that says something is sent. -/
theorem str_ne_empty {text : String} (h : text ≠ "") : Json.str text ≠ .str "" := by
  intro hsame
  cases hsame
  exact h rfl

/-- What a plain deletion filters by is never empty. -/
theorem Deletion.Plain.filters (h : deletion.Plain) :
    ∀ field ∈ deletion.filters, field.2 ≠ .str "" := by
  intro field hmem
  unfold Deletion.filters at hmem
  rcases List.mem_append.mp hmem with hmem | hmem
  · split at hmem
    · next category hcategory =>
        rw [List.mem_singleton.mp hmem]
        exact str_ne_empty (h.category category hcategory)
    · cases hmem
  · split at hmem
    · cases hmem
    · next htags =>
        rw [List.mem_singleton.mp hmem]
        exact str_ne_empty (intercalate_ne_empty htags h.tags)

/-- A deletion with a tag or a category filters. -/
theorem filters_ne_nil (h : deletion.tags ≠ [] ∨ deletion.category.isSome) :
    deletion.filters ≠ [] := by
  unfold Deletion.filters
  rcases h with htags | hcategory
  · rw [if_neg htags]
    simp
  · obtain ⟨category, hcategory⟩ := Option.isSome_iff_exists.mp hcategory
    rw [hcategory]
    simp

/-- Tags that are texts are joined by commas. -/
theorem tagsText_strings (tags : List String) :
    tagsText (.strings tags) = .ok (",".intercalate tags) := Json.joined_strings "," tags

theorem tagsParam_strings (tags : List String) :
    tagsParam (.strings tags)
      = .ok (if tags = [] then [] else [("tags", .str (",".intercalate tags))]) := by
  cases tags with
  | nil => rfl
  | cons tag tags =>
      unfold tagsParam
      rw [tagsText_strings]
      rfl

theorem categoryParam_ofOption (category : Option String) :
    (∀ name, category = some name → name ≠ "") → categoryParam (.ofOption category)
      = match category with
        | some name => [("category", .str name)]
        | none => [] := by
  intro h
  cases category with
  | none => rfl
  | some name =>
      have hvacant : (Json.str name).isVacant = false := by
        have hne := h name rfl
        simp [Json.isVacant, hne]
      show (if (Json.str name).isVacant = true then _ else _) = _
      rw [hvacant]
      rfl

/-- The scope of a plain deletion is just what it filters by. -/
theorem scopeParams_filters (h : deletion.Plain) :
    scopeParams false (.ofOption deletion.category) (.strings deletion.tags)
      = .ok deletion.filters := by
  unfold scopeParams
  rw [tagsParam_strings, categoryParam_ofOption _ h.category]
  rfl

-- =============================================================== actions

/-- Deleting by filters sends one request, with the scope as its parameters. -/
theorem sent_deleteMemories (site : Site) (everything : Bool) (category tags : Json)
    {params : Record} (hparams : scopeParams everything category tags = .ok params)
    (hscope : (!everything && category.isVacant && tags.isVacant) = false) (wire : Wire) :
    ((site.deleteMemories everything category tags).on wire).2.sent
      = wire.sent ++ [site.deletion "/memories" (some params)] := by
  unfold Site.deleteMemories
  rw [hscope, hparams]
  exact sent_call_bind (fun _ => sends_ofExcept _) wire

/-- Deleting an image whose failure does not count goes on in any case. -/
theorem on_deleteImage (site : Site) (id : String) (wire : Wire) :
    (tryCatch (site.deleteImage id >>= fun _ => pure ()) fun trouble =>
        match trouble with
        | .call _ => pure ()
        | trouble => throw trouble : Call Unit).on wire
      = (.ok (), (wire.send (site.deletion ("/images/" ++ id) none)).2) := by
  have hon : (site.deleteImage id).on wire = _ := on_call .delete ("/images/" ++ id) none .none wire
  cases hdecode : decode site (wire.answer 0) with
  | ok content =>
      rw [hdecode] at hon
      exact on_catch_ok (on_bind_ok hon)
  | error e =>
      rw [hdecode] at hon
      exact on_catch_error (on_bind_error hon)

/-- The image of what is shown under an identifier, if that is an image. -/
theorem imageOf_eq {id : String} {found : Option Json} :
    Session.findVisible id visible = .ok found →
      Session.imageOf id visible = match found with
        | some (.obj fields) =>
          match Record.get fields "type" with
          | .ofText "image" => .ok (some (imageIdOf fields id))
          | _ => .ok none
        | _ => .ok none := by
  intro hfind
  unfold Session.imageOf
  rw [hfind]
  rfl

/-- An image is only deleted along with a memory that is shown as one. -/
theorem shown_of_imageOf {id image : String} (h : Session.imageOf id visible = .ok (some image)) :
    ∃ fields, Session.findVisible id visible = .ok (some (.obj fields))
      ∧ Record.get fields "type" = .ofText "image" ∧ image = imageIdOf fields id := by
  cases hfind : Session.findVisible id visible with
  | error f =>
      unfold Session.imageOf at h
      rw [hfind] at h
      cases h
  | ok found =>
      rw [imageOf_eq hfind] at h
      split at h
      · next fields =>
          split at h
          · next htype =>
              cases h
              exact ⟨fields, rfl, htype, rfl⟩
          · cases h
      · cases h

/-- Deleting something alone sends one request. -/
theorem sent_deleteOnly (path : String) (wire : Wire) :
    ((site.call .delete path none .none >>= fun _ => pure () : Call Unit).on wire).2.sent
      = wire.sent ++ [site.deletion path none] := sent_call_bind (fun _ => sends_pure ()) wire

/-- Deleting a memory sends the request for its image, if it has one, and then
its own. -/
theorem sent_deleteMemory (id : String) (wire : Wire) :
    ((Session.deleteEntry site .memory id visible).on wire).2.sent
      = wire.sent ++ match Session.imageOf id visible with
        | .error _ => []
        | .ok none => [site.deletion ("/memories/" ++ id) none]
        | .ok (some image) =>
          [site.deletion ("/images/" ++ image) none, site.deletion ("/memories/" ++ id) none] := by
  unfold Session.deleteEntry
  cases himage : Session.imageOf id visible with
  | error f =>
      rw [on_bind_error (on_ofExcept_error f wire)]
      exact (List.append_nil _).symm
  | ok found =>
      rw [on_bind_ok (on_ofExcept_ok found wire)]
      cases found with
      | none => exact sent_deleteOnly _ wire
      | some image =>
          refine (congrArg (·.2.sent) (on_bind_ok (on_deleteImage site image wire) :
            (_ >>= fun _ => site.deleteMemory id >>= fun _ => pure () : Call Unit).on wire
              = _)).trans ?_
          refine (sent_deleteOnly _ _).trans ?_
          rw [Wire.sent_send, List.append_assoc]
          rfl

namespace Session

-- ======================================================== carrying out

variable {session : Session} {world : World}

/-- What the session says about a deletion does not change the world it
leaves. -/
theorem world_deleteMany (everything : Bool) (category : Option String) (tags : List String)
    (missing : String) :
    (session.deleteMany everything category tags missing world).world
      = (world.run (world.site.deleteMemories everything (.ofOption category)
          (.strings tags))).2 := by
  unfold deleteMany
  dsimp only
  cases hrun : world.run
      (world.site.deleteMemories everything (.ofOption category) (.strings tags)) with
  | mk result after =>
      cases result with
      | error trouble => cases trouble <;> rfl
      | ok count =>
          dsimp only
          split
          · rfl
          · split
            · rfl
            · rfl

theorem world_deleteOne (target : Target) (id missing : String) :
    (session.deleteOne target id missing world).world
      = (world.run (deleteEntry world.site target id session.visible)).2 := by
  unfold deleteOne
  cases hrun : world.run (deleteEntry world.site target id session.visible) with
  | mk result after =>
      cases result with
      | error trouble => cases trouble <;> rfl
      | ok done =>
          dsimp only
          split
          · rfl
          · rfl

/-- A deletion by filters makes one request, with all of its filters. -/
theorem sent_deleteMany (hplain : deletion.Plain)
    (hfilter : deletion.tags ≠ [] ∨ deletion.category.isSome = true) (missing : String) :
    (session.deleteMany false deletion.category deletion.tags missing world).world.wire.sent
      = world.wire.sent ++ [world.site.deletion "/memories" (some deletion.filters)] := by
  rw [world_deleteMany]
  have hscope : (!false && (Json.ofOption deletion.category).isVacant
      && (Json.strings deletion.tags).isVacant) = false := by
    rcases hfilter with htags | hcategory
    · cases htags' : deletion.tags with
      | nil => exact absurd htags' htags
      | cons tag tags => simp [Json.strings, Json.isVacant]
    · obtain ⟨category, hcategory⟩ := Option.isSome_iff_exists.mp hcategory
      have hne := hplain.category category hcategory
      rw [hcategory]
      simp [Json.ofOption, Json.isVacant, hne]
  exact sent_deleteMemories world.site false _ _ (scopeParams_filters hplain) hscope world.wire

/-- Carrying out a deletion makes no request or those that reach what it
names. -/
theorem carryOutDelete_reaches (hplain : deletion.Plain) (session : Session) (world : World) :
    ∃ new, (session.carryOutDelete deletion world).world.wire.sent = world.wire.sent ++ new
      ∧ (new = [] ∨ deletion.Reaches world.site session.visible new) := by
  unfold carryOutDelete Deletion.scope?
  dsimp only
  by_cases heverything : deletion.everything = true
  · rw [if_pos heverything]
    dsimp only
    rw [world_deleteMany]
    exact ⟨_, sent_deleteMemories world.site true (.ofOption none) (.strings []) rfl rfl world.wire,
      .inr (.everything heverything)⟩
  rw [if_neg heverything]
  have hsome : deletion.everything = false := Bool.eq_false_iff.mpr heverything
  by_cases hfilter : deletion.tags ≠ [] ∨ deletion.category.isSome = true
  · rw [if_pos hfilter]
    dsimp only
    exact ⟨_, sent_deleteMany hplain hfilter _,
      .inr (.filtered hsome hfilter (filters_ne_nil hfilter) hplain.filters)⟩
  rw [if_neg hfilter]
  have htags : deletion.tags = [] :=
    Classical.byContradiction fun htags => hfilter (.inl htags)
  have hcategory : deletion.category = none :=
    Option.not_isSome_iff_eq_none.mp fun hcategory => hfilter (.inr hcategory)
  -- no filter is left, so only an identifier can name something
  cases hid : deletion.id with
  | none => exact ⟨[], (List.append_nil _).symm, .inl rfl⟩
  | some id =>
      dsimp only [Option.map_some]
      rw [world_deleteOne]
      by_cases htarget : deletion.target = .memory
      · rw [htarget]
        refine ⟨_, sent_deleteMemory id world.wire, ?_⟩
        split
        · exact .inl rfl
        · exact .inr (.memory hsome htags hcategory htarget hid)
        · next image himage =>
            obtain ⟨fields, hshown, htype, rfl⟩ := shown_of_imageOf himage
            exact .inr (.imaged hsome htags hcategory htarget hid hshown htype)
      · refine ⟨[world.site.deletion ("/images/" ++ id) none], ?_,
          .inr (.image hsome htags hcategory htarget hid)⟩
        cases htarget' : deletion.target with
        | memory => exact absurd htarget' htarget
        | picture => exact sent_deleteOnly _ world.wire
        | image => exact sent_deleteOnly _ world.wire

end Session
end Daybook
