/-
What is typed into a form is what is stored.

A form of a table, a list or a timeline takes a title, for a table the
names of its columns, then any number of entries up to `done`, the tags and
a category.  The words `skip` and `done` steer the form at some of these
steps and are answers like any other at the rest.  A `Script` is a whole
series of such lines; `Script.memory` is what it says, told without the
form.  Part by part the lines spell out the fields of the draft (`draftOf`)
and send nothing; for the lines of the collecting step this is an induction
over them, with the entries so far at hand (`follows_collected`).  The last
line then creates the memory (`script_is_stored`).
-/
import Daybook.Form.Step
import Daybook.Proofs.Dialogue
import Daybook.Proofs.Form.Progress

namespace Daybook.Form

open Backend Http
open Message (reply note)
open Text (trimmed lowercase namesIn cellsIn)

variable {kind : Entry.Kind}

-- ============================================================== lines

/-- The step at which a form collects its entries. -/
def collecting : Entry.Kind → FormStep
  | .list => .items
  | .timeline => .events
  | _ => .rows

/-- Whether a line is taken as an entry: any line but `done`, and for a
table one with as many values as there are columns. -/
def takesEntry (kind : Entry.Kind) (width : Nat) (line : String) : Bool :=
  wordOf line != "done" && (kind != .table || (cellsIn (trimmed line)).length == width)

/-- The entry that a line spells. -/
def entryOf (kind : Entry.Kind) (line : String) : Json :=
  match kind with
  | .list => .str (trimmed line)
  | .timeline => (Entry.Event.read (trimmed line)).toJson
  | _ => .strings (cellsIn (trimmed line))

/-- All lines for a form, in order.  The lines for the columns count for a
table only. -/
structure Script where
  title : String
  unnamed : List String
  header : String
  collected : List String
  closing : String
  tags : String
  category : String

namespace Script

/-- The lines for the columns. -/
def columnLines (script : Script) (kind : Entry.Kind) : List String :=
  if kind = .table then script.unnamed ++ [script.header] else []

/-- The lines up to the last one. -/
def opening (script : Script) (kind : Entry.Kind) : List String :=
  [script.title] ++ script.columnLines kind ++ script.collected ++ [script.closing, script.tags]

/-- The names of the columns. -/
def columns (script : Script) : List String := namesIn (trimmed script.header)

/-- The lines that are taken as entries, in order. -/
def accepted (script : Script) (kind : Entry.Kind) : List String :=
  script.collected.filter (takesEntry kind script.columns.length)

/-- Whether the lines have the order that a form asks for: only the last
line for the columns names any, and `done` closes the entries as soon as
there is one. -/
structure WellFormed (script : Script) (kind : Entry.Kind) : Prop where
  answers : ∀ line ∈ script.opening kind ++ [script.category], IsAnswer line
  unnamed : kind = .table → ∀ line ∈ script.unnamed, namesIn (trimmed line) = []
  named : kind = .table → script.columns ≠ []
  order : script.collected.Pairwise fun line later =>
    takesEntry kind script.columns.length line = true → wordOf later ≠ "done"
  some_accepted : script.accepted kind ≠ []
  closed : wordOf script.closing = "done"

/-- The title that the script gives, empty if it is skipped. -/
def titleText (script : Script) : String :=
  if wordOf script.title = "skip" then "" else trimmed script.title

/-- The tags that the script gives. -/
def tagNames (script : Script) : List String :=
  if wordOf script.tags = "skip" then [] else namesIn (trimmed script.tags)

/-- The category that the script gives. -/
def categoryName (script : Script) : Option String :=
  if wordOf script.category = "skip" then none else some (trimmed script.category)

/-- The content of a memory that the script spells: columns and rows, items
or events. -/
def content (script : Script) (kind : Entry.Kind) : Record :=
  (if kind = .table then [("columns", .strings script.columns)] else [] : Record)
    ++ ([((collecting kind).name, .arr ((script.accepted kind).map (entryOf kind)))] : Record)

/-- The memory that the script spells. -/
def memory (script : Script) (kind : Entry.Kind) : Record :=
  ([("type", .str kind.name),
    ("content", .ofText (if wordOf script.title = "skip" then kind.label
      else trimmed script.title)),
    ("tags", .strings script.tagNames), ("category", .ofOption script.categoryName)] : Record)
    ++ script.content kind

end Script

-- ============================================================= drafts

/-- A draft of a table, a list or a timeline, field by field. -/
def draftOf (kind : Entry.Kind) (title : String) (columns : List String) (entries : List Json)
    (tags : List String) (category : Option String) : Draft where
  fields := ([("title", .str title)] : Record)
    ++ (if kind = .table then [("columns", .strings columns)] else [] : Record)
    ++ ([((collecting kind).name, .arr entries), ("tags", .strings tags),
      ("category", .ofOption category)] : Record)
  image := none

/-- Where a form collects its entries. -/
def collectingIndex (kind : Entry.Kind) : Nat := if kind = .table then 2 else 1

variable {title : String} {columns : List String} {entries : List Json} {tags : List String}
  {category : Option String}

theorem start_eq (hkind : kind ≠ .image) : start kind [] = ⟨kind, draftOf kind "" [] [] [] none, 0⟩ := by
  cases kind with
  | image => exact absurd rfl hkind
  | _ => rfl

theorem set_title (text : String) (hkind : kind ≠ .image) :
    (draftOf kind title columns entries tags category).set "title" (.str text)
      = draftOf kind text columns entries tags category := by
  cases kind with
  | image => exact absurd rfl hkind
  | _ => rfl

/-- Only a table has columns. -/
theorem draftOf_columns (hkind : kind ≠ .table) (columns others : List String) :
    draftOf kind title columns entries tags category
      = draftOf kind title others entries tags category := by
  unfold draftOf
  rw [if_neg hkind, if_neg hkind]

theorem set_entries (more : List Json) (hkind : kind ≠ .image) :
    (draftOf kind title columns entries tags category).set (collecting kind).name (.arr more)
      = draftOf kind title columns more tags category := by
  cases kind with
  | image => exact absurd rfl hkind
  | _ => rfl

theorem get_entries (hkind : kind ≠ .image) :
    (draftOf kind title columns entries tags category).get (collecting kind).name = .arr entries := by
  cases kind with
  | image => exact absurd rfl hkind
  | _ => rfl

theorem set_tags (names : List String) (hkind : kind ≠ .image) :
    (draftOf kind title columns entries tags category).set "tags" (.strings names)
      = draftOf kind title columns entries names category := by
  cases kind with
  | image => exact absurd rfl hkind
  | _ => rfl

theorem set_category (name : Option String) (hkind : kind ≠ .image) :
    (draftOf kind title columns entries tags category).set "category" (.ofOption name)
      = draftOf kind title columns entries tags name := by
  cases kind with
  | image => exact absurd rfl hkind
  | _ => rfl

-- ====================================================== one answer

section answers

variable {form : Form} {line : String} {step : FormStep} {world : World}

/-- A skipped step has its own value. -/
theorem answer_skip (hline : IsAnswer line) (hstep : form.step? = some step)
    (hskip : wordOf line = "skip") {value : Json} (hvalue : step.skipped? = some value) :
    form.answer line world
      = { form with draft := form.draft.set step.name value }.advance [] world := by
  have hword : lowercase (trimmed line) = "skip" := hskip
  have hnot : ¬lowercase (trimmed line) ∈ cancelWords := hline.2
  unfold answer
  dsimp only
  rw [if_neg hnot, hstep]
  dsimp only
  rw [if_neg, if_pos hword, hvalue]
  rw [hword]
  simp

/-- A line that does not steer the form is the answer to its step. -/
theorem answer_taken (hline : IsAnswer line) (hstep : form.step? = some step)
    (hdone : step.collects = true → wordOf line ≠ "done")
    (hskip : wordOf line = "skip" → step.skipped? = none) :
    form.answer line world = form.answerStep step (trimmed line) world := by
  have hnot : ¬lowercase (trimmed line) ∈ cancelWords := hline.2
  unfold answer
  dsimp only
  rw [if_neg hnot, hstep]
  dsimp only
  rw [if_neg]
  · by_cases hword : lowercase (trimmed line) = "skip"
    · rw [if_pos hword, hskip hword]
    · rw [if_neg hword]
  · rw [Bool.and_eq_true, beq_iff_eq]
    rintro ⟨hcollects, hword⟩
    exact hdone hcollects hword

/-- A collecting step is over once it holds something. -/
theorem answer_done (hline : IsAnswer line) (hstep : form.step? = some step)
    (hcollects : step.collects = true) (hdone : wordOf line = "done") :
    form.answer line world
      = if (form.draft.get step.name).isVacant then (.go form (.ok [note step.emptyNote]), world)
        else form.advance [] world := by
  have hnot : ¬lowercase (trimmed line) ∈ cancelWords := hline.2
  have hword : lowercase (trimmed line) = "done" := hdone
  unfold answer
  dsimp only
  rw [if_neg hnot, hstep]
  dsimp only
  rw [if_pos]
  rw [hcollects, hword]
  rfl

theorem answerStep_taken {text : String} {draft taken : Draft} {messages : List Message}
    (h : step.take draft text = .ok (.taken taken messages)) (hcollects : step.collects = false)
    (index : Nat) :
    answerStep ⟨kind, draft, index⟩ step text world = advance ⟨kind, taken, index⟩ messages world := by
  unfold answerStep
  dsimp only
  rw [h]
  dsimp only
  rw [hcollects]
  rfl

/-- A step that can be skipped takes its own value or what was typed. -/
theorem answer_plain (hline : IsAnswer line) (hstep : form.step? = some step) {value skipped : Json}
    (hskipped : step.skipped? = some skipped) (hcollects : step.collects = false)
    (htake : step.take form.draft (trimmed line) = .ok (.taken (form.draft.set step.name value) [])) :
    form.answer line world
      = { form with
          draft := form.draft.set step.name (if wordOf line = "skip" then skipped else value)
        }.advance [] world := by
  by_cases hskip : wordOf line = "skip"
  · rw [answer_skip hline hstep hskip hskipped, if_pos hskip]
  · have hnot : step.collects = true → wordOf line ≠ "done" := fun h => by
      rw [hcollects] at h
      cases h
    rw [answer_taken hline hstep hnot fun h => absurd h hskip, if_neg hskip]
    exact answerStep_taken htake hcollects form.index

end answers

/-- Each step has its prompt. -/
theorem prompt_draftOf {step : FormStep} (hkind : kind ≠ .image) (hstep : step ∈ formSteps kind) :
    ∃ messages, step.prompt kind (draftOf kind title columns entries tags category)
      = .ok messages := by
  cases step with
  | rows =>
      cases kind with
      | table => exact ⟨_, rfl⟩
      | image => exact absurd rfl hkind
      | _ => exact absurd hstep (by decide)
  | confirm =>
      cases kind with
      | image => exact absurd rfl hkind
      | _ => exact absurd hstep (by decide)
  | _ => exact ⟨_, rfl⟩

/-- A line that answers a step leads to the next one. -/
theorem follows_of_advance {form : Form} {line : String} {index : Nat} (messages : List Message)
    (hkind : kind ≠ .image) (hindex : index + 1 < (formSteps kind).length)
    (h : ∀ world, form.answer line world
      = advance ⟨kind, draftOf kind title columns entries tags category, index⟩ messages world) :
    Follows answer form [line] ⟨kind, draftOf kind title columns entries tags category, index + 1⟩ := by
  obtain ⟨step, hmem, hstep⟩ := mem_of_index hindex
  obtain ⟨asked, hasked⟩ := prompt_draftOf hkind hmem
  have hadvance : ∀ world, advance
      ⟨kind, draftOf kind title columns entries tags category, index⟩ messages world
      = (Turn.go ⟨kind, draftOf kind title columns entries tags category, index + 1⟩
          (.ok (messages ++ asked)), world) := by
    intro world
    unfold advance
    dsimp only
    rw [if_pos hindex]
    unfold saying prompt step?
    dsimp only
    rw [hstep]
    dsimp only
    rw [hasked]
    rfl
  exact .one fun world => (h world).trans (hadvance world)

-- ================================================= title, tags, category

variable {script : Script} {line : String}

theorem follows_title (hkind : kind ≠ .image) (hline : IsAnswer script.title) :
    Follows answer ⟨kind, draftOf kind title columns entries tags category, 0⟩ [script.title]
      ⟨kind, draftOf kind script.titleText columns entries tags category, 1⟩ := by
  have hstep : (⟨kind, draftOf kind title columns entries tags category, 0⟩ : Form).step?
      = some .title := by
    cases kind with
    | image => exact absurd rfl hkind
    | _ => rfl
  have hvalue : (if wordOf script.title = "skip" then Json.str "" else .str (trimmed script.title))
      = .str script.titleText := by
    unfold Script.titleText
    split <;> rfl
  refine follows_of_advance [] hkind (by cases kind <;> decide) fun world => ?_
  rw [answer_plain hline hstep rfl rfl rfl, hvalue]
  exact congrArg (fun draft => advance ⟨kind, draft, 0⟩ [] world) (set_title _ hkind)

theorem step?_tags (draft : Draft) (hkind : kind ≠ .image) :
    (⟨kind, draft, collectingIndex kind + 1⟩ : Form).step? = some .tags := by
  cases kind with
  | image => exact absurd rfl hkind
  | _ => rfl

theorem step?_category (draft : Draft) (hkind : kind ≠ .image) :
    (⟨kind, draft, collectingIndex kind + 2⟩ : Form).step? = some .category := by
  cases kind with
  | image => exact absurd rfl hkind
  | _ => rfl

theorem follows_tags (hkind : kind ≠ .image) (hline : IsAnswer script.tags) :
    Follows answer
      ⟨kind, draftOf kind title columns entries tags category, collectingIndex kind + 1⟩ [script.tags]
      ⟨kind, draftOf kind title columns entries script.tagNames category, collectingIndex kind + 2⟩ := by
  have hvalue : (if wordOf script.tags = "skip" then .arr []
      else .strings (namesIn (trimmed script.tags))) = Json.strings script.tagNames := by
    unfold Script.tagNames
    split <;> rfl
  refine follows_of_advance [] hkind (by cases kind <;> decide) fun world => ?_
  rw [answer_plain hline (step?_tags _ hkind) rfl rfl rfl, hvalue]
  exact congrArg (fun draft => advance ⟨kind, draft, collectingIndex kind + 1⟩ [] world)
    (set_tags _ hkind)

/-- The answer to the last step is saved. -/
theorem answer_category (hkind : kind ≠ .image) (hline : IsAnswer script.category) (world : World) :
    answer ⟨kind, draftOf kind title columns entries tags category, collectingIndex kind + 2⟩
        script.category world
      = save ⟨kind, draftOf kind title columns entries tags script.categoryName,
          collectingIndex kind + 3⟩ [] world := by
  have hvalue : (if wordOf script.category = "skip" then .null
      else .str (trimmed script.category)) = Json.ofOption script.categoryName := by
    unfold Script.categoryName
    split <;> rfl
  have hlast : ¬collectingIndex kind + 2 + 1 < (formSteps kind).length := by
    cases kind with
    | image => exact absurd rfl hkind
    | _ => decide
  rw [answer_plain hline (step?_category _ hkind) rfl rfl rfl, hvalue]
  unfold advance
  dsimp only
  rw [if_neg hlast]
  exact congrArg (fun draft => save ⟨kind, draft, collectingIndex kind + 3⟩ [] world)
    (set_category _ hkind)

-- ============================================================= columns

theorem answer_unnamed (hline : IsAnswer line) (hnone : namesIn (trimmed line) = [])
    (draft : Draft) (world : World) :
    answer ⟨.table, draft, 1⟩ line world
      = (.go ⟨.table, draft, 1⟩ (.ok [note "Please enter at least one column name."]), world) := by
  rw [answer_taken hline rfl Bool.noConfusion fun _ => rfl]
  unfold answerStep FormStep.take
  dsimp only
  rw [hnone]

theorem follows_header (hline : IsAnswer script.header) (hnamed : script.columns ≠ []) :
    Follows answer ⟨.table, draftOf .table title columns entries tags category, 1⟩ [script.header]
      ⟨.table, draftOf .table title script.columns entries tags category, 2⟩ := by
  have htake : FormStep.columns.take (draftOf .table title columns entries tags category)
      (trimmed script.header)
      = .ok (.taken (draftOf .table title script.columns entries tags category)
          [reply ("Columns: " ++ " | ".intercalate script.columns)]) := by
    unfold FormStep.take
    dsimp only
    split
    · next hnone => exact absurd hnone hnamed
    · rfl
  refine follows_of_advance [reply ("Columns: " ++ " | ".intercalate script.columns)] (by decide)
    (by decide) fun world => ?_
  rw [answer_taken hline rfl Bool.noConfusion fun _ => rfl]
  exact answerStep_taken htake rfl 1

theorem follows_unnamed {lines : List String} (hlines : ∀ line ∈ lines, IsAnswer line)
    (hnone : ∀ line ∈ lines, namesIn (trimmed line) = []) (draft : Draft) :
    Follows answer ⟨.table, draft, 1⟩ lines ⟨.table, draft, 1⟩ := by
  induction lines with
  | nil => exact .nil _
  | cons line lines ih =>
      refine .step (answer_unnamed (hlines line List.mem_cons_self) (hnone line List.mem_cons_self)
        draft) ?_
      exact ih (fun other hmem => hlines other (List.mem_cons_of_mem line hmem))
        fun other hmem => hnone other (List.mem_cons_of_mem line hmem)

/-- The lines for the columns leave the names of the last one. -/
theorem follows_columns (hwell : script.WellFormed kind) :
    Follows answer ⟨kind, draftOf kind title columns entries tags category, 1⟩
      (script.columnLines kind)
      ⟨kind, draftOf kind title script.columns entries tags category, collectingIndex kind⟩ := by
  have hanswers : ∀ line ∈ script.columnLines kind, IsAnswer line := fun line hmem =>
    hwell.answers line (List.mem_append_left _ (List.mem_append_left _
      (List.mem_append_left _ (List.mem_append_right _ hmem))))
  unfold Script.columnLines at hanswers ⊢
  by_cases htable : kind = .table
  · subst htable
    rw [if_pos rfl] at hanswers ⊢
    refine Follows.append (follows_unnamed
      (fun line hmem => hanswers line (List.mem_append_left _ hmem)) (hwell.unnamed rfl) _) ?_
    exact follows_header (hanswers _ (List.mem_append_right _ List.mem_cons_self)) (hwell.named rfl)
  · have hindex : collectingIndex kind = 1 := if_neg htable
    rw [if_neg htable, hindex, draftOf_columns htable script.columns columns]
    exact .nil _

-- ============================================================= entries

theorem step?_collecting (draft : Draft) (hkind : kind ≠ .image) :
    (⟨kind, draft, collectingIndex kind⟩ : Form).step? = some (collecting kind) := by
  cases kind with
  | image => exact absurd rfl hkind
  | _ => rfl

theorem collects_collecting (kind : Entry.Kind) : (collecting kind).collects = true := by
  cases kind <;> rfl

theorem push_entry (hkind : kind ≠ .image) (entry : Json) :
    (draftOf kind title columns entries tags category).push (collecting kind).name entry
      = .ok (draftOf kind title columns (entries ++ [entry]) tags category, entries.length + 1) := by
  rw [FormStep.push_eq (get_entries hkind), set_entries _ hkind]

theorem sizeOf_columns : FormStep.sizeOf ((draftOf .table title columns entries tags category).get
    "columns") = .ok columns.length := by
  show Except.ok (columns.map Json.ofText).length = _
  rw [List.length_map]

theorem taken_of_push {draft pushed : Draft} {key : JsonString} {value : Json} {count : Nat}
    (h : draft.push key value = .ok (pushed, count)) (messages : Nat → List Message) :
    (do
      let (draft, count) ← draft.push key value
      return FormStep.Taking.taken draft (messages count))
      = (.ok (.taken pushed (messages count)) : Except Fault FormStep.Taking) := by
  rw [h]
  rfl

/-- An entry is added at the end. -/
theorem take_entry (hkind : kind ≠ .image) (hentry : takesEntry kind columns.length line = true) :
    ∃ messages, (collecting kind).take (draftOf kind title columns entries tags category)
        (trimmed line)
      = .ok (.taken (draftOf kind title columns (entries ++ [entryOf kind line]) tags category)
          messages) := by
  have hpush : (draftOf kind title columns entries tags category).push (collecting kind).name
      (entryOf kind line) = _ := push_entry hkind _
  cases kind with
  | image => exact absurd rfl hkind
  | list => exact ⟨_, taken_of_push hpush fun count => [reply ("  " ++ toString count ++ ". " ++ trimmed line)]⟩
  | timeline => exact ⟨_, taken_of_push hpush fun count => _⟩
  | table =>
      have hwidth : (cellsIn (trimmed line)).length = columns.length := by
        unfold takesEntry at hentry
        simpa using (Bool.and_eq_true_iff.mp hentry).2
      rw [show collecting .table = .rows from rfl, FormStep.take_rows sizeOf_columns,
        if_neg (not_not_intro hwidth)]
      exact ⟨_, taken_of_push hpush fun count => _⟩

/-- A line that is no entry, and not `done` either, is a row of another
width. -/
theorem take_other (hkind : kind ≠ .image) (hentry : takesEntry kind columns.length line = false)
    (hdone : wordOf line ≠ "done") :
    ∃ reason, (collecting kind).take (draftOf kind title columns entries tags category)
        (trimmed line) = .ok (.rejected reason) := by
  have hword : (wordOf line != "done") = true := by simpa using hdone
  unfold takesEntry at hentry
  rw [hword, Bool.true_and, Bool.or_eq_false_iff] at hentry
  obtain ⟨htable, hwidth⟩ := hentry
  have htable : kind = .table := by simpa using htable
  subst htable
  rw [show collecting .table = .rows from rfl, FormStep.take_rows sizeOf_columns,
    if_pos (by simpa using hwidth)]
  exact ⟨_, rfl⟩

/-- A form at its collecting step, with some entries. -/
def collectingForm (kind : Entry.Kind) (title : String) (columns : List String)
    (entries : List Json) : Form :=
  ⟨kind, draftOf kind title columns entries [] none, collectingIndex kind⟩

/-- Without an entry the form goes on asking. -/
theorem follows_early (hkind : kind ≠ .image) (hline : IsAnswer line) (hdone : wordOf line = "done") :
    Follows answer (collectingForm kind title columns []) [line]
      (collectingForm kind title columns []) := by
  have hask (world : World) : answer (collectingForm kind title columns []) line world
      = (.go (collectingForm kind title columns []) (.ok [note (collecting kind).emptyNote]),
          world) := by
    unfold collectingForm
    rw [answer_done hline (step?_collecting _ hkind) (collects_collecting kind) hdone,
      get_entries hkind]
    rfl
  exact .one hask

theorem answer_collecting (hkind : kind ≠ .image) (hline : IsAnswer line)
    (hdone : wordOf line ≠ "done") (world : World) :
    answer (collectingForm kind title columns entries) line world
      = answerStep (collectingForm kind title columns entries) (collecting kind) (trimmed line)
        world :=
  answer_taken hline (step?_collecting _ hkind) (fun _ => hdone) fun _ => by cases kind <;> rfl

/-- An entry is added. -/
theorem follows_entry (hkind : kind ≠ .image) (hline : IsAnswer line)
    (hentry : takesEntry kind columns.length line = true) :
    Follows answer (collectingForm kind title columns entries) [line]
      (collectingForm kind title columns (entries ++ [entryOf kind line])) := by
  have hdone : wordOf line ≠ "done" := by
    unfold takesEntry at hentry
    simpa using (Bool.and_eq_true_iff.mp hentry).1
  obtain ⟨messages, htake⟩ : ∃ messages,
      (collecting kind).take (draftOf kind title columns entries [] none) (trimmed line)
        = .ok (.taken (draftOf kind title columns (entries ++ [entryOf kind line]) [] none)
            messages) := take_entry hkind hentry
  have hadd (world : World) : answer (collectingForm kind title columns entries) line world
      = (.go (collectingForm kind title columns (entries ++ [entryOf kind line]))
          (.ok (messages ++ [note (collecting kind).moreNote])), world) := by
    rw [answer_collecting hkind hline hdone]
    unfold answerStep collectingForm
    dsimp only
    rw [htake]
    dsimp only
    rw [if_pos (collects_collecting kind)]
  exact .one hadd

/-- Any other line is rejected. -/
theorem follows_other (hkind : kind ≠ .image) (hline : IsAnswer line)
    (hentry : takesEntry kind columns.length line = false) (hdone : wordOf line ≠ "done") :
    Follows answer (collectingForm kind title columns entries) [line]
      (collectingForm kind title columns entries) := by
  obtain ⟨reason, htake⟩ : ∃ reason,
      (collecting kind).take (draftOf kind title columns entries [] none) (trimmed line)
        = .ok (.rejected reason) := take_other hkind hentry hdone
  have hreject (world : World) : answer (collectingForm kind title columns entries) line world
      = (.go (collectingForm kind title columns entries) (.ok [note reason]), world) := by
    rw [answer_collecting hkind hline hdone]
    unfold answerStep collectingForm
    dsimp only
    rw [htake]
  exact .one hreject

/-- The lines of the collecting step leave the entries among them.  Once
there is one, no line is `done`. -/
theorem follows_collected (hkind : kind ≠ .image) {lines : List String}
    (hlines : ∀ line ∈ lines, IsAnswer line)
    (horder : lines.Pairwise fun line later =>
      takesEntry kind columns.length line = true → wordOf later ≠ "done")
    (hentries : entries ≠ [] → ∀ line ∈ lines, wordOf line ≠ "done") :
    Follows answer (collectingForm kind title columns entries) lines
      (collectingForm kind title columns
        (entries ++ (lines.filter (takesEntry kind columns.length)).map (entryOf kind))) := by
  induction lines generalizing entries with
  | nil =>
      rw [List.filter_nil, List.map_nil, List.append_nil]
      exact .nil _
  | cons line lines ih =>
      obtain ⟨hlater, horder⟩ := List.pairwise_cons.mp horder
      have hline := hlines line List.mem_cons_self
      have hrest := fun other hmem => hlines other (List.mem_cons_of_mem line hmem)
      cases hentry : takesEntry kind columns.length line with
      | true =>
          rw [List.filter_cons_of_pos hentry, List.map_cons, List.append_cons]
          exact (follows_entry hkind hline hentry).append
            (ih hrest horder fun _ other hmem => hlater other hmem hentry)
      | false =>
          rw [List.filter_cons_of_neg (Bool.eq_false_iff.mp hentry)]
          by_cases hdone : wordOf line = "done"
          · -- `done` comes before the first entry
            have hnone : entries = [] :=
              Classical.byContradiction fun hsome => hentries hsome line List.mem_cons_self hdone
            subst hnone
            exact (follows_early hkind hline hdone).append
              (ih hrest horder fun hsome => absurd rfl hsome)
          · exact (follows_other hkind hline hentry hdone).append
              (ih hrest horder fun hsome other hmem =>
                hentries hsome other (List.mem_cons_of_mem line hmem))

theorem follows_closing (hkind : kind ≠ .image) (hline : IsAnswer line) (hdone : wordOf line = "done")
    (hentries : entries ≠ []) :
    Follows answer (collectingForm kind title columns entries) [line]
      ⟨kind, draftOf kind title columns entries [] none, collectingIndex kind + 1⟩ := by
  have hvacant : (Json.arr entries).isVacant = false := by
    cases entries with
    | nil => exact absurd rfl hentries
    | cons entry entries => rfl
  refine follows_of_advance [] hkind (by cases kind <;> decide) fun world => ?_
  unfold collectingForm
  rw [answer_done hline (step?_collecting _ hkind) (collects_collecting kind) hdone,
    get_entries hkind, hvacant]
  rfl

-- ============================================================ the memory

/-- The title is the content of the memory, or else the name of its kind. -/
theorem orElse_titleText (hline : IsAnswer script.title) :
    (Json.ofText script.titleText).orElse (.ofText kind.label)
      = .ofText (if wordOf script.title = "skip" then kind.label else trimmed script.title) := by
  unfold Script.titleText
  by_cases hskip : wordOf script.title = "skip"
  · rw [if_pos hskip, if_pos hskip]
    rfl
  · have hsome : ¬(Json.ofText (trimmed script.title)).isVacant = true := fun hvacant =>
      hline.1 (JsonString.whole.inj (beq_iff_eq.mp hvacant))
    rw [if_neg hskip, if_neg hskip]
    exact if_neg hsome

/-- The memory of a draft, field by field. -/
theorem structuredPayload_draftOf (hkind : kind ≠ .image) :
    (draftOf kind title columns entries tags category).structuredPayload kind
      = .ok (([("type", .ofText kind.name),
          ("content", (Json.ofText title).orElse (.ofText kind.label)), ("tags", .strings tags),
          ("category", .ofOption category)] : Record)
        ++ ((if kind = .table then [("columns", .strings columns)] else [] : Record)
          ++ ([((collecting kind).name, .arr entries)] : Record))) := by
  have htags : (draftOf kind title columns entries tags category).get "tags" = .strings tags := by
    cases kind with
    | image => exact absurd rfl hkind
    | _ => rfl
  have htagList : (Json.strings tags).elementsOrNone = .ok (tags.map .ofText) :=
    Json.elementsOrNone_arr _
  unfold Draft.structuredPayload
  rw [htags, htagList]
  cases kind with
  | image => exact absurd rfl hkind
  | _ => rfl

theorem structuredPayload_script (hkind : kind ≠ .image) (hline : IsAnswer script.title) :
    (draftOf kind script.titleText script.columns ((script.accepted kind).map (entryOf kind))
        script.tagNames script.categoryName).structuredPayload kind
      = .ok (script.memory kind) := by
  rw [structuredPayload_draftOf hkind, orElse_titleText hline]
  rfl

/-- A draft is saved by one request. -/
theorem sent_save_structured {draft : Draft} {payload : Record} (hkind : kind ≠ .image)
    (hpayload : draft.structuredPayload kind = .ok payload) (index : Nat) (world : World) :
    (save ⟨kind, draft, index⟩ [] world).2.wire.sent
      = world.wire.sent ++ [⟨.post, world.site.base ++ "/memories", world.site.token, none,
          .json (.obj payload)⟩] := by
  rw [wire_save]
  dsimp only
  rw [Draft.save_structured world.site draft hkind, hpayload]
  exact sent_createMemory payload world.wire

/-- What is typed is what is stored: up to the last line nothing is sent,
and the last line creates the memory that the lines spell.  The rows of a
table all have as many values as there are columns. -/
theorem script_is_stored (hkind : kind ≠ .image) (hwell : script.WellFormed kind) :
    (∃ waiting, Follows answer (start kind []) (script.opening kind) waiting
      ∧ ∀ world, (waiting.answer script.category world).2.wire.sent
        = world.wire.sent ++ [⟨.post, world.site.base ++ "/memories", world.site.token, none,
            .json (.obj (script.memory kind))⟩])
      ∧ (kind = .table → ∀ line ∈ script.accepted kind,
          (cellsIn (trimmed line)).length = script.columns.length) := by
  have hanswer : ∀ line ∈ script.opening kind, IsAnswer line := fun line hmem =>
    hwell.answers line (List.mem_append_left _ hmem)
  have htitle : IsAnswer script.title := hanswer _ (by simp [Script.opening])
  have htags : IsAnswer script.tags := hanswer _ (by simp [Script.opening])
  have hclosing : IsAnswer script.closing := hanswer _ (by simp [Script.opening])
  have hcategory : IsAnswer script.category :=
    hwell.answers _ (List.mem_append_right _ List.mem_cons_self)
  have hcollected : ∀ line ∈ script.collected, IsAnswer line := fun line hmem =>
    hanswer line (by simp [Script.opening, hmem])
  have hentries : (script.accepted kind).map (entryOf kind) ≠ [] := fun hnone =>
    hwell.some_accepted (List.map_eq_nil_iff.mp hnone)
  refine ⟨⟨⟨kind, draftOf kind script.titleText script.columns
    ((script.accepted kind).map (entryOf kind)) script.tagNames none, collectingIndex kind + 2⟩,
    ?_, fun world => ?_⟩, fun htable line hmem => ?_⟩
  · rw [start_eq hkind]
    unfold Script.opening
    refine (((follows_title hkind htitle).append (follows_columns hwell)).append
      (follows_collected hkind hcollected hwell.order fun hsome => absurd rfl hsome)).append ?_
    exact (follows_closing hkind hclosing hwell.closed hentries).append (follows_tags hkind htags)
  · rw [answer_category hkind hcategory]
    exact sent_save_structured hkind (structuredPayload_script hkind htitle) _ world
  · subst htable
    have htaken := (List.mem_filter.mp hmem).2
    unfold takesEntry at htaken
    simpa using (Bool.and_eq_true_iff.mp htaken).2

/-- A table with a `done` that comes too early and a row of another width. -/
def tripScript : Script where
  title := "Trip"
  unnamed := [" , "]
  header := "Name, Age,"
  collected := ["done", "Ann", "skip, done", " Ben ,"]
  closing := " Done"
  tags := "summer,, friends "
  category := "SKIP"

theorem wellFormed_trip : tripScript.WellFormed .table where
  answers := by decide +kernel
  unnamed := by decide +kernel
  named := by decide +kernel
  order := by decide +kernel
  some_accepted := by decide +kernel
  closed := by decide +kernel

theorem memory_trip : tripScript.memory .table
    = ([("type", .ofText "table"), ("content", .ofText "Trip"),
        ("tags", .strings ["summer", "friends"]), ("category", .null),
        ("columns", .strings ["Name", "Age"]),
        ("rows", .arr [.strings ["skip", "done"], .strings ["Ben", ""]])] : Record) := by
  have htitle : (if wordOf tripScript.title = "skip" then Entry.Kind.table.label
      else trimmed tripScript.title) = "Trip" := by decide +kernel
  have htags : tripScript.tagNames = ["summer", "friends"] := by decide +kernel
  have hcategory : tripScript.categoryName = none := by decide +kernel
  have hcolumns : tripScript.columns = ["Name", "Age"] := by decide +kernel
  have haccepted : tripScript.accepted .table = ["skip, done", " Ben ,"] := by decide +kernel
  have hfirst : cellsIn (trimmed "skip, done") = ["skip", "done"] := by decide +kernel
  have hsecond : cellsIn (trimmed " Ben ,") = ["Ben", ""] := by decide +kernel
  have hrows : (tripScript.accepted .table).map (entryOf .table)
      = [.strings ["skip", "done"], .strings ["Ben", ""]] := by
    rw [haccepted, ← hfirst, ← hsecond]
    rfl
  unfold Script.memory Script.content
  rw [htitle, htags, hcategory, hcolumns, hrows]
  rfl

theorem script_is_stored_trip :
    tripScript.WellFormed .table
      ∧ (∃ waiting, Follows answer (start .table []) (tripScript.opening .table) waiting
        ∧ ∀ world, (waiting.answer tripScript.category world).2.wire.sent
          = world.wire.sent ++ [⟨.post, world.site.base ++ "/memories", world.site.token, none,
              .json (.obj ([("type", .ofText "table"), ("content", .ofText "Trip"),
                ("tags", .strings ["summer", "friends"]), ("category", .null),
                ("columns", .strings ["Name", "Age"]),
                ("rows", .arr [.strings ["skip", "done"], .strings ["Ben", ""]])] : Record))⟩]) := by
  refine ⟨wellFormed_trip, ?_⟩
  rw [← memory_trip]
  exact (script_is_stored (by decide) wellFormed_trip).1

end Daybook.Form
