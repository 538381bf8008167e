/-
What the file of the outbox holds: a line added at its end is one more
entry, and the entries that are kept are the ones that are read again.

# An entry that is added

Adding an entry adds its text, and a line feed, behind whatever the file
holds.  The lines before the last one do not matter (`entriesOf_append`), so
blank and unreadable ones, and those that other hands have written, may be
among them.  The last line does (`lines_append_line`).  If it is blank, as in
a file that ends with a line feed, the entry waits behind the others
(`pending_put_line`).  If it is not, the entry is glued to it, and neither
what stood there nor the entry is JSON any more: what waits afterwards was
waiting before (`pending_put_glued`).
-/
import Daybook.Outbox.Basic
import Daybook.Proofs.Json.Glued
import Daybook.Proofs.Json.Line

namespace Daybook.Outbox

open Text

variable {e : Json}

-- ============================================================ one entry

/-- Whether a value is given back by its line: a plain object whose whole
numbers can be written. -/
structure Recorded (e : Json) : Prop where
  plain : e.isPlain = true
  writable : e.isWritable = true
  object : ∃ fields, e = .obj fields

/-- The line of an entry is its text and a line feed. -/
theorem toList_line (e : Json) : (line e).toList = e.write ++ ['\n'] := String.toList_ofList

/-- The entries on some lines, and those on the lines behind them. -/
theorem entriesOf_append (rows more : List (List Char)) :
    entriesOf (rows ++ more)
      = entriesOf rows >>= fun entries => (entriesOf more).map (entries ++ ·) := by
  induction rows with
  | nil =>
      show entriesOf more = (entriesOf more).map ([] ++ ·)
      cases entriesOf more <;> rfl
  | cons row rows ih =>
      rw [List.cons_append, entriesOf, entriesOf, ih]
      by_cases hblank : (trim row).isEmpty = true
      · rw [if_pos hblank, if_pos hblank]
      · rw [if_neg hblank, if_neg hblank]
        cases Json.readText (trim row) with
        | ok value => cases entriesOf rows <;> cases entriesOf more <;> rfl
        | error problem => cases problem <;> rfl

/-- The line of a value that it gives back is one more entry. -/
theorem entriesOf_write (h : Json.readText e.write = .ok e) (rows : List (List Char)) :
    entriesOf (e.write :: rows) = (entriesOf rows).map (e :: ·) := by
  rw [entriesOf, e.trim_write, List.isEmpty_eq_false_iff.mpr e.write_ne_nil,
    if_neg Bool.false_ne_true, h]

/-- Blanks in front of an entry are no part of it. -/
theorem entriesOf_blank_append {row : List Char} (hrow : trim row = []) (cs : List Char)
    (rows : List (List Char)) : entriesOf ((row ++ cs) :: rows) = entriesOf (cs :: rows) := by
  rw [entriesOf, entriesOf, trim_append_of_blank hrow]

/-- There is no entry on a blank line. -/
theorem entriesOf_blank {row : List Char} (hrow : trim row = []) : entriesOf [row] = .ok [] := by
  rw [entriesOf, hrow, if_pos List.isEmpty_nil]
  rfl

/-- The text of an entry begins with the name of its first field. -/
theorem write_entry (kind payload : Json) :
    ∃ tail, (entry kind payload).write = Json.opening tail := ⟨_, rfl⟩

/-- What counts as a blank in JSON is blank. -/
theorem trim_of_skipSpace {cs : List Char} (h : Json.skipSpace cs = []) : trim cs = [] := by
  have hblank : skipBlank cs = [] := by
    refine List.dropWhile_eq_nil_iff.mpr fun c hc => ?_
    have hspace := List.dropWhile_eq_nil_iff.mp h c hc
    simp only [Bool.or_eq_true, beq_iff_eq] at hspace
    rcases hspace with ((rfl | rfl) | rfl) | rfl <;> decide
  rw [trim, hblank]
  rfl

/-- There is no entry on a line that holds more than blanks before one. -/
theorem entriesOf_glued {kind payload : Json} (h : Recorded (entry kind payload)) {row : List Char}
    (hrow : trim row ≠ []) {entries : List Json}
    (hread : entriesOf [row ++ (entry kind payload).write, []] = .ok entries) : entries = [] := by
  obtain ⟨tail, hopening⟩ := write_entry kind payload
  have hskip : skipBlank row ≠ [] := fun hnil => hrow (by rw [← trim_skipBlank, hnil]; rfl)
  have hspace : Json.skipSpace (skipBlank row) ≠ [] := fun hnil =>
    hrow (trim_skipBlank row ▸ trim_of_skipSpace hnil)
  have htrim := trim_append_of_trimmed hskip (entry kind payload).trim_write
    (entry kind payload).write_ne_nil
  have hne : (skipBlank row ++ (entry kind payload).write).isEmpty = false :=
    List.isEmpty_eq_false_iff.mpr (List.append_ne_nil_of_left_ne_nil hskip _)
  rw [entriesOf, htrim, hne, if_neg Bool.false_ne_true] at hread
  cases hvalue : Json.readText (skipBlank row ++ (entry kind payload).write) with
  | ok value => exact absurd hvalue (Json.readText_glued h.plain h.writable hopening hspace value)
  | error problem =>
      rw [hvalue] at hread
      cases problem with
      | malformed =>
          cases hread
          rfl
      | tooManyDigits => cases hread

-- =========================================================== the lines

/-- Whether a text does not stop in the middle of a line. -/
def EndsLine (cs : List Char) : Prop := ∀ c ∈ cs.getLast?, c = '\n'

/-- An empty text does not stop in the middle of a line. -/
theorem endsLine_nil : EndsLine [] := fun _ h => absurd h (by simp)

theorem endsLine_append (cs : List Char) : EndsLine (cs ++ ['\n']) := by
  intro c hc
  rw [List.getLast?_append] at hc
  exact (Option.some.inj hc).symm

/-- A text that ends its last line is empty, or its last character is a line
feed. -/
theorem EndsLine.cases {cs : List Char} (h : EndsLine cs) : cs = [] ∨ ∃ ds, cs = ds ++ ['\n'] := by
  rcases List.eq_nil_or_concat cs with rfl | ⟨ds, c, hcs⟩
  · exact .inl rfl
  · rw [List.concat_eq_append] at hcs
    subst hcs
    have hc := h c (by rw [List.getLast?_concat]; rfl)
    exact .inr ⟨ds, by rw [hc]⟩

/-- Without carriage returns there is nothing to unify. -/
theorem unifyBreaks_of_not_mem {cs : List Char} (h : '\r' ∉ cs) : unifyBreaks cs = cs := by
  fun_induction unifyBreaks cs with
  | case1 => rfl
  | case2 cs ih => exact absurd List.mem_cons_self h
  | case3 cs _ ih => exact absurd List.mem_cons_self h
  | case4 c cs _ _ ih => rw [ih (fun hmem => h (List.mem_cons_of_mem c hmem))]

/-- Line breaks on the two sides of a character that is no line feed are
unified apart. -/
theorem unifyBreaks_append {d : Char} (hd : d ≠ '\n') (cs ds : List Char) :
    unifyBreaks (cs ++ d :: ds) = unifyBreaks cs ++ unifyBreaks (d :: ds) := by
  fun_induction unifyBreaks cs with
  | case1 => rfl
  | case2 cs ih =>
      rw [List.cons_append, List.cons_append, unifyBreaks, ih]
      rfl
  | case3 cs hno ih =>
      rw [List.cons_append, unifyBreaks, ih]
      · rfl
      · intro more hmore
        cases cs with
        | nil => exact hd (List.cons.inj hmore).1
        | cons c cs => exact hno cs (by rw [(List.cons.inj hmore).1])
  | case4 c cs hno _ ih =>
      rw [List.cons_append, unifyBreaks, ih]
      · rfl
      · intro more hc
        exact fun hmore => absurd hc (by assumption)
      · assumption

/-- A line feed at the end stays there, whether or not a carriage return
stands before it. -/
theorem unifyBreaks_append_newline (ds : List Char) :
    ∃ us, unifyBreaks (ds ++ ['\n']) = us ++ ['\n'] := by
  fun_induction unifyBreaks ds with
  | case1 => exact ⟨[], rfl⟩
  | case2 cs ih =>
      obtain ⟨us, hus⟩ := ih
      refine ⟨'\n' :: us, ?_⟩
      rw [List.cons_append, List.cons_append, unifyBreaks, hus]
      rfl
  | case3 cs hno ih =>
      obtain ⟨us, hus⟩ := ih
      cases cs with
      | nil => exact ⟨[], rfl⟩
      | cons c cs =>
          refine ⟨'\n' :: us, ?_⟩
          rw [List.cons_append, unifyBreaks, hus]
          · rfl
          · intro more hmore
            exact hno cs (by rw [(List.cons.inj hmore).1])
  | case4 c cs hno hno' ih =>
      obtain ⟨us, hus⟩ := ih
      refine ⟨c :: us, ?_⟩
      rw [List.cons_append, unifyBreaks, hus]
      · rfl
      · exact fun more hc _ => hno' hc
      · exact hno'

/-- A text still ends its last line when its line breaks are unified. -/
theorem endsLine_unifyBreaks {cs : List Char} (h : EndsLine cs) : EndsLine (unifyBreaks cs) := by
  rcases h.cases with rfl | ⟨ds, rfl⟩
  · exact endsLine_nil
  · obtain ⟨us, hus⟩ := unifyBreaks_append_newline ds
    rw [hus]
    exact endsLine_append us

/-- What a text holds behind its last line break. -/
def lastLine (text : String) : List Char := (lines (unifyBreaks text.toList)).getLastD []

/-- A line that is added behind a text goes on its last line. -/
theorem lines_append_line (text : String) (e : Json) :
    ∃ front, lines (unifyBreaks text.toList) = front ++ [lastLine text]
      ∧ lines (unifyBreaks (text ++ line e).toList) = front ++ [lastLine text ++ e.write, []] := by
  obtain ⟨front, last, hlines⟩ :=
    (List.eq_nil_or_concat (lines (unifyBreaks text.toList))).resolve_left (cut_ne_nil _ _)
  have hlast : lastLine text = last := by
    unfold lastLine
    rw [hlines, List.concat_eq_append, List.getLastD_concat]
  have hreturn : '\r' ∉ e.write ++ ['\n'] := by
    rw [List.mem_append, not_or]
    exact ⟨e.not_mem_write (by decide), by decide⟩
  -- a carriage return at the end of the text does not meet the new line feed
  have hunified : unifyBreaks (text.toList ++ (e.write ++ ['\n']))
      = unifyBreaks text.toList ++ (e.write ++ ['\n']) := by
    cases hwrite : e.write with
    | nil => exact absurd hwrite e.write_ne_nil
    | cons c cs =>
        have hc : c ≠ '\n' := by
          rintro rfl
          exact e.not_mem_write (c := '\n') (by decide) (hwrite ▸ List.mem_cons_self)
        rw [hwrite, List.cons_append] at hreturn
        rw [List.cons_append, unifyBreaks_append hc, unifyBreaks_of_not_mem hreturn]
  rw [hlast]
  refine ⟨front, by rw [hlines, List.concat_eq_append], ?_⟩
  have hadded := cut_append_of_not_mem (hlines.trans List.concat_eq_append)
    (e.not_mem_write (c := '\n') (by decide))
  rw [String.toList_append, toList_line, hunified, ← List.append_assoc]
  unfold lines
  rw [cut_append_separator, hadded, List.append_assoc]
  rfl

/-- A line added behind a blank one is one more entry. -/
theorem entriesIn_line (h : Recorded e) {text : String} (htext : trim (lastLine text) = []) :
    entriesIn (text ++ line e) = (entriesIn text).map (· ++ [e]) := by
  obtain ⟨front, hbefore, hafter⟩ := lines_append_line text e
  have hread := Json.readText_write h.plain h.writable
  unfold entriesIn
  rw [hbefore, hafter, entriesOf_append, entriesOf_append, entriesOf_blank_append htext,
    entriesOf_write hread, entriesOf_blank htext]
  cases entriesOf front with
  | ok entries => exact congrArg (fun entries => Except.ok (entries ++ [e])) (List.append_nil _).symm
  | error f => rfl

/-- An entry alone on its line. -/
theorem entriesIn_line_alone (h : Recorded e) : entriesIn (line e) = .ok [e] := by
  have hempty := @entriesIn_line e h "" (by decide)
  rw [String.empty_append] at hempty
  exact hempty

/-- An entry alone, and no line feed behind it. -/
theorem entriesIn_compose (h : Recorded e) : entriesIn e.compose = .ok [e] := by
  unfold entriesIn lines Json.compose
  rw [String.toList_ofList, unifyBreaks_of_not_mem (e.not_mem_write (by decide)),
    cut_of_not_mem (e.not_mem_write (by decide)),
    entriesOf_write (Json.readText_write h.plain h.writable)]
  rfl

/-- A line added behind one that is not blank is lost, and nothing else is
read on the last line any more. -/
theorem entriesIn_glued {kind payload : Json} (h : Recorded (entry kind payload)) {text : String}
    (htext : trim (lastLine text) ≠ []) {entries others : List Json}
    (hbefore : entriesIn text = .ok entries)
    (hafter : entriesIn (text ++ line (entry kind payload)) = .ok others) : others <+: entries := by
  obtain ⟨front, hlines, hadded⟩ := lines_append_line text (entry kind payload)
  unfold entriesIn at hbefore hafter
  rw [hlines, entriesOf_append] at hbefore
  rw [hadded, entriesOf_append] at hafter
  obtain ⟨first, hfirst, hbefore⟩ := ok_of_bind hbefore
  obtain ⟨first', hfirst', hafter⟩ := ok_of_bind hafter
  cases hfirst.symm.trans hfirst'
  obtain ⟨glued, hglued, rfl⟩ := Json.ok_of_map hafter
  obtain ⟨last, -, rfl⟩ := Json.ok_of_map hbefore
  -- what stood on the last line is gone with it, so only `first` is left
  rw [entriesOf_glued h htext hglued, List.append_nil]
  exact List.prefix_append _ _

-- ============================================================ the file

/-- Whether the file of the outbox, if there is one, does not stop in the
middle of a line. -/
def Whole (disk : Disk) : Prop := ∀ text, disk.get? path = some (.text text) → EndsLine text.toList

/-- A file that is missing is whole. -/
theorem whole_of_missing {disk : Disk} (h : disk.get? path = none) : Whole disk := by
  intro text htext
  rw [h] at htext
  exact absurd htext (by simp)

theorem endsLine_append_line (text : String) (e : Json) : EndsLine (text ++ line e).toList := by
  rw [String.toList_append, toList_line, ← List.append_assoc]
  exact endsLine_append _

/-- Whether the file of the outbox stops in the middle of a line: what stands
behind its last line break is not blank. -/
def stopsMidLine (disk : Disk) : Bool :=
  match disk.get? path with
  | some (.text text) => !(trim (lastLine text)).isEmpty
  | _ => false

/-- A whole file does not. -/
theorem Whole.stopsMidLine {disk : Disk} (h : Whole disk) : stopsMidLine disk = false := by
  unfold Outbox.stopsMidLine
  split
  · next text htext =>
      have hlast : lastLine text = [] := by
        unfold lastLine lines
        rcases (endsLine_unifyBreaks (h text htext)).cases with hnil | ⟨us, hus⟩
        · rw [hnil]
          rfl
        · rw [hus, cut_append_separator]
          exact List.getLastD_concat
      rw [hlast]
      rfl
  · rfl

/-- If the file does not stop in the middle of a line, adding the line of an
entry adds that entry at the end. -/
theorem pending_put_line (h : Recorded e) {disk : Disk} (hdisk : stopsMidLine disk = false) :
    pending (disk.put path (addText (disk.get? path) (line e))) = (pending disk).map (· ++ [e]) := by
  unfold stopsMidLine at hdisk
  unfold pending
  rw [Disk.get?_put_self]
  cases hget : disk.get? path with
  | none => exact entriesIn_line_alone h
  | some content =>
      cases content with
      | text text =>
          rw [hget, Bool.not_eq_false', List.isEmpty_iff] at hdisk
          exact entriesIn_line h hdisk
      | raw bytes => rfl

/-- If it does, what waits afterwards was waiting before. -/
theorem pending_put_glued {kind payload : Json} (h : Recorded (entry kind payload)) {disk : Disk}
    (hdisk : stopsMidLine disk = true) {entries others : List Json}
    (hbefore : pending disk = .ok entries)
    (hafter : pending (disk.put path (addText (disk.get? path) (line (entry kind payload))))
      = .ok others) : others <+: entries := by
  unfold stopsMidLine at hdisk
  unfold pending at hbefore hafter
  rw [Disk.get?_put_self] at hafter
  split at hdisk
  · next text htext =>
      rw [htext] at hbefore hafter
      have hlast : trim (lastLine text) ≠ [] := by
        rwa [Bool.not_eq_true', List.isEmpty_eq_false_iff] at hdisk
      exact entriesIn_glued h hlast hbefore hafter
  · cases hdisk

/-- What waits once an entry was added: it waits behind the others, unless the
file stopped in the middle of a line.  Then all that waits was waiting
before. -/
structure Added (e : Json) (before after : Disk) : Prop where
  waits : stopsMidLine before = false → pending after = (pending before).map (· ++ [e])
  glued : stopsMidLine before = true → ∀ entries others, pending before = .ok entries →
    pending after = .ok others → others <+: entries

/-- A line put behind the file adds its entry to what waits there. -/
theorem added_put_line {kind payload : Json} (h : Recorded (entry kind payload)) (disk : Disk) :
    Added (entry kind payload) disk
      (disk.put path (addText (disk.get? path) (line (entry kind payload)))) where
  waits hdisk := pending_put_line h hdisk
  glued hdisk _ _ hbefore hafter := pending_put_glued h hdisk hbefore hafter

/-- Whatever the file held, it is whole once a line has been added. -/
theorem whole_put_line (disk : Disk) (e : Json) :
    Whole (disk.put path (addText (disk.get? path) (line e))) := by
  intro text htext
  rw [Disk.get?_put_self] at htext
  cases hget : disk.get? path with
  | none =>
      rw [hget] at htext
      injection htext with htext
      injection htext with htext
      rw [← htext, ← String.empty_append (s := line e)]
      exact endsLine_append_line "" e
  | some content =>
      rw [hget] at htext
      cases content with
      | text old =>
          injection htext with htext
          injection htext with htext
          rw [← htext]
          exact endsLine_append_line old e
      | raw bytes =>
          injection htext with htext
          cases htext

/-- Opening the file for nothing changes no entry. -/
theorem pending_put_nothing (disk : Disk) :
    pending (disk.put path (addText (disk.get? path) "")) = pending disk := by
  unfold pending
  rw [Disk.get?_put_self]
  cases hget : disk.get? path with
  | none => rfl
  | some content =>
      cases content with
      | text text =>
          show entriesIn (text ++ "") = entriesIn text
          rw [String.append_empty]
      | raw bytes => rfl

/-- Adding nothing leaves a whole file whole. -/
theorem whole_put_nothing {disk : Disk} (h : Whole disk) :
    Whole (disk.put path (addText (disk.get? path) "")) := by
  intro text htext
  rw [Disk.get?_put_self] at htext
  cases hget : disk.get? path with
  | none =>
      rw [hget] at htext
      injection htext with htext
      injection htext with htext
      rw [← htext]
      exact endsLine_nil
  | some content =>
      rw [hget] at htext
      cases content with
      | text old =>
          injection htext with htext
          injection htext with htext
          rw [← htext, String.append_empty]
          exact h old hget
      | raw bytes =>
          injection htext with htext
          cases htext

/-- The lines that are kept are cut apart again, with an empty one behind the
last line feed. -/
theorem cut_lines (entries : List Json) :
    cut '\n' (entries.flatMap fun e => e.write ++ ['\n']) = entries.map Json.write ++ [[]] := by
  induction entries with
  | nil => rfl
  | cons e entries ih =>
      rw [List.flatMap_cons, List.append_assoc, List.singleton_append, cut_append_separator,
        cut_of_not_mem (e.not_mem_write (by decide)), ih]
      rfl

/-- The text of the entries that are kept, cut into its lines. -/
theorem lines_join (entries : List Json) :
    lines (unifyBreaks (String.join (entries.map line)).toList) = entries.map Json.write ++ [[]] := by
  have htext : (String.join (entries.map line)).toList
      = entries.flatMap fun e => e.write ++ ['\n'] := by
    rw [String.toList_join, List.flatMap_map]
    exact congrArg (entries.flatMap ·) (funext toList_line)
  have hreturn : '\r' ∉ entries.flatMap fun e => e.write ++ ['\n'] := by
    rw [List.mem_flatMap]
    rintro ⟨e, -, hmem⟩
    rcases List.mem_append.mp hmem with hmem | hmem
    · exact e.not_mem_write (by decide) hmem
    · exact absurd hmem (by decide)
  rw [htext, unifyBreaks_of_not_mem hreturn]
  exact cut_lines entries

/-- Values that their lines give back wait when they are kept. -/
theorem pending_keep_of_read {entries : List Json}
    (h : ∀ e ∈ entries, Json.readText e.write = .ok e) (disk : Disk) :
    pending (keep disk entries) = .ok entries := by
  have hrows : entriesOf (entries.map Json.write ++ [[]]) = .ok entries := by
    induction entries with
    | nil => rfl
    | cons e entries ih =>
        rw [List.map_cons, List.cons_append, entriesOf_write (h e List.mem_cons_self),
          ih fun other hmem => h other (List.mem_cons_of_mem e hmem)]
        rfl
  unfold keep pending
  cases entries with
  | nil => rw [List.isEmpty_nil, if_pos rfl, Disk.get?_remove_self]
  | cons e entries =>
      rw [List.isEmpty_cons, if_neg Bool.false_ne_true, Disk.get?_put_self]
      dsimp only
      rw [entriesIn, lines_join, hrows]

/-- The entries that are kept are the entries that wait. -/
theorem pending_keep {entries : List Json} (h : ∀ e ∈ entries, Recorded e) (disk : Disk) :
    pending (keep disk entries) = .ok entries :=
  pending_keep_of_read (fun e hmem => Json.readText_write (h e hmem).plain (h e hmem).writable) disk

theorem endsLine_join (entries : List Json) : EndsLine (String.join (entries.map line)).toList := by
  rcases List.eq_nil_or_concat entries with rfl | ⟨front, e, rfl⟩
  · exact endsLine_nil
  · rw [String.toList_join, List.concat_eq_append, List.map_append, List.flatMap_append,
      List.map_singleton, List.flatMap_singleton, toList_line, ← List.append_assoc]
    exact endsLine_append _

/-- The file is whole once the entries that are kept have been written. -/
theorem whole_keep (disk : Disk) (entries : List Json) : Whole (keep disk entries) := by
  unfold keep
  cases entries with
  | nil =>
      rw [List.isEmpty_nil, if_pos rfl]
      exact whole_of_missing (Disk.get?_remove_self disk path)
  | cons e entries =>
      intro text htext
      rw [List.isEmpty_cons, if_neg Bool.false_ne_true, Disk.get?_put_self] at htext
      injection htext with htext
      injection htext with htext
      rw [← htext]
      exact endsLine_join (e :: entries)

/-- There is no file when nothing is kept. -/
theorem get?_keep_nil (disk : Disk) : (keep disk []).get? path = none :=
  Disk.get?_remove_self disk path

end Daybook.Outbox
