/-
Paths, files and what can go wrong in reading them.

The diary sees the file system as the files below its working directory
and those named by absolute paths.  A directory is there as far as a file
lies in it.  Paths are normal: neither empty nor `.` components.  A path
that the user types may begin in a home directory, which a tilde and the
name of its owner stand for.
-/
import Daybook.Fault
import Daybook.Text.Pieces
import Daybook.Text.Quote

namespace Daybook

/-- A path: its root, empty for a path from the working directory, and
its components. -/
structure Path where
  root : String
  parts : List String
deriving DecidableEq

namespace Path

/-- Reads a path.  Two slashes at its head are a root of their own, one or
more than two are the common root. -/
def ofString (s : String) : Path :=
  let slashes := (s.toList.takeWhile (· == '/')).length
  { root := if slashes = 0 then "" else if slashes = 2 then "//" else "/"
    parts := ((Text.cut '/' s.toList).map String.ofList).filter fun part =>
      part ≠ "" ∧ part ≠ "." }

/-- Whether a text holds a null character, which no path may. -/
def holdsNull (s : String) : Bool := s.toList.contains (Char.ofNat 0)

/-- The text of a path. -/
def text (path : Path) : String :=
  if path.root = "" ∧ path.parts = [] then "."
  else path.root ++ "/".intercalate path.parts

/-- The last component, empty if there is none. -/
def name (path : Path) : String := path.parts.getLast?.getD ""

/-- Whose home directory a path begins in, if it begins in one: behind the
tilde stands the name of its owner, or nothing for the user. -/
def owner? (path : Path) : Option String :=
  if path.root = "" then
    match (path.parts.head?.getD "").toList with
    | '~' :: owner => some (String.ofList owner)
    | _ => none
  else none

/-- The path of a home directory.  Slashes at its end do not count, and one
that is nothing else is the root. -/
def ofHome (home : String) : Path :=
  match (home.toList.reverse.dropWhile (· == '/')).reverse with
  | [] => ⟨"/", []⟩
  | cs => ofString (String.ofList cs)

/-- The components with every `..` resolved against those before it. -/
def collapse (parts : List String) : List String :=
  parts.foldl (fun done part => if part = ".." then done.dropLast else done ++ [part]) []

/-- A path from a root begins in no home directory. -/
theorem owner?_of_root {path : Path} (h : path.root ≠ "") : path.owner? = none := if_neg h

/-- A home directory that is given from the root is a path from a root. -/
theorem root_ofHome {home : String} {cs : List Char} (h : home.toList = '/' :: cs) :
    (ofHome home).root ≠ "" := by
  unfold ofHome
  split
  · decide
  · next hkept =>
    -- what is kept is not empty, so it has the slash at its head
    have hprefix : (home.toList.reverse.dropWhile (· == '/')).reverse <+: home.toList := by
      have hsuffix := List.dropWhile_suffix (l := home.toList.reverse) (· == '/')
      rwa [← List.reverse_prefix, List.reverse_reverse] at hsuffix
    rw [h] at hprefix hkept ⊢
    generalize (('/' :: cs).reverse.dropWhile (· == '/')).reverse = kept at hprefix hkept ⊢
    cases kept with
    | nil => exact absurd rfl hkept
    | cons c kept =>
      obtain ⟨rfl, -⟩ := List.cons_prefix_cons.mp hprefix
      have hslash : (('/' :: kept).takeWhile (· == '/')).length ≠ 0 := by simp
      unfold ofString
      rw [String.toList_ofList]
      dsimp only
      rw [if_neg hslash]
      split
      · decide
      · decide

end Path

/-- What a file holds: text, or bytes that are no UTF-8. -/
inductive Content where
  | text (s : String)
  | raw (bytes : ByteArray)

/-- The content that some bytes are. -/
def Content.ofBytes (bytes : ByteArray) : Content :=
  match String.fromUTF8? bytes with
  | some s => .text s
  | none => .raw bytes

/-- The bytes of a content. -/
def Content.bytes : Content → ByteArray
  | .text s => s.toUTF8
  | .raw bytes => bytes

/-- Why a file cannot be read or written. -/
inductive FileCause where
  | missing
  | notADirectory
  | isADirectory
  | nameTooLong
  | full
deriving DecidableEq

/-- A failure on a file. -/
structure FileError where
  cause : FileCause
  path : Path

/-- The message of a failure on a file. -/
def FileError.message (e : FileError) : String :=
  let path := Text.quote e.path.text
  match e.cause with
  | .missing => "[Errno 2] No such file or directory: " ++ path
  | .notADirectory => "[Errno 20] Not a directory: " ++ path
  | .isADirectory => "[Errno 21] Is a directory: " ++ path
  | .nameTooLong => "[Errno 36] File name too long: " ++ path
  | .full => "disk full"

/-- The absolute path of the working directory, the files in reach, and the
home directories by the names of their owners.  The user's own one goes by
the empty name. -/
structure Disk where
  base : String
  files : List (Path × Content)
  homes : List (String × String)

namespace Disk

/-- The content of the file at a normal path. -/
def get? (disk : Disk) (path : Path) : Option Content :=
  (disk.files.find? (·.1 = path)).map (·.2)

/-- Writes a file, in place of the one that is there. -/
def put (disk : Disk) (path : Path) (content : Content) : Disk :=
  { disk with files := (path, content) :: disk.files.filter (·.1 ≠ path) }

/-- Removes a file, if it is there. -/
def remove (disk : Disk) (path : Path) : Disk :=
  { disk with files := disk.files.filter (·.1 ≠ path) }

/-- Whether a path is a directory: a root, the working directory, or a
path with a file below it. -/
def isDirectory (disk : Disk) (path : Path) : Bool :=
  path.parts.isEmpty || disk.files.any fun (file, _) =>
    file.root == path.root && path.parts.isPrefixOf file.parts &&
      path.parts.length < file.parts.length

/-- What is found at a path that leads out of the working directory. -/
def outside (parts : List String) : FileCause :=
  match parts.dropWhile (· = "..") with
  | [] => .isADirectory
  | part :: _ => if 255 < part.utf8ByteSize then .nameTooLong else .missing

/-- Follows the components of a path, from the directory `here` on.  What
lies outside the working directory and is not named from a root is not in
reach. -/
def walk (disk : Disk) (root : String) (here : List String) :
    List String → Except FileCause Content
  | [] => .error .isADirectory
  | part :: rest =>
    let next : Path := ⟨root, here ++ [part]⟩
    if part = ".." then
      if here.isEmpty && root == "" then .error (outside rest)
      else walk disk root here.dropLast rest
    else if 255 < part.utf8ByteSize then .error .nameTooLong
    else if disk.isDirectory next then walk disk root next.parts rest
    else
      match disk.get? next with
      | some content => if rest.isEmpty then .ok content else .error .notADirectory
      | none => .error .missing

/-- Reads the file at a path. -/
def read (disk : Disk) (path : Path) : Except FileError Content :=
  let found := if 4096 ≤ path.text.utf8ByteSize then .error .nameTooLong
    else disk.walk path.root [] path.parts
  found.mapError fun cause => ⟨cause, path⟩

/-- The absolute path of a file, every `..` resolved. -/
def absolute (disk : Disk) (path : Path) : String :=
  let parts := Path.collapse path.parts
  if path.root = "" then "/".intercalate (disk.base :: parts)
  else (Path.mk path.root parts).text

/-- The path that a path stands for: one that begins in a home directory
goes on from there.  A home directory is not given by its owner again. -/
def expand (disk : Disk) (path : Path) : Except Fault Path :=
  match path.owner? with
  | none => .ok path
  | some name =>
    if Path.holdsNull name then .error .nullInPath
    else
      match disk.homes.lookup name with
      | none => .error .homeless
      | some home =>
        if home.toList.head? = some '~' then .error .homeless
        else
          let top := Path.ofHome home
          .ok { top with parts := top.parts ++ path.parts.tail }

-- ============================================================== laws

@[simp] theorem get?_put_self (disk : Disk) (path : Path) (content : Content) :
    (disk.put path content).get? path = some content := by
  simp [put, get?]

/-- Removing a file leaves the others as they are. -/
theorem get?_remove_of_ne (disk : Disk) {path other : Path} (h : other ≠ path) :
    (disk.remove path).get? other = disk.get? other := by
  simp only [get?, remove, List.find?_filter]
  congr 2
  funext file
  by_cases hfile : file.1 = other
  · simp [hfile, h]
  · simp [hfile]

/-- Writing a file leaves the others as they are. -/
theorem get?_put_of_ne (disk : Disk) {path other : Path} (content : Content)
    (h : other ≠ path) : (disk.put path content).get? other = disk.get? other := by
  rw [← get?_remove_of_ne disk h, get?, get?, put, remove,
    List.find?_cons_of_neg (by simpa using h.symm)]

@[simp] theorem get?_remove_self (disk : Disk) (path : Path) :
    (disk.remove path).get? path = none := by
  simp [remove, get?]

/-- What a path is expanded to needs no expansion, as long as the home
directories are given from the root. -/
theorem owner?_of_expand {disk : Disk} {path full : Path}
    (hhomes : ∀ home ∈ disk.homes, ∃ cs, home.2.toList = '/' :: cs)
    (h : disk.expand path = .ok full) : full.owner? = none := by
  unfold expand at h
  cases howner : path.owner? with
  | none =>
    rw [howner] at h
    rw [← Except.ok.inj h, howner]
  | some owner =>
    rw [howner] at h
    dsimp only at h
    split at h
    · cases h
    · split at h
      · cases h
      · next home hhome =>
        obtain ⟨front, behind, hlist, -⟩ := List.lookup_eq_some_iff.mp hhome
        have hmem : (owner, home) ∈ disk.homes := by
          rw [hlist]
          exact List.mem_append_right _ List.mem_cons_self
        obtain ⟨cs, hcs⟩ := hhomes _ hmem
        rw [hcs] at h
        rw [← Except.ok.inj h]
        exact Path.owner?_of_root (Path.root_ofHome hcs)

example : (Disk.mk "/work" [] [("", "/home/ada/")]).expand (.ofString "~/sea.png")
    = .ok ⟨"/", ["home", "ada", "sea.png"]⟩ := rfl

end Disk
end Daybook
