import QueryBlend.Dict
import QueryBlend.Text.Basic
/-!
# Files and the environment

What the program asks of the machine it runs on: the contents of files, whether something is at a path,
and the values of environment variables. A `Machine` answers in any monad, so that the same program runs
on a real machine and on a `Disk`, a tree of files that is kept in memory.

Results:
* `get?_put`: what is put at a place is there, and `get?_makeDirectory`: a directory is only made
  where there was nothing.
* `joinPath_empty`: a path joined to the empty path is itself.
* `valueIn?_eq_get?`: without equals signs in names each name has the value that is kept under it.
-/
namespace QueryBlend

inductive ReadFailure where
  | notFound
  | isDirectory
  | notADirectory
  | notText
  | nameTooLong
  | nulInPath
  | other (message : String)
  deriving DecidableEq, Repr

def ReadFailure.message : ReadFailure → String
  | notFound => "No such file or directory (os error 2)"
  | isDirectory => "Is a directory (os error 21)"
  | notADirectory => "Not a directory (os error 20)"
  | notText => "stream did not contain valid UTF-8"
  | nameTooLong => "File name too long (os error 36)"
  | nulInPath => "file name contained an unexpected NUL byte"
  | other message => message

def maxPathSize : Nat := 4095

def maxNameSize : Nat := 255

/-- Why nothing can be read from a path, whatever the disk holds. -/
def ReadFailure.ofPath? (path : String) : Option ReadFailure :=
  if path.toList.contains '\x00' then some .nulInPath
  else if maxPathSize < path.utf8ByteSize then some .nameTooLong
  else if path.isEmpty then some .notFound
  else none

/-- What the program asks of the machine it runs on. -/
structure Machine (m : Type → Type) where
  readText : (path : String) → m (Except ReadFailure String)
  isThere : (path : String) → m Bool
  environment? : (name : String) → m (Option String)
  /-- Where the user keeps configurations. -/
  configDirectory? : m (Option String)

def joinPath (path below : String) : String :=
  if path.isEmpty || path.toList.getLast? == some '/' then path ++ below else path ++ "/" ++ below

/-! ## Environments -/

/-- The value of a variable, in an environment kept as lines `NAME=VALUE`: what stands behind the name and
an equals sign in the line that starts with them. So a name with equals signs in it reads on into the value
of the variable that it starts with. -/
def valueIn? (environment : Dict String) (name : String) : Option String :=
  environment.entries.findSome? fun e =>
    (Text.behind? (name.toList ++ ['=']) (e.1.toList ++ '=' :: e.2.toList)).map String.ofList

theorem behind?_line {name k v : List Char} (hn : '=' ∉ name) (hk : '=' ∉ k) :
    Text.behind? (name ++ ['=']) (k ++ '=' :: v) = if k = name then some v else none := by
  induction name generalizing k with
  | nil =>
    cases k with
    | nil => simp [Text.behind?]
    | cons c cs =>
      simp only [List.mem_cons, not_or] at hk
      simp [Text.behind?, hk.1]
  | cons n ns ih =>
    simp only [List.mem_cons, not_or] at hn
    cases k with
    | nil => simp [Text.behind?, Ne.symm hn.1]
    | cons c cs =>
      simp only [List.mem_cons, not_or] at hk
      by_cases h : n = c
      · simp [Text.behind?, h, ih hn.2 hk.2]
      · simp [Text.behind?, h, Ne.symm h]

/-- Without equals signs in names each name has the value that is kept under it. -/
theorem valueIn?_eq_get? (environment : Dict String) {name : String} (hn : '=' ∉ name.toList)
    (hk : ∀ k ∈ environment.keys, '=' ∉ k.toList) :
    valueIn? environment name = environment.get? name := by
  simp only [valueIn?, Dict.get?]
  simp only [Dict.keys] at hk
  generalize environment.entries = es at hk ⊢
  induction es with
  | nil => rfl
  | cons e es ih =>
    rw [List.map_cons, List.forall_mem_cons] at hk
    rw [List.findSome?_cons, behind?_line hn hk.1, Dict.look, ih hk.2]
    by_cases h : e.1 = name <;> simp [h, String.toList_inj]

/-! ## Disks -/

inductive Entry where
  | file (content : ByteArray)
  | directory

/-- A place: the names on the way to it from the top of a tree. Steps up come first among them, and an
empty name in front of all stands for the root. -/
abbrev Location := List (List Char)

def stepUp : List Char := ['.', '.']

/-- The place above. Above the root is the root. -/
def Location.above (here : Location) : Location :=
  match here.getLast? with
  | none => [stepUp]
  | some name =>
    if name = [] then here
    else if name = stepUp then here ++ [stepUp]
    else here.dropLast

/-- The place that a name leads to from a place; no name and a dot lead nowhere else. -/
def Location.step (here : Location) (name : List Char) : Location :=
  if name = [] ∨ name = ['.'] then here
  else if name = stepUp then here.above
  else here ++ [name]

def Location.path (here : Location) : String := "/".intercalate (here.map String.ofList)

/-- Whether a place is the top of a tree, above it, or the root. -/
def Location.isOutside (here : Location) : Bool := here.all fun name => name == [] || name == stepUp

/-- The place that a path starts at. -/
def Location.start (path : String) : Location := if path.toList.head? = some '/' then [[]] else []

/-- A tree of files and directories, under the paths of their places. -/
structure Disk where
  entries : Dict Entry := {}

namespace Disk

/-- What is at a place. From the top of the tree upwards there are directories, of which no more is
known than what has been written there. -/
def get? (d : Disk) (here : Location) : Option Entry :=
  if here.isOutside then some .directory else d.entries.get? here.path

def put (d : Disk) (here : Location) (e : Entry) : Disk := { entries := d.entries.insert here.path e }

/-- The disk with a directory at a place, if there was nothing. -/
def makeDirectory (d : Disk) (here : Location) : Disk :=
  match d.get? here with
  | some _ => d
  | none => d.put here .directory

/-- The disk with a file under names from a place, and with the directories on the way to it. -/
def writeFrom (d : Disk) (here : Location) (content : ByteArray) : List (List Char) → Disk
  | [] => d
  | [name] => d.put (here.step name) (.file content)
  | name :: names =>
    (d.makeDirectory (here.step name)).writeFrom (here.step name) content names

/-- The disk with a file under a path. -/
def write (d : Disk) (path : String) (content : ByteArray) : Disk :=
  d.writeFrom (.start path) content (path.toList.splitOn '/')

/-- Follows names from a place. -/
def follow (d : Disk) (here : Location) : List (List Char) → Except ReadFailure Entry
  | [] =>
    match d.get? here with
    | some e => .ok e
    | none => .error .notFound
  | name :: names =>
    match d.get? here with
    | none => .error .notFound
    | some (.file _) => .error .notADirectory
    | some .directory =>
      if maxNameSize < Text.byteCount name then .error .nameTooLong
      else d.follow (here.step name) names

def find (d : Disk) (path : String) : Except ReadFailure Entry :=
  match ReadFailure.ofPath? path with
  | some failure => .error failure
  | none => d.follow (.start path) (path.toList.splitOn '/')

def readText (d : Disk) (path : String) : Except ReadFailure String :=
  match d.find path with
  | .ok (.file content) =>
    match String.fromUTF8? content with
    | some s => .ok s
    | none => .error .notText
  | .ok .directory => .error .isDirectory
  | .error e => .error e

def isThere (d : Disk) (path : String) : Bool :=
  match d.find path with
  | .ok _ => true
  | .error _ => false

/-- A machine with nothing but a disk and an environment. -/
def machine (d : Disk) (environment : Dict String) (configDirectory? : Option String) :
    Machine Id where
  readText := d.readText
  isThere := d.isThere
  environment? := valueIn? environment
  configDirectory? := configDirectory?

theorem get?_put (d : Disk) {here : Location} (e : Entry) (h : here.isOutside = false) :
    (d.put here e).get? here = some e := by
  simp [get?, put, h, Dict.get?_insert]

theorem get?_makeDirectory (d : Disk) (here : Location) :
    (d.makeDirectory here).get? here = some ((d.get? here).getD .directory) := by
  rw [makeDirectory]
  split
  · next e h => simp [h]
  · next h =>
    have : here.isOutside = false := by
      cases ho : here.isOutside with
      | true => simp [get?, ho] at h
      | false => rfl
    rw [get?_put d .directory this, h, Option.getD_none]

end Disk

theorem joinPath_empty (below : String) : joinPath "" below = below := by
  simp [joinPath]

end QueryBlend
