/-!
# File trees

The files and directories that a session finds and leaves behind, as seen from its working
directory. A path is followed name by name: every name in front of the last one has to be that of a
directory, a dot stays where it is, and two dots lead one directory up. Writing a file makes the
directories that its path leads through; it fails where a file is in the way.

What lies outside of the working directory has no files but those that are written there.
-/

namespace CallPlan

/-- Where a file or a directory is: the names that lead there, the last one first. The working
directory has no names. The directories above it are named by dots, the topmost one by a slash. -/
abbrev Location := List String

namespace Location

/-- Whether the location is that of the working directory or of a directory above it. -/
def isAbove (l : Location) : Bool := l.all (· = "..") || l = ["/"]

/-- The directory that a directory lies in. -/
def up (l : Location) : Location :=
  if l = ["/"] then l else if l.isAbove then ".." :: l else l.tail

/-- Where paths start that are written like the given one. -/
def startOf (path : String) : Location := if path.startsWith "/" then ["/"] else []

end Location

/-- Files and directories. -/
structure FileTree where
  directories : List Location := []
  /-- The files, with their texts. -/
  texts : List (Location × String) := []

namespace FileTree

/-- A name has so many bytes at most. -/
def maxNameSize : Nat := 255

/-- A path has so many bytes at most. -/
def maxPathSize : Nat := 4095

/-- The names of a path. -/
def namesOf (path : String) : List String :=
  (path.toList.splitOn '/').map String.ofList

/-- Whether a name leads nowhere. -/
def isIdle (name : String) : Bool := name = "" || name = "."

def hasDirectory (t : FileTree) (l : Location) : Bool :=
  l.isAbove || t.directories.contains l

/-- The text of the file at a location. -/
def textAt? (t : FileTree) (l : Location) : Option String := t.texts.lookup l

/-- The directory that a name leads to. -/
def enter (t : FileTree) (here : Location) (name : String) : Option Location :=
  if isIdle name then some here
  else if name = ".." then some here.up
  else if t.hasDirectory (name :: here) then some (name :: here) else none

/-- The directory that a name leads to, which is made if nothing has the name. -/
def enterNew (t : FileTree) (here : Location) (name : String) : Option (FileTree × Location) :=
  match t.enter here name with
  | some there => some (t, there)
  | none =>
    let there := name :: here
    if (t.textAt? there).isSome || maxNameSize < name.utf8ByteSize then none
    else some ({ t with directories := there :: t.directories }, there)

/-- The names of a path that leads to a file: those of directories, and the last one. -/
def split? (path : String) : Option (List String × String) := do
  let names := namesOf path
  let last ← names.getLast?
  guard (!isIdle last && last ≠ ".." && path.utf8ByteSize ≤ maxPathSize)
  return (names.dropLast, last)

/-- The text of the file that a path leads to. -/
def read? (t : FileTree) (path : String) : Option String := do
  let (names, last) ← split? path
  let directory ← names.foldlM t.enter (Location.startOf path)
  t.textAt? (last :: directory)

/-- Puts a text at a location, in place of the one that is there. -/
def put (t : FileTree) (l : Location) (text : String) : FileTree :=
  { t with texts := t.texts.filter (·.1 != l) ++ [(l, text)] }

/-- Writes the file that a path leads to, and makes the directories on the way. -/
def write? (t : FileTree) (path text : String) : Option FileTree := do
  let (names, last) ← split? path
  let (t, directory) ←
    names.foldlM (fun (t, here) name => enterNew t here name) (t, Location.startOf path)
  guard (!t.hasDirectory (last :: directory) && last.utf8ByteSize ≤ maxNameSize)
  return t.put (last :: directory) text

/-- Files given by their paths; those that cannot be written are left out. -/
def ofFiles (files : List (String × String)) : FileTree :=
  files.foldl (fun t (path, text) => (t.write? path text).getD t) {}

/-- The files in and below the working directory, with their paths from there. -/
def files (t : FileTree) : List (String × String) :=
  (t.texts.filter fun (l, _) => !l.any fun name => name = ".." || name = "/").map
    fun (l, text) => ("/".intercalate l.reverse, text)

/-! ### What is where -/

/-- Taking out what is at a location leaves nothing there. -/
theorem lookup_filter_self (texts : List (Location × String)) (l : Location) :
    (texts.filter (·.1 != l)).lookup l = none := by
  rw [List.lookup_eq_none_iff]
  intro p hp
  simpa [bne, BEq.comm (a := l)] using (List.mem_filter.mp hp).2

/-- Taking out what is at a location leaves everything else. -/
theorem lookup_filter_of_ne (texts : List (Location × String)) {l m : Location} (h : m ≠ l) :
    (texts.filter (·.1 != l)).lookup m = texts.lookup m := by
  induction texts with
  | nil => rfl
  | cons p rest ih =>
    obtain ⟨n, s⟩ := p
    by_cases hn : n = l
    · simp [List.lookup_cons, hn, ← ih, beq_eq_false_iff_ne.mpr h]
    · simp [List.lookup_cons, hn, ih]

/-- What was put at a location is found there. -/
@[simp]
theorem textAt?_put_self (t : FileTree) (l : Location) (text : String) :
    (t.put l text).textAt? l = some text := by
  rw [textAt?, put, List.lookup_append, lookup_filter_self]
  simp

/-- What is at another location stays as it is. -/
theorem textAt?_put_of_ne (t : FileTree) {l m : Location} (text : String) (h : m ≠ l) :
    (t.put l text).textAt? m = t.textAt? m := by
  rw [textAt?, put, List.lookup_append, lookup_filter_of_ne _ h]
  simp [textAt?, List.lookup_cons, beq_eq_false_iff_ne.mpr h]

end FileTree

end CallPlan
