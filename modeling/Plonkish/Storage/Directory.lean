namespace Plonkish

/-!
# Files

Files by their path, each with its latest content.
-/

/-- The files of a file system, by path. -/
structure Files where
  entries : List (String × String)
  deriving DecidableEq

namespace Files

def empty : Files := ⟨[]⟩

/-- The content of a file. -/
def read? (files : Files) (path : String) : Option String :=
  (files.entries.find? (·.1 = path)).map (·.2)

/-- Whether there is a file. -/
def contains (files : Files) (path : String) : Bool :=
  files.entries.any (·.1 = path)

/-- Without a file. -/
def remove (files : Files) (path : String) : Files :=
  ⟨files.entries.filter (·.1 ≠ path)⟩

/-- With a file of the given content instead of any earlier one. -/
def write (files : Files) (path content : String) : Files :=
  ⟨(path, content) :: (files.remove path).entries⟩

/-- A file that was just written has that content. -/
@[simp] theorem read?_write_self (files : Files) (path content : String) :
    (files.write path content).read? path = some content := by
  simp [read?, write]

/-- Writing a file leaves every other file as it was. -/
theorem read?_write_of_ne
    (files : Files)
    (content : String)
    {path other : String}
    (differs : other ≠ path) :
    (files.write path content).read? other = files.read? other := by
  have samePredicate :
      (fun entry : String × String => !decide (entry.1 = path) && decide (entry.1 = other)) =
        fun entry => decide (entry.1 = other) := by
    funext entry
    by_cases atOther : entry.1 = other <;> simp_all
  simp [read?, write, remove, differs.symm, samePredicate]

/-- There is a file exactly if it has a content. -/
theorem contains_eq_isSome_read? (files : Files) (path : String) :
    files.contains path = (files.read? path).isSome := by
  simp only [contains, read?, Option.isSome_map]
  induction files.entries with
  | nil => rfl
  | cons entry rest inductionHypothesis =>
      by_cases atPath : entry.1 = path <;> simp_all

/-- The paths of all files in ascending order. -/
def paths (files : Files) : List String :=
  (files.entries.map (·.1)).mergeSort fun left right => decide (left ≤ right)

/-- The path of a name in a directory. -/
def join (directory name : String) : String :=
  if directory.isEmpty || directory.toList.getLast? = some '/' then directory ++ name
  else directory ++ "/" ++ name

end Files

end Plonkish
