-- Where a path leads in a tree of directories without links. `.` and an empty name stay where
-- they are, and `..` goes up. The last name of a path, if it goes down, tells the entries of
-- one directory apart.
import Mathlib.Data.List.Basic

namespace paths

abbrev Name := List Char

/-- The directory, by the names from the root on, after one name of a path. -/
def enter (place : List Name) (name : Name) : List Name :=
  if name = [] ∨ name = ['.'] then place
  else if name = ['.', '.'] then place.dropLast
  else place ++ [name]

/-- Where the path leads from the working directory. -/
def resolve (cwd : List Name) (path : List Char) : List Name :=
  (path.splitOn '/').foldl enter (if path.head? = some '/' then [] else cwd)

/-- A name that goes down. -/
def Entry (name : Name) : Prop := '/' ∉ name ∧ name ∉ [[], ['.'], ['.', '.']]

instance (name : Name) : Decidable (Entry name) :=
  inferInstanceAs (Decidable (_ ∧ _))

theorem Entry.enter {name : Name} (h : Entry name) (place : List Name) :
    paths.enter place name = place ++ [name] := by
  obtain ⟨-, hname⟩ := h
  simp only [List.mem_cons, List.not_mem_nil, or_false, not_or] at hname
  unfold paths.enter
  rw [if_neg (by simp [hname.1, hname.2.1]), if_neg hname.2.2]

/-- An entry of a directory is one name further. -/
theorem Entry.resolve {name : Name} (h : Entry name) (cwd : List Name) {dir : List Char}
    (hdir : dir ≠ []) :
    paths.resolve cwd (dir ++ '/' :: name) = paths.resolve cwd dir ++ [name] := by
  have hhead : (dir ++ '/' :: name).head? = dir.head? := List.head?_append_of_ne_nil dir hdir
  unfold paths.resolve
  rw [hhead, List.splitOn_append_cons_self, List.splitOn_eq_singleton h.1, List.foldl_append,
    List.foldl_cons, List.foldl_nil, h.enter]

/-- Different entries of a directory are in different places. -/
theorem entries_apart (cwd : List Name) {dir : List Char} (hdir : dir ≠ []) {a b : Name}
    (ha : Entry a) (hb : Entry b)
    (h : resolve cwd (dir ++ '/' :: a) = resolve cwd (dir ++ '/' :: b)) : a = b := by
  rw [ha.resolve cwd hdir, hb.resolve cwd hdir] at h
  exact List.singleton_injective (List.append_cancel_left h)

end paths
