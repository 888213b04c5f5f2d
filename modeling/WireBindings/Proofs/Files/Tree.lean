import Mathlib.Logic.Basic
import WireBindings.Files.Tree
import WireBindings.Proofs.Outcome

/-!
# What a write does

A write that succeeds puts a file at one location, and that is the only place where the tree becomes
another (`replaces_of_write`). Paths are walked through directories only, and a write neither makes
nor removes any, so whatever path led somewhere before leads there afterwards (`locate_put`). In
particular the contents are read back by the path they were written to.
-/

namespace WireBindings.Files.Tree

variable {tree after : Tree} {location other start target : Location} {contents : List UInt8}
  {path : String} {steps : List String}

/-- The tree with a file of these contents at the location. -/
def put (tree : Tree) (location : Location) (contents : List UInt8) : Tree :=
  { tree with nodes := assign location (.file contents) tree.nodes }

/-- Locations are compared as lists of names. -/
theorem instBEq_location : (List.instBEq : BEq Location) = instBEqOfDecidableEq :=
  lawful_beq_subsingleton _ _

/-- A file is found where it was put. -/
theorem node?_put_self (h : location ≠ []) :
    (tree.put location contents).node? location = some (.file contents) := by
  rw [node?, if_neg (by simpa using h), instBEq_location]
  exact lookup_assign_self

/-- Elsewhere there is what was there before. -/
theorem node?_put_of_ne (h : other ≠ location) :
    (tree.put location contents).node? other = tree.node? other := by
  rw [node?, node?, instBEq_location]
  split
  · rfl
  · exact lookup_assign_of_ne h

/-- The root is a directory. -/
theorem ne_nil_of_node?_ne_directory (h : tree.node? location ≠ some .directory) :
    location ≠ [] := by
  rintro rfl
  exact h rfl

/-! ### Walks -/

/-- A walk takes a further step from a directory only, and to a name that is not too long. -/
theorem walk_cons_eq_ok_iff {name : String} :
    tree.walk start (name :: steps) = .ok target ↔
      tree.node? start = some .directory ∧ (Text.Utf8.encode name).length ≤ nameLimit ∧
        tree.walk (start.step name) steps = .ok target := by
  rw [walk]
  -- the cases are nothing, a file and a directory to step from
  split
  · next hnode => simp [hnode]
  · next hnode => simp [hnode]
  · next hnode =>
    split
    · next hlong => simp [Nat.not_le.mpr hlong]
    · next hshort => simp [hnode, Nat.not_lt.mp hshort]

/-- Where there was no directory, none is missed on the way. -/
theorem walk_put (hlocation : tree.node? location ≠ some .directory)
    (h : tree.walk start steps = .ok target) :
    (tree.put location contents).walk start steps = .ok target := by
  induction steps generalizing start with
  | nil => exact h
  | cons name steps ih =>
    obtain ⟨hnode, hlength, hwalk⟩ := walk_cons_eq_ok_iff.mp h
    -- each step starts from a directory, and the file has been put where there is none
    have hstart : start ≠ location := by
      rintro rfl
      exact hlocation hnode
    exact walk_cons_eq_ok_iff.mpr ⟨by rwa [node?_put_of_ne hstart], hlength, ih hwalk⟩

/-- A dot at the end leads to a directory. -/
theorem node?_of_walk_dot (h : tree.walk start (steps ++ ["."]) = .ok target) :
    tree.node? target = some .directory := by
  -- the last step of the walk is the dot, and it is taken from a directory like any other
  induction steps generalizing start with
  | nil =>
    obtain ⟨hnode, -, hwalk⟩ := walk_cons_eq_ok_iff.mp h
    cases hwalk
    exact hnode
  | cons name steps ih => exact ih (walk_cons_eq_ok_iff.mp h).2.2

/-! ### Paths -/

/-- A path leads somewhere if it is neither too long nor empty and its steps can be taken. -/
theorem locate_eq_ok_iff {path : Path} :
    tree.locate path = .ok target ↔
      path.size ≤ pathLimit ∧ (path.steps.isEmpty && !path.absolute) = false ∧
        tree.walk (if path.absolute then [] else tree.current) path.steps = .ok target := by
  rw [locate]
  split
  · next hlong => simp [Nat.not_le.mpr hlong]
  · next hshort =>
    split
    · next hempty => simp [hempty]
    · next hsome =>
      rw [eq_false_of_ne_true hsome]
      simp [Nat.not_lt.mp hshort]

/-- A path that led somewhere leads there after a file has been put where no directory is. -/
theorem locate_put {path : Path} (hlocation : tree.node? location ≠ some .directory)
    (h : tree.locate path = .ok target) :
    (tree.put location contents).locate path = .ok target := by
  obtain ⟨hsize, hsome, hwalk⟩ := locate_eq_ok_iff.mp h
  exact locate_eq_ok_iff.mpr ⟨hsize, hsome, walk_put hlocation hwalk⟩

/-- A path with a slash at its end is not one by which a file can be created. -/
theorem not_endsInSlash_of_locate_forCreation {path : Path}
    (hlocation : tree.node? location ≠ some .directory)
    (h : tree.locate path.forCreation = .ok location) : path.endsInSlash = false := by
  -- with a slash the path would end in a dot, and so at a directory
  refine eq_false_of_ne_true fun hslash => hlocation ?_
  rw [Path.forCreation, if_pos hslash] at h
  exact node?_of_walk_dot (locate_eq_ok_iff.mp h).2.2

/-! ### Reading and writing -/

/-- **A write succeeds** if its path can be located for creation and does not end at a directory;
the file is put there. -/
theorem write_eq_ok_iff :
    tree.write path contents = .ok after ↔
      ∃ location, tree.locate (Path.ofString path).forCreation = .ok location ∧
        tree.node? location ≠ some .directory ∧ tree.put location contents = after := by
  rw [write, bind_eq_ok_iff]
  refine exists_congr fun location => and_congr_right fun _ => ?_
  split
  · next hdirectory =>
    refine ⟨fun h => ?_, fun h => absurd (eq_of_beq hdirectory) h.1⟩
    cases h
  · next hother =>
    refine ⟨fun h => ⟨fun hdirectory => hother (by rw [hdirectory]; rfl), Except.ok.inj h⟩, ?_⟩
    rintro ⟨-, rfl⟩
    rfl

/-- What is read is the file at the end of the path, if no slash follows. -/
theorem read_eq_ok (hlocate : tree.locate (Path.ofString path) = .ok location)
    (hnode : tree.node? location = some (.file contents))
    (hslash : (Path.ofString path).endsInSlash = false) : tree.read path = .ok contents := by
  refine bind_eq_ok_iff.mpr ⟨location, hlocate, ?_⟩
  rw [hnode]
  dsimp only
  rw [hslash]
  rfl

/-- After is before with the contents at the end of the path, and nothing else is different. -/
def Replaces (before : Tree) (path : String) (contents : List UInt8) (after : Tree) : Prop :=
  ∃ location, before.locate (Path.ofString path) = .ok location ∧
    after.node? location = some (.file contents) ∧
    (∀ other, other ≠ location → after.node? other = before.node? other) ∧
    after.current = before.current ∧ after.read path = .ok contents

/-- **A write replaces one file** and leaves everything else as it was. -/
theorem replaces_of_write (h : tree.write path contents = .ok after) :
    tree.Replaces path contents after := by
  obtain ⟨location, hlocate, hlocation, rfl⟩ := write_eq_ok_iff.mp h
  -- the path has no slash at its end, so it is the one that it is read by afterwards
  have hslash := not_endsInSlash_of_locate_forCreation hlocation hlocate
  rw [Path.forCreation, if_neg (by rw [hslash]; exact Bool.false_ne_true)] at hlocate
  have hnode : (tree.put location contents).node? location = some (.file contents) :=
    node?_put_self (ne_nil_of_node?_ne_directory hlocation)
  exact ⟨location, hlocate, hnode, fun _ => node?_put_of_ne, rfl,
    read_eq_ok (locate_put hlocation hlocate) hnode hslash⟩

end WireBindings.Files.Tree
