import Mathlib.Data.List.Infix
import Rusmes.Library.Table
import Rusmes.Library.WireText

/-!
A tree of directories. A directory is found by the names on the way to it and
holds a record of files; a name may be a path of its own.
-/

namespace Directories

open WireText

abbrev DirectoryTree (Files : Type) := Table (List Text) Files

structure Single (name : Text) : Prop where
  nonempty : name ≠ []
  unbroken : '/' ∉ name
  here : name ≠ ['.']
  up : name ≠ ['.', '.']

def follow (place : List Text) (part : Text) : List Text :=
  if part = [] ∨ part = ['.'] then place
  else if part = ['.', '.'] then place.dropLast
  else place ++ [part]

def resolve (place : List Text) (path : Text) : List Text :=
  let start := if path.head? = some '/' then [] else place
  (splitOn '/' path).foldl follow start

theorem resolve_single {name : Text} (single : Single name) (place : List Text) :
    resolve place name = place ++ [name] := by
  have relative : name.head? ≠ some '/' := fun first =>
    single.unbroken (List.mem_of_mem_head? first)
  rw [resolve, if_neg relative, splitOn_unbroken single.unbroken, List.foldl_cons, List.foldl_nil,
    follow, if_neg (not_or.mpr ⟨single.nonempty, single.here⟩), if_neg single.up]

section Trees

variable {Files : Type}

def removeDirAll (place : List Text) (tree : DirectoryTree Files) : DirectoryTree Files :=
  tree.keep fun other => !place.isPrefixOf other

def children (place : List Text) (tree : DirectoryTree Files) : List Text :=
  tree.keys.filterMap fun other => if other.dropLast = place then other.getLast? else none

theorem lookup_removeDirAll (place : List Text) (tree : DirectoryTree Files) (other : List Text) :
    (removeDirAll place tree).lookup other =
      if place <+: other then none else tree.lookup other := by
  rw [removeDirAll, Table.lookup_keep]
  by_cases inside : place <+: other
  · simp [inside]
  · simp [inside]

theorem mem_children {place : List Text} {tree : DirectoryTree Files} {name : Text} :
    name ∈ children place tree ↔ (tree.lookup (place ++ [name])).isSome := by
  rw [children, List.mem_filterMap, AList.lookup_isSome, AList.mem_keys]
  constructor
  · rintro ⟨other, member, found⟩
    split at found
    · next parent =>
        rw [← parent, List.dropLast_append_getLast? name found]
        exact member
    · cases found
  · intro member
    refine ⟨_, member, ?_⟩
    simp

variable [Inhabited Files]

def createDir (tree : DirectoryTree Files) (place : List Text) : DirectoryTree Files :=
  if (tree.lookup place).isSome then tree else tree.insert place default

def createDirAll (place : List Text) (tree : DirectoryTree Files) : DirectoryTree Files :=
  place.inits.foldl createDir tree

theorem lookup_createDir (tree : DirectoryTree Files) (place other : List Text) :
    (createDir tree place).lookup other =
      (tree.lookup other).or (if other = place then some default else none) := by
  rw [createDir]
  by_cases same : other = place
  · subst same
    cases found : tree.lookup other with
    | none => simp
    | some files => simp [found]
  · rw [if_neg same, Option.or_none]
    split
    · rfl
    · exact AList.lookup_insert_ne same

theorem lookup_createDirs (places : List (List Text)) (tree : DirectoryTree Files) (other : List Text) :
    (places.foldl createDir tree).lookup other =
      (tree.lookup other).or (if other ∈ places then some default else none) := by
  induction places generalizing tree with
  | nil => simp
  | cons place places ih =>
      rw [List.foldl_cons, ih, lookup_createDir, Option.or_assoc]
      congr 1
      by_cases here : other = place
      · simp [here]
      · simp [here]

theorem lookup_createDirAll (place : List Text) (tree : DirectoryTree Files) (other : List Text) :
    (createDirAll place tree).lookup other =
      (tree.lookup other).or (if other <+: place then some default else none) := by
  rw [createDirAll, lookup_createDirs]
  simp only [List.mem_inits]

def filesAt (tree : DirectoryTree Files) (place : List Text) : Files := (tree.lookup place).getD default

theorem filesAt_createDirAll (place : List Text) (tree : DirectoryTree Files) (other : List Text) :
    filesAt (createDirAll place tree) other = filesAt tree other := by
  rw [filesAt, filesAt, lookup_createDirAll]
  cases tree.lookup other with
  | some files => rfl
  | none =>
      by_cases onTheWay : other <+: place
      · simp [onTheWay]
      · simp [onTheWay]

theorem filesAt_removeDirAll (place : List Text) (tree : DirectoryTree Files) (other : List Text) :
    filesAt (removeDirAll place tree) other =
      if place <+: other then default else filesAt tree other := by
  rw [filesAt, filesAt, lookup_removeDirAll]
  by_cases inside : place <+: other
  · rw [if_pos inside, if_pos inside]
    rfl
  · rw [if_neg inside, if_neg inside]

def changeFiles (place : List Text) (change : Files → Files) (tree : DirectoryTree Files) : DirectoryTree Files :=
  Table.adjust place change (createDirAll place tree)

theorem filesAt_changeFiles (place : List Text) (change : Files → Files) (tree : DirectoryTree Files)
    (other : List Text) :
    filesAt (changeFiles place change tree) other =
      if other = place then change (filesAt tree place) else filesAt tree other := by
  rw [filesAt, changeFiles, Table.lookup_adjust]
  by_cases here : other = place
  · subst here
    rw [if_pos rfl, if_pos rfl, lookup_createDirAll, if_pos (List.prefix_refl other), filesAt]
    cases tree.lookup other with
    | some files => rfl
    | none => rfl
  · rw [if_neg here, if_neg here]
    exact filesAt_createDirAll place tree other

theorem lookup_changeFiles_isSome {place other : List Text} {change : Files → Files}
    {tree : DirectoryTree Files} :
    ((changeFiles place change tree).lookup other).isSome ↔
      (tree.lookup other).isSome ∨ other <+: place := by
  rw [changeFiles, Table.lookup_adjust, lookup_createDirAll]
  by_cases onTheWay : other <+: place
  · cases tree.lookup other with
    | some files => split <;> simp
    | none => split <;> simp [onTheWay]
  · have elsewhere : other ≠ place := fun same => onTheWay (same ▸ List.prefix_refl place)
    simp [onTheWay, elsewhere]

end Trees

end Directories
