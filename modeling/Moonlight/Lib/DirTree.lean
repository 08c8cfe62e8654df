import Mathlib.Data.List.Induction
import Mathlib.Data.List.Infix

/-! Trees of directories, and `mkdir` in them: what making the directories of a path one after the
other comes to. There are no links. -/
namespace Lib.DirTree

variable {N : Type*}

inductive Node where
  | dir | file
  deriving DecidableEq

/-- What each path from the root leads to; what is not the root stands in a directory. -/
structure FileTree (N : Type*) where
  node : List N → Option Node
  root : node [] = some .dir
  parent : ∀ path name, node (path ++ [name]) ≠ none → node path = some .dir

/-- A component of a path name. -/
inductive Step (N : Type*) where
  | self | up
  | name (n : N)
  deriving DecidableEq

variable {t u : FileTree N} {dir front names rest path : List N} {n : N}

variable {allowed : List N → Bool} {base q : List N}

variable [DecidableEq N]

/-- One more directory. -/
def FileTree.insert (t : FileTree N) (path : List N) (n : N) (h : t.node path = some .dir) :
    FileTree N where
  node := Function.update t.node (path ++ [n]) (some .dir)
  root := by
    rw [Function.update_of_ne (by simp)]
    exact t.root
  parent p m hm := by
    by_cases hp : p = path ++ [n]
    · rw [hp, Function.update_self]
    · rw [Function.update_of_ne hp]
      by_cases hpm : p ++ [m] = path ++ [n]
      · obtain ⟨rfl, _⟩ := List.append_inj' hpm rfl
        exact h
      · rw [Function.update_of_ne hpm] at hm
        exact t.parent p m hm

end Lib.DirTree
