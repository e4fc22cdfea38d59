import Mathlib

/-! POSIX paths by their parts, in a file system without symbolic links, and the lexical `Clean` of
Go's `filepath`. -/

namespace OpsMonitor.Library

structure Path where
  absolute : Bool
  parts : List String
  deriving DecidableEq, Repr

/-- A directory, by the names on the way down from the root. -/
structure Directory where
  names : List String
  downward : ".." ∉ names
  deriving DecidableEq, Repr

namespace Path

/-- The parts between slashes, without the ones that name the directory they stand in. -/
def ofString (s : String) : Path where
  absolute := s.toList.head? = some '/'
  parts := ((s.toList.splitOn '/').map .ofList).filter fun name => name ≠ "" ∧ name ≠ "."

/-- One step of the kernel's walk. -/
def enter (dir : List String) (name : String) : List String :=
  if name = ".." then dir.dropLast else dir ++ [name]

/-- Where the parts lead to from a directory. -/
def walk (dir : List String) (parts : List String) : List String := parts.foldl enter dir

/-- The file that a path names in a process with the working directory `cwd`. -/
def locate (cwd : Directory) (p : Path) : List String :=
  walk (if p.absolute then [] else cwd.names) p.parts

/-- One part more on a cleaned path. -/
def cleanStep (absolute : Bool) (out : List String) (name : String) : List String :=
  if name = ".." then
    if out.getLast?.any (· ≠ "..") then out.dropLast
    else if absolute then out else out ++ [".."]
  else out ++ [name]

/-- `filepath.Clean`. -/
def clean (p : Path) : Path := ⟨p.absolute, p.parts.foldl (cleanStep p.absolute) []⟩

/-- `filepath.Join` of two parts of a path. -/
def join (p q : Path) : Path := clean ⟨p.absolute, p.parts ++ q.parts⟩

theorem walk_append (dir parts rest : List String) :
    walk dir (parts ++ rest) = walk (walk dir parts) rest := List.foldl_append

theorem enter_downward {dir : List String} (h : ".." ∉ dir) (name : String) :
    ".." ∉ enter dir name := by
  unfold enter
  split_ifs with hup
  · exact fun hmem => h (List.dropLast_subset _ hmem)
  · intro hmem
    rcases List.mem_append.mp hmem with hmem | hmem
    · exact h hmem
    · exact hup (List.mem_singleton.mp hmem).symm

theorem walk_downward {dir : List String} (h : ".." ∉ dir) (parts : List String) :
    ".." ∉ walk dir parts := by
  induction parts generalizing dir with
  | nil => exact h
  | cons name parts ih => exact ih (enter_downward h name)

theorem locate_downward (cwd : Directory) (p : Path) : ".." ∉ locate cwd p := by
  unfold locate
  split_ifs
  · exact walk_downward List.not_mem_nil _
  · exact walk_downward cwd.downward _

/-- The names of a directory lead to it from the root. -/
theorem walk_names {names : List String} (h : ".." ∉ names) : walk [] names = names := by
  induction names using List.reverseRecOn with
  | nil => rfl
  | append_singleton names name ih =>
    have hfree : ".." ∉ names := fun hmem => h (List.mem_append_left _ hmem)
    have hname : name ≠ ".." := fun heq => h (by simp [heq])
    rw [walk_append, ih hfree]
    exact if_neg hname

/-- A cleaned absolute path does not go up. -/
theorem cleanStep_upFree {out : List String} (h : ".." ∉ out) (name : String) :
    ".." ∉ cleanStep true out name := by
  simp only [cleanStep, reduceIte]
  split_ifs with hup
  · exact fun hmem => h (List.dropLast_subset _ hmem)
  · exact h
  · intro hmem
    rcases List.mem_append.mp hmem with hmem | hmem
    · exact h hmem
    · exact hup (List.mem_singleton.mp hmem).symm

theorem walk_cleanStep {absolute : Bool} {dir out : List String}
    (habs : absolute = true → dir = [] ∧ ".." ∉ out) (name : String) :
    walk dir (cleanStep absolute out name) = enter (walk dir out) name := by
  unfold cleanStep
  split_ifs with hup hlast habsolute
  · -- The last part and the step up cancel out.
    obtain ⟨last, hsome, hne⟩ := (Option.any_eq_true _ _).mp hlast
    have hsplit : out = out.dropLast ++ [last] := by
      obtain ⟨init, rfl⟩ := List.getLast?_eq_some_iff.mp hsome
      simp
    have hwalk : walk dir out = walk dir out.dropLast ++ [last] := by
      conv_lhs => rw [hsplit, walk_append]
      exact if_neg (by simpa using hne)
    rw [hwalk, hup, enter, if_pos rfl, List.dropLast_concat]
  · obtain ⟨rfl, hfree⟩ := habs habsolute
    have hnil : out = [] := by
      by_contra hne
      obtain ⟨init, last, rfl⟩ := List.eq_nil_or_concat out |>.resolve_left hne
      simp at hlast hfree
      exact hfree.2 hlast.symm
    rw [hnil, hup]
    rfl
  · rw [walk_append, hup]
    rfl
  · rw [walk_append]
    rfl

theorem walk_clean {absolute : Bool} {dir : List String} (habs : absolute = true → dir = [])
    (parts : List String) : walk dir (parts.foldl (cleanStep absolute) []) = walk dir parts := by
  have hall : (absolute = true → ".." ∉ parts.foldl (cleanStep absolute) []) ∧
      walk dir (parts.foldl (cleanStep absolute) []) = walk dir parts := by
    induction parts using List.reverseRecOn with
    | nil => simp
    | append_singleton parts name ih =>
      rw [List.foldl_append, List.foldl_cons, List.foldl_nil]
      refine ⟨fun h => ?_, ?_⟩
      · subst h
        exact cleanStep_upFree (ih.1 rfl) name
      · rw [walk_cleanStep (fun h => ⟨habs h, ih.1 h⟩), ih.2, walk_append]
        rfl
  exact hall.2

/-- Cleaning a path does not change the file it names. -/
theorem locate_clean (cwd : Directory) (p : Path) : locate cwd p.clean = locate cwd p :=
  walk_clean (fun h => if_pos h) p.parts

theorem locate_join (cwd : Directory) (p q : Path) :
    locate cwd (p.join q) = walk (locate cwd p) q.parts := by
  rw [join, locate_clean, locate, walk_append]
  rfl

end Path

end OpsMonitor.Library
