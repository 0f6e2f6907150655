import Mathlib.Data.List.Infix

/-! File paths, as lists of their characters, and how `posixpath.join` joins them.  Joining is
associative; a path that is joined to another is added below its directory, or replaces it if it
begins at the root. -/

namespace Lib

/-- The path begins at the root. -/
def IsAbsolute (p : List Char) : Prop := p.head? = some '/'

instance (p : List Char) : Decidable (IsAbsolute p) :=
  inferInstanceAs (Decidable (p.head? = some '/'))

/-- `os.path.join(p, q)`. -/
def joinPath (p q : List Char) : List Char :=
  if IsAbsolute q ∨ p = [] then q
  else if p.getLast? = some '/' then p ++ q
  else p ++ '/' :: q

/-- `os.path.join(path, *components)`. -/
def osPathJoin (path : String) (components : List String) : String :=
  .ofList ((components.map String.toList).foldl joinPath path.toList)

/-- What a relative path is added to. -/
def directory (p : List Char) : List Char := joinPath p []

/-- The path is below the directory, by its components as they are written. -/
def LiesUnder (base p : List Char) : Prop :=
  directory base <+: p ∧ (IsAbsolute p → IsAbsolute base)

variable {p q r : List Char}

theorem not_isAbsolute_nil : ¬ IsAbsolute [] := by simp [IsAbsolute]

theorem isAbsolute_append_iff (hq : q ≠ []) : IsAbsolute (q ++ r) ↔ IsAbsolute q := by
  rw [IsAbsolute, IsAbsolute, List.head?_append_of_ne_nil _ hq]

/-! ### Directories -/

theorem directory_nil : directory [] = [] := rfl

theorem directory_of_separator (h : p.getLast? = some '/') : directory p = p := by
  have hp : p ≠ [] := by rintro rfl; cases h
  rw [directory, joinPath, if_neg (not_or.mpr ⟨not_isAbsolute_nil, hp⟩), if_pos h, List.append_nil]

theorem directory_of_no_separator (hp : p ≠ []) (h : p.getLast? ≠ some '/') :
    directory p = p ++ ['/'] := by
  rw [directory, joinPath, if_neg (not_or.mpr ⟨not_isAbsolute_nil, hp⟩), if_neg h]

theorem exists_directory_eq (p : List Char) : ∃ sep, directory p = p ++ sep := by
  by_cases hp : p = []
  · exact ⟨[], by rw [hp, directory_nil, List.append_nil]⟩
  · by_cases h : p.getLast? = some '/'
    · exact ⟨[], by rw [directory_of_separator h, List.append_nil]⟩
    · exact ⟨['/'], directory_of_no_separator hp h⟩

/-- A directory ends with a separator. -/
theorem exists_directory_concat (hp : p ≠ []) : ∃ d, directory p = d ++ ['/'] := by
  by_cases h : p.getLast? = some '/'
  · obtain ⟨d, rfl⟩ := List.getLast?_eq_some_iff.mp h
    exact ⟨d, directory_of_separator h⟩
  · exact ⟨p, directory_of_no_separator hp h⟩

theorem directory_append (p : List Char) (hq : q ≠ []) : directory (p ++ q) = p ++ directory q := by
  have hlast : (p ++ q).getLast? = q.getLast? := List.getLast?_append_of_ne_nil p hq
  by_cases h : q.getLast? = some '/'
  · rw [directory_of_separator h, directory_of_separator (hlast.trans h)]
  · rw [directory_of_no_separator hq h,
      directory_of_no_separator (List.append_ne_nil_of_right_ne_nil p hq) (hlast ▸ h),
      List.append_assoc]

theorem directory_directory (p : List Char) : directory (directory p) = directory p := by
  by_cases hp : p = []
  · rw [hp, directory_nil, directory_nil]
  · by_cases h : p.getLast? = some '/'
    · rw [directory_of_separator h, directory_of_separator h]
    · rw [directory_of_no_separator hp h]
      exact directory_of_separator List.getLast?_concat

/-! ### Joining -/

theorem joinPath_of_absolute (p : List Char) (hq : IsAbsolute q) : joinPath p q = q :=
  if_pos (.inl hq)

theorem joinPath_of_relative (p : List Char) (hq : ¬ IsAbsolute q) :
    joinPath p q = directory p ++ q := by
  by_cases hp : p = []
  · rw [hp, directory_nil, List.nil_append]
    exact if_pos (.inr rfl)
  · rw [joinPath, if_neg (not_or.mpr ⟨hq, hp⟩)]
    split
    · next h => rw [directory_of_separator h]
    · next h => rw [directory_of_no_separator hp h, List.append_assoc, List.singleton_append]

theorem joinPath_assoc (p q r : List Char) :
    joinPath (joinPath p q) r = joinPath p (joinPath q r) := by
  by_cases hr : IsAbsolute r
  · rw [joinPath_of_absolute _ hr, joinPath_of_absolute _ hr, joinPath_of_absolute _ hr]
  · rw [joinPath_of_relative _ hr, joinPath_of_relative _ hr]
    by_cases hq : q = []
    · subst hq
      rw [directory_nil, List.nil_append, joinPath_of_relative _ hr]
      exact congrArg (· ++ r) (directory_directory p)
    · obtain ⟨sep, hsep⟩ := exists_directory_eq q
      have habs : IsAbsolute (directory q ++ r) ↔ IsAbsolute q := by
        rw [hsep, List.append_assoc]
        exact isAbsolute_append_iff hq
      by_cases hqabs : IsAbsolute q
      · rw [joinPath_of_absolute _ hqabs, joinPath_of_absolute _ (habs.mpr hqabs)]
      · rw [joinPath_of_relative _ hqabs, joinPath_of_relative _ (mt habs.mp hqabs),
          directory_append _ hq, List.append_assoc]

theorem isAbsolute_of_joinPath (h : IsAbsolute q) : IsAbsolute (joinPath p q) := by
  rwa [joinPath_of_absolute p h]

theorem joinPath_inj (hq : ¬ IsAbsolute q) (hr : ¬ IsAbsolute r)
    (h : joinPath p q = joinPath p r) : q = r := by
  rw [joinPath_of_relative _ hq, joinPath_of_relative _ hr] at h
  exact List.append_cancel_left h

theorem not_isAbsolute_of_not_mem (h : '/' ∉ p) : ¬ IsAbsolute p :=
  fun hp => h (List.mem_of_mem_head? hp)

/-- The directory of a name in a directory. -/
theorem directory_joinPath (hne : q ≠ []) (hq : '/' ∉ q) :
    directory (joinPath p q) = directory p ++ (q ++ ['/']) := by
  have hlast : q.getLast? ≠ some '/' := fun h => hq (List.mem_of_getLast? h)
  rw [joinPath_of_relative _ (not_isAbsolute_of_not_mem hq), directory_append _ hne,
    directory_of_no_separator hne hlast]

theorem not_isAbsolute_joinPath (hp : ¬ IsAbsolute p) (hq : ¬ IsAbsolute q) :
    ¬ IsAbsolute (joinPath p q) := by
  rw [joinPath_of_relative p hq]
  by_cases hnil : p = []
  · rwa [hnil, directory_nil, List.nil_append]
  · obtain ⟨sep, hsep⟩ := exists_directory_eq p
    rwa [hsep, List.append_assoc, isAbsolute_append_iff hnil]

/-- A relative path stays below the directory that it is joined to. -/
theorem liesUnder_joinPath (hq : ¬ IsAbsolute q) : LiesUnder p (joinPath p q) := by
  refine ⟨?_, fun h => ?_⟩
  · rw [joinPath_of_relative p hq]
    exact List.prefix_append _ _
  · by_contra hp
    exact not_isAbsolute_joinPath hp hq h

end Lib
