import Mathlib.Data.List.Infix

/-! Wildcard patterns of file names, as `fnmatch` reads those without brackets. -/

namespace Lib

inductive GlobToken
  | lit (c : Char)
  /-- `?` -/
  | any
  /-- `*` -/
  | star
  deriving DecidableEq

def GlobToken.ofChar (c : Char) : GlobToken :=
  if c = '*' then star else if c = '?' then any else lit c

def globMatch : List GlobToken → List Char → Bool
  | [], s => s.isEmpty
  | .lit c :: p, d :: s => c = d && globMatch p s
  | .any :: p, _ :: s => globMatch p s
  | .lit _ :: _, [] => false
  | .any :: _, [] => false
  | .star :: p, s => s.tails.any fun t => globMatch p t

/-- `fnmatch.fnmatchcase(name, pattern)`. -/
def fnmatch (name pattern : String) : Bool :=
  globMatch (pattern.toList.map .ofChar) name.toList

/-- No character of the text is a wildcard. -/
def Literal (w : List Char) : Prop := ∀ c ∈ w, c ≠ '*' ∧ c ≠ '?'

variable {p : List GlobToken} {w v s : List Char}

theorem Literal.append (hw : Literal w) (hv : Literal v) : Literal (w ++ v) :=
  fun c hc => (List.mem_append.mp hc).elim (hw c) (hv c)

theorem map_ofChar (h : Literal w) : w.map GlobToken.ofChar = w.map .lit := by
  refine List.map_congr_left fun c hc => ?_
  rw [GlobToken.ofChar, if_neg (h c hc).1, if_neg (h c hc).2]

theorem globMatch_lit_append :
    globMatch (w.map .lit ++ p) s = true ↔ ∃ rest, s = w ++ rest ∧ globMatch p rest = true := by
  induction w generalizing s with
  | nil => simp
  | cons c w ih =>
    cases s with
    | nil => simp [globMatch]
    | cons d s =>
      rw [List.map_cons, List.cons_append, globMatch, Bool.and_eq_true, decide_eq_true_eq, ih]
      constructor
      · rintro ⟨rfl, rest, rfl, hrest⟩
        exact ⟨rest, rfl, hrest⟩
      · rintro ⟨rest, heq, hrest⟩
        obtain ⟨rfl, rfl⟩ := List.cons.inj heq
        exact ⟨rfl, rest, rfl, hrest⟩

theorem globMatch_lit : globMatch (w.map .lit) s = true ↔ s = w := by
  have h := globMatch_lit_append (p := []) (w := w) (s := s)
  rw [List.append_nil] at h
  rw [h]
  simp [globMatch]

theorem globMatch_star :
    globMatch (.star :: p) s = true ↔ ∃ mid rest, s = mid ++ rest ∧ globMatch p rest = true := by
  rw [globMatch, List.any_eq_true]
  constructor
  · rintro ⟨rest, hrest, hmatch⟩
    obtain ⟨mid, rfl⟩ := (List.mem_tails rest s).mp hrest
    exact ⟨mid, rest, rfl, hmatch⟩
  · rintro ⟨mid, rest, rfl, hmatch⟩
    exact ⟨rest, (List.mem_tails rest _).mpr (List.suffix_append mid rest), hmatch⟩

/-- A pattern with a single `*` matches what begins and ends as it does. -/
theorem globMatch_lit_star_lit :
    globMatch (w.map .lit ++ .star :: v.map .lit) s = true ↔ ∃ mid, s = w ++ (mid ++ v) := by
  simp only [globMatch_lit_append, globMatch_star, globMatch_lit]
  constructor
  · rintro ⟨rest, rfl, mid, v, rfl, rfl⟩
    exact ⟨mid, rfl⟩
  · rintro ⟨mid, rfl⟩
    exact ⟨mid ++ v, rfl, mid, v, rfl, rfl⟩

end Lib
