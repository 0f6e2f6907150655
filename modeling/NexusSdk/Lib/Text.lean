import Mathlib.Data.List.Infix
import Mathlib.Data.List.Sort
import Mathlib.Data.String.Basic

/-! Texts of lines: joining and splitting, and the search for a word in a text.  A separator that
occurs in neither of two texts, and does not go on where they end, is found where it was put. -/

namespace Lib

/-! ### Lines -/

def joinLines (pieces : List String) : String := String.intercalate "\n" pieces

/-- The pieces of a text between its line feeds. -/
def splitLines (s : String) : List String := (s.toList.splitOn '\n').map String.ofList

theorem splitLines_eq_singleton {s : String} (h : '\n' ∉ s.toList) : splitLines s = [s] := by
  rw [splitLines, List.splitOn_eq_singleton h, List.map_singleton, String.ofList_toList]

/-- The lines of a joined text are those of its pieces. -/
theorem splitLines_joinLines {pieces : List String} (h : pieces ≠ []) :
    splitLines (joinLines pieces) = pieces.flatMap splitLines := by
  induction pieces with
  | nil => exact absurd rfl h
  | cons s rest ih =>
    cases rest with
    | nil => rw [joinLines, String.intercalate_singleton, List.flatMap_singleton]
    | cons t rest =>
      have htext : (joinLines (s :: t :: rest)).toList =
          s.toList ++ '\n' :: (joinLines (t :: rest)).toList := by
        rw [joinLines, String.intercalate_cons_cons, String.toList_append, String.toList_append,
          List.append_assoc]
        rfl
      rw [splitLines, htext, List.splitOn_append_cons_self, List.map_append, List.flatMap_cons,
        ← ih (by simp)]
      rfl

/-! ### Occurrences of a word -/

/-- `w` occurs in `s`. -/
def occursIn (w s : String) : Bool := decide (w.toList <:+: s.toList)

section Infix

variable {α : Type} {w a b a' b' sep : List α} {x : α}

/-- An occurrence does not reach over an element that the word does not have. -/
theorem infix_append_cons (hx : x ∉ w) (h : w <:+: a ++ x :: b) : w <:+: a ∨ w <:+: b := by
  obtain ⟨s, t, h⟩ := h
  rw [List.append_assoc, List.append_eq_append_iff] at h
  rcases h with ⟨as, rfl, h⟩ | ⟨bs, rfl, h⟩
  · rw [List.append_eq_append_iff] at h
    rcases h with ⟨as', rfl, -⟩ | ⟨bs, rfl, h⟩
    · exact .inl ⟨s, as', List.append_assoc ..⟩
    · cases bs with
      | nil => exact .inl ⟨s, [], by simp⟩
      | cons y bs =>
        obtain ⟨rfl, -⟩ := List.cons.inj h
        exact absurd (by simp) hx
  · cases bs with
    | nil =>
      cases w with
      | nil => exact .inl List.nil_infix
      | cons y w =>
        obtain ⟨rfl, -⟩ := List.cons.inj h
        exact absurd List.mem_cons_self hx
    | cons y bs =>
      obtain ⟨-, rfl⟩ := List.cons.inj h
      exact .inr ⟨bs, t, List.append_assoc ..⟩

theorem nil_of_append_separator (hfree : ¬ sep <:+: a ++ w)
    (hlast : ∀ e ∈ (a ++ w).getLast?, e ∉ sep) (h : sep ++ b = w ++ (sep ++ b')) : w = [] := by
  rw [List.append_eq_append_iff] at h
  rcases h with ⟨u, rfl, -⟩ | ⟨u, rfl, -⟩
  · exact absurd ⟨a, u, List.append_assoc ..⟩ hfree
  · rcases List.eq_nil_or_concat w with hw | ⟨front, e, rfl⟩
    · exact hw
    · exact absurd (by simp) (hlast e (by simp [← List.append_assoc]))

/-- A text is cut at a separator in one way, if the separator does not occur before and no part of
it ends what is before. -/
theorem eq_of_append_separator (ha : ¬ sep <:+: a) (ha' : ¬ sep <:+: a')
    (hlast : ∀ e ∈ a.getLast?, e ∉ sep) (hlast' : ∀ e ∈ a'.getLast?, e ∉ sep)
    (h : a ++ (sep ++ b) = a' ++ (sep ++ b')) : a = a' ∧ b = b' := by
  rw [List.append_eq_append_iff] at h
  rcases h with ⟨w, rfl, h⟩ | ⟨w, rfl, h⟩
  · obtain rfl := nil_of_append_separator ha' hlast' h
    exact ⟨by simp, List.append_cancel_left h⟩
  · obtain rfl := nil_of_append_separator ha hlast h
    exact ⟨by simp, (List.append_cancel_left h).symm⟩

/-- A text is cut in one way at an element that does not occur before. -/
theorem eq_of_append_cons (ha : x ∉ a) (ha' : x ∉ a') (h : a ++ x :: b = a' ++ x :: b') :
    a = a' ∧ b = b' := by
  have hcut : ∀ {l : List α}, x ∉ l → ¬ [x] <:+: l := fun hl =>
    mt (List.singleton_infix_iff x _).mp hl
  have hlast : ∀ {l : List α}, x ∉ l → ∀ e ∈ l.getLast?, e ∉ [x] := by
    intro l hl e he hx
    rw [List.mem_singleton.mp hx] at he
    exact hl (List.mem_of_getLast? he)
  exact eq_of_append_separator (hcut ha) (hcut ha') (hlast ha) (hlast ha') h

/-- A text is cut in one way at an element that does not occur after. -/
theorem eq_of_append_cons_last (hb : x ∉ b) (hb' : x ∉ b') (h : a ++ x :: b = a' ++ x :: b') :
    a = a' ∧ b = b' := by
  have hrev : b.reverse ++ x :: a.reverse = b'.reverse ++ x :: a'.reverse := by
    simpa using congrArg List.reverse h
  obtain ⟨hafter, hbefore⟩ := eq_of_append_cons (by simpa using hb) (by simpa using hb') hrev
  exact ⟨List.reverse_inj.mp hbefore, List.reverse_inj.mp hafter⟩

/-! A map that makes the elements of a word of nothing but themselves neither makes nor breaks an
occurrence of the word. -/

variable {f : α → List α} {l : List α}

theorem prefix_of_prefix_flatMap (hne : ∀ c, f c ≠ [])
    (hfixed : ∀ m ∈ w, ∀ c, m ∈ f c → c = m ∧ f c = [m]) (h : w <+: l.flatMap f) : w <+: l := by
  induction w generalizing l with
  | nil => exact List.nil_prefix
  | cons m w ih =>
    cases l with
    | nil => simp at h
    | cons c cs =>
      rw [List.flatMap_cons] at h
      have hm : m ∈ f c := by
        cases hc : f c with
        | nil => exact absurd hc (hne c)
        | cons d ds =>
          rw [hc] at h
          exact (List.cons_prefix_cons.mp h).1 ▸ List.mem_cons_self
      obtain ⟨rfl, hc⟩ := hfixed m List.mem_cons_self c hm
      rw [hc] at h
      have hrest := ih (fun m' hm' => hfixed m' (List.mem_cons_of_mem _ hm'))
        (List.cons_prefix_cons.mp h).2
      exact List.cons_prefix_cons.mpr ⟨rfl, hrest⟩

theorem infix_of_disjoint (hdisjoint : ∀ y ∈ a, y ∉ w) (h : w <:+: a ++ b) : w <:+: b := by
  induction a with
  | nil => exact h
  | cons y a ih =>
    have hcut : w <:+: [] ++ y :: (a ++ b) := h
    rcases infix_append_cons (hdisjoint y List.mem_cons_self) hcut with hnil | hrest
    · rw [List.infix_nil.mp hnil]
      exact List.nil_infix
    · exact ih (fun z hz => hdisjoint z (List.mem_cons_of_mem y hz)) hrest

theorem infix_of_infix_flatMap (hne : ∀ c, f c ≠ [])
    (hfixed : ∀ m ∈ w, ∀ c, m ∈ f c → c = m ∧ f c = [m]) (h : w <:+: l.flatMap f) : w <:+: l := by
  induction l with
  | nil => exact h
  | cons c cs ih =>
    rw [List.flatMap_cons] at h
    by_cases hshared : ∃ m ∈ w, m ∈ f c
    · obtain ⟨m, hm, hmc⟩ := hshared
      obtain ⟨rfl, hc⟩ := hfixed m hm c hmc
      have hcons : w <:+: c :: cs.flatMap f := by rwa [hc] at h
      rcases List.infix_cons_iff.mp hcons with hfirst | hrest
      · refine (prefix_of_prefix_flatMap hne hfixed ?_).isInfix
        rwa [List.flatMap_cons, hc]
      · exact (ih hrest).trans (List.suffix_cons c cs).isInfix
    · have hdisjoint : ∀ y ∈ f c, y ∉ w := fun y hy hyw => hshared ⟨y, hyw, hy⟩
      exact (ih (infix_of_disjoint hdisjoint h)).trans (List.suffix_cons c cs).isInfix

end Infix

/-! ### Letters and digits -/

/-- Lowering moves the capital letters of ASCII, and nothing else. -/
theorem toNat_toLower (c : Char) :
    65 ≤ c.toNat ∧ c.toNat ≤ 90 ∧ c.toLower.toNat = c.toNat + 32 ∨ c.toLower = c := by
  unfold Char.toLower
  split
  · next h =>
    have hupper : 65 ≤ c.toNat ∧ c.toNat ≤ 90 := h
    have hoffset : (32 : UInt32).toNat = 32 := rfl
    refine .inl ⟨hupper.1, hupper.2, ?_⟩
    show (c.val + 32).toNat = c.toNat + 32
    rw [UInt32.toNat_add, hoffset]
    exact Nat.mod_eq_of_lt (by have : c.val.toNat ≤ 90 := hupper.2; omega)
  · exact .inr rfl

theorem toLower_toLower (c : Char) : c.toLower.toLower = c.toLower := by
  rcases toNat_toLower c.toLower with ⟨hlow, hhigh, -⟩ | h
  · rcases toNat_toLower c with ⟨_, _, heq⟩ | heq
    · omega
    · rw [heq, heq]
  · exact h

theorem isDigit_of_mem_toString {n : Nat} {c : Char} (h : c ∈ (toString n).toList) :
    c.isDigit = true := by
  have hrepr : c ∈ (Nat.repr n).toList := h
  rw [Nat.repr, String.toList_ofList] at hrepr
  exact Nat.isDigit_of_mem_toDigits (by decide) (by decide) hrepr

theorem toString_nat_inj {m n : Nat} (h : toString m = toString n) : m = n := by
  have hdigits : Nat.toDigits 10 m = Nat.toDigits 10 n := by
    have hlist : (Nat.repr m).toList = (Nat.repr n).toList := congrArg String.toList h
    rwa [Nat.repr, Nat.repr, String.toList_ofList, String.toList_ofList] at hlist
  rw [← Nat.ofDigitChars_ten_toDigits (n := m), hdigits, Nat.ofDigitChars_ten_toDigits]

end Lib
