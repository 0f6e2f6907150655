import Mathlib.Data.List.TakeWhile

/-! The bytes of a text in UTF-8, and where they are zero. -/

namespace Lib

theorem toList_toUTF8 (s : String) :
    s.toUTF8.data.toList = s.toList.flatMap String.utf8EncodeChar := by
  have h := String.toByteArray_ofList (l := s.toList)
  rw [String.ofList_toList] at h
  rw [String.toUTF8_eq_toByteArray, h, List.utf8Encode, List.toList_data_toByteArray]

theorem ofNat_ne_zero {n : Nat} (h : n % 256 ≠ 0) : UInt8.ofNat n ≠ 0 := by
  intro hzero
  have hval := congrArg UInt8.toNat hzero
  rw [UInt8.toNat_ofNat'] at hval
  exact h hval

/-- The first byte of a character other than NUL is not zero. -/
theorem head_utf8EncodeChar {c : Char} (h : 0 < c.toNat) :
    ∃ b rest, String.utf8EncodeChar c = b :: rest ∧ b ≠ 0 := by
  have hval : c.val.toNat = c.toNat := rfl
  unfold String.utf8EncodeChar
  simp only [hval]
  split
  · exact ⟨_, _, rfl, ofNat_ne_zero (by omega)⟩
  · split
    · exact ⟨_, _, rfl, ofNat_ne_zero (by omega)⟩
    · split
      · exact ⟨_, _, rfl, ofNat_ne_zero (by omega)⟩
      · exact ⟨_, _, rfl, ofNat_ne_zero (by omega)⟩

theorem utf8EncodeChar_ascii {c : Char} (hpos : 0 < c.toNat) (hlt : c.toNat < 128) :
    ∃ b, String.utf8EncodeChar c = [b] ∧ b ≠ 0 ∧ b < 128 := by
  have hval : c.val.toNat = c.toNat := rfl
  refine ⟨UInt8.ofNat c.toNat, ?_, ofNat_ne_zero (by omega), ?_⟩
  · unfold String.utf8EncodeChar
    simp only [hval]
    rw [if_pos (by omega)]
  · rw [UInt8.lt_iff_toNat_lt, UInt8.toNat_ofNat']
    show c.toNat % 256 < 128
    omega

/-- Only NUL has a byte that is zero. -/
theorem ne_zero_of_mem_utf8EncodeChar {c : Char} (h : 0 < c.toNat) {b : UInt8}
    (hb : b ∈ String.utf8EncodeChar c) : b ≠ 0 := by
  have hval : c.val.toNat = c.toNat := rfl
  unfold String.utf8EncodeChar at hb
  simp only [hval] at hb
  split at hb
  · rw [List.mem_singleton] at hb
    subst hb
    exact ofNat_ne_zero (by omega)
  · split at hb
    · simp only [List.mem_cons, List.not_mem_nil, or_false] at hb
      rcases hb with rfl | rfl
      · exact ofNat_ne_zero (by omega)
      · exact ofNat_ne_zero (by omega)
    · split at hb
      · simp only [List.mem_cons, List.not_mem_nil, or_false] at hb
        rcases hb with rfl | rfl | rfl
        · exact ofNat_ne_zero (by omega)
        · exact ofNat_ne_zero (by omega)
        · exact ofNat_ne_zero (by omega)
      · simp only [List.mem_cons, List.not_mem_nil, or_false] at hb
        rcases hb with rfl | rfl | rfl | rfl
        · exact ofNat_ne_zero (by omega)
        · exact ofNat_ne_zero (by omega)
        · exact ofNat_ne_zero (by omega)
        · exact ofNat_ne_zero (by omega)

/-- The characters before the first NUL. -/
def beforeNul (s : String) : String := .ofList (s.toList.takeWhile fun c => c.toNat ≠ 0)

/-- The bytes before the first zero are those of the characters before the first NUL. -/
theorem takeWhile_toUTF8 (s : String) :
    s.toUTF8.data.toList.takeWhile (· ≠ 0) = (beforeNul s).toUTF8.data.toList := by
  rw [toList_toUTF8, toList_toUTF8, beforeNul, String.toList_ofList]
  induction s.toList with
  | nil => rfl
  | cons c rest ih =>
    by_cases hc : c.toNat = 0
    · have hzero : String.utf8EncodeChar c = [0] := by
        obtain rfl : c = Char.ofNat 0 := by
          apply Char.toNat_inj.mp
          rw [hc]
          rfl
        rfl
      rw [List.flatMap_cons, hzero, List.takeWhile_cons_of_neg (by simpa using hc)]
      rfl
    · have hbytes : ∀ b ∈ String.utf8EncodeChar c, decide (b ≠ 0) = true := fun b hb =>
        decide_eq_true (ne_zero_of_mem_utf8EncodeChar (Nat.pos_of_ne_zero hc) hb)
      rw [List.flatMap_cons, List.takeWhile_append_of_pos hbytes, ih,
        List.takeWhile_cons_of_pos (by simpa using hc), List.flatMap_cons]

theorem beforeNul_eq_iff {s : String} : beforeNul s = s ↔ ∀ c ∈ s.toList, c.toNat ≠ 0 := by
  unfold beforeNul
  constructor
  · intro heq c hc
    have hlist : s.toList.takeWhile (fun c => c.toNat ≠ 0) = s.toList := by
      rw [← String.toList_ofList (l := s.toList.takeWhile _), heq]
    rw [← hlist] at hc
    simpa using List.mem_takeWhile_imp hc
  · intro hall
    rw [List.takeWhile_eq_self_iff.mpr (by simpa using hall), String.ofList_toList]

end Lib
