import NexusSdk.Lib.Json

/-! `loads` inverts `dumps` on the values that `loads` returns. -/

namespace Lib.Json

/-! ### Numbers -/

/-- The text does not go on with a digit. -/
def EndsDigits (r : List Char) : Prop := ∀ c ∈ r.head?, c.isDigit = false

/-- The text does not go on with a character that could belong to a number. -/
def EndsNumber (r : List Char) : Prop :=
  ∀ c ∈ r.head?, c.isDigit = false ∧ c ≠ '.' ∧ c ≠ 'e' ∧ c ≠ 'E'

theorem EndsNumber.endsDigits {r : List Char} (h : EndsNumber r) : EndsDigits r :=
  fun c hc => (h c hc).1

theorem endsDigits_cons {c : Char} {r : List Char} (h : c.isDigit = false) : EndsDigits (c :: r) := by
  intro c' hc'
  obtain rfl : c = c' := by simpa using hc'
  exact h

theorem scanDigits_append {ds r : List Char} (hds : NumberLiteral.allDigits ds = true)
    (hr : EndsDigits r) : scanDigits (ds ++ r) = (ds, r) := by
  have hall : ∀ c ∈ ds, c.isDigit = true := List.all_eq_true.mp hds
  have htake : r.takeWhile Char.isDigit = [] ∧ r.dropWhile Char.isDigit = r := by
    cases r with
    | nil => exact ⟨rfl, rfl⟩
    | cons c r => simp [hr c rfl]
  rw [scanDigits, List.takeWhile_append_of_pos hall, List.dropWhile_append_of_pos hall, htake.1,
    htake.2, List.append_nil]

theorem scanWhole_append {whole r : List Char} (hwhole : NumberLiteral.validWhole whole = true)
    (hr : EndsDigits r) : scanWhole (whole ++ r) = some (whole, r) := by
  cases whole with
  | nil => simp [NumberLiteral.validWhole] at hwhole
  | cons c ds =>
    rw [NumberLiteral.validWhole, Bool.or_eq_true, decide_eq_true_eq] at hwhole
    rcases hwhole with hzero | hdigits
    · obtain ⟨rfl, rfl⟩ := List.cons_eq_cons.mp hzero
      rfl
    · rw [Bool.and_eq_true] at hdigits
      obtain ⟨hall, hne⟩ := hdigits
      have hne : c ≠ '0' := by simpa using hne
      have hc : c.isDigit = true := List.all_eq_true.mp hall c List.mem_cons_self
      rw [List.cons_append, scanWhole, if_neg hne, if_pos hc, ← List.cons_append,
        scanDigits_append hall hr]

theorem scanFraction_append {l : NumberLiteral} {r : List Char}
    (hfraction : NumberLiteral.allDigits l.fraction = true)
    (hr : ∀ c ∈ r.head?, c.isDigit = false ∧ c ≠ '.') :
    scanFraction (l.point ++ r) = (l.fraction, r) := by
  unfold NumberLiteral.point
  split
  · next hnil =>
    rw [List.nil_append, hnil]
    cases r with
    | nil => rfl
    | cons c r =>
      unfold scanFraction
      split
      · next heq =>
        obtain ⟨rfl, -⟩ := List.cons_eq_cons.mp heq
        exact absurd rfl (hr _ rfl).2
      · rfl
  · next hne =>
    rw [List.cons_append, scanFraction, scanDigits_append hfraction fun c hc => (hr c hc).1,
      if_neg hne]

theorem scanExponent_append {exponent r : List Char}
    (hexponent : NumberLiteral.validExponent exponent = true) (hr : EndsNumber r) :
    scanExponent (exponent ++ r) = (exponent, r) := by
  cases exponent with
  | nil =>
    cases r with
    | nil => rfl
    | cons c r =>
      obtain ⟨-, -, he, hE⟩ := hr c rfl
      simp [scanExponent, he, hE]
  | cons letter rest =>
    rw [NumberLiteral.validExponent, Bool.and_eq_true, Bool.or_eq_true, decide_eq_true_eq,
      decide_eq_true_eq] at hexponent
    obtain ⟨hletter, hdigits⟩ := hexponent
    rw [List.cons_append, scanExponent, if_pos hletter]
    cases rest with
    | nil => simp at hdigits
    | cons c ds =>
      simp only [List.head?_cons, Option.some.injEq, List.tail_cons, List.cons_append] at hdigits ⊢
      by_cases hsign : c = '+' ∨ c = '-'
      · simp only [hsign, if_true, Bool.and_eq_true, Bool.not_eq_true', List.isEmpty_eq_false_iff]
          at hdigits ⊢
        simp only [List.take_succ_cons, List.take_zero, List.length_cons, List.length_nil,
          List.drop_succ_cons, List.drop_zero, scanDigits_append hdigits.2 hr.endsDigits,
          if_neg hdigits.1]
        rfl
      · simp only [hsign, if_false, Bool.and_eq_true] at hdigits ⊢
        rw [List.length_nil, List.drop_zero, ← List.cons_append,
          scanDigits_append hdigits.2 hr.endsDigits]
        simp

theorem exponent_head {exponent r : List Char}
    (hexponent : NumberLiteral.validExponent exponent = true) (hr : EndsNumber r) :
    ∀ c ∈ (exponent ++ r).head?, c.isDigit = false ∧ c ≠ '.' := by
  intro c hc
  cases exponent with
  | nil => exact ⟨(hr c hc).1, (hr c hc).2.1⟩
  | cons letter rest =>
    rw [NumberLiteral.validExponent, Bool.and_eq_true, Bool.or_eq_true, decide_eq_true_eq,
      decide_eq_true_eq] at hexponent
    obtain rfl : letter = c := by simpa using hc
    rcases hexponent.1 with rfl | rfl <;> decide

theorem whole_head {whole : List Char} (h : NumberLiteral.validWhole whole = true) :
    ∃ c ds, whole = c :: ds ∧ c.isDigit = true := by
  cases whole with
  | nil => simp [NumberLiteral.validWhole] at h
  | cons c ds =>
    refine ⟨c, ds, rfl, ?_⟩
    rw [NumberLiteral.validWhole, Bool.or_eq_true, decide_eq_true_eq, Bool.and_eq_true] at h
    rcases h with hzero | ⟨hall, -⟩
    · obtain ⟨rfl, -⟩ := List.cons_eq_cons.mp hzero
      decide
    · exact List.all_eq_true.mp hall c List.mem_cons_self

/-- The sign of a literal, and the rest of the text. -/
theorem render_append {l : NumberLiteral} (hwhole : NumberLiteral.validWhole l.whole = true)
    (r : List Char) :
    decide ((l.render ++ r).head? = some '-') = l.negative ∧
      (if (l.render ++ r).head? = some '-' then (l.render ++ r).tail else l.render ++ r) =
        l.whole ++ (l.point ++ (l.exponent ++ r)) := by
  obtain ⟨c, ds, hcons, hdigit⟩ := whole_head hwhole
  have hc : c ≠ '-' := by
    rintro rfl
    cases hdigit
  cases hneg : l.negative with
  | true => simp [NumberLiteral.render, NumberLiteral.sign, hneg]
  | false => simp [NumberLiteral.render, NumberLiteral.sign, hneg, hcons, hc]

/-- A valid literal is read back, up to the end of the number. -/
theorem scanNumber_render {l : NumberLiteral} (hl : l.valid = true) {r : List Char}
    (hr : EndsNumber r) : scanNumber (l.render ++ r) = some (l, r) := by
  simp only [NumberLiteral.valid, Bool.and_eq_true] at hl
  obtain ⟨⟨hwhole, hfraction⟩, hexponent⟩ := hl
  have hhead := exponent_head hexponent hr
  have hpoint : EndsDigits (l.point ++ (l.exponent ++ r)) := by
    unfold NumberLiteral.point
    split
    · exact fun c hc => (hhead c hc).1
    · exact endsDigits_cons (by decide)
  have hscan : scanWhole (l.whole ++ (l.point ++ (l.exponent ++ r))) =
      some (l.whole, l.point ++ (l.exponent ++ r)) := scanWhole_append hwhole hpoint
  obtain ⟨hnegative, hunsigned⟩ := render_append hwhole r
  unfold scanNumber
  simp only [hnegative, hunsigned, hscan, Option.map_some, scanFraction_append hfraction hhead,
    scanExponent_append hexponent hr]

theorem head_toDigits {n : Nat} (hn : n ≠ 0) : (Nat.toDigits 10 n).head? ≠ some '0' := by
  induction n using Nat.strongRecOn with
  | ind n ih =>
    rw [Nat.toDigits_eq_if (by decide)]
    split
    · next h =>
      intro hzero
      have hchar : Nat.digitChar n = '0' := by simpa using hzero
      have hval := Nat.toNat_digitChar_of_lt_ten h
      rw [hchar] at hval
      exact hn (by simpa using hval)
    · next h =>
      rw [List.head?_append_of_ne_nil _ Nat.toDigits_ne_nil]
      exact ih (n / 10) (by omega) (by omega)

theorem valid_intLiteral (i : Int) : (intLiteral i).valid = true := by
  have hdigits : NumberLiteral.allDigits (Nat.toDigits 10 i.natAbs) = true :=
    List.all_eq_true.mpr fun c hc => Nat.isDigit_of_mem_toDigits (by decide) (by decide) hc
  have hwhole : NumberLiteral.validWhole (Nat.toDigits 10 i.natAbs) = true := by
    rw [NumberLiteral.validWhole, hdigits, Bool.true_and, Bool.or_eq_true]
    by_cases hzero : i.natAbs = 0
    · rw [hzero]
      exact .inl rfl
    · refine .inr ?_
      have hhead := head_toDigits hzero
      cases h : (Nat.toDigits 10 i.natAbs).head? with
      | none => exact absurd (List.head?_eq_none_iff.mp h) Nat.toDigits_ne_nil
      | some c =>
        rw [h] at hhead
        simpa using hhead
  simp [NumberLiteral.valid, intLiteral, hwhole, NumberLiteral.allDigits,
    NumberLiteral.validExponent]

theorem toInt_intLiteral (i : Int) : (intLiteral i).toInt = i := by
  simp only [intLiteral, NumberLiteral.toInt, Nat.ofDigitChars_ten_toDigits, decide_eq_true_eq]
  split <;> omega

/-! ### Strings -/

theorem hexValue_digitChar {d : Nat} (hd : d < 16) : hexValue (Nat.digitChar d) = some d := by
  have hall : ∀ d < 16, hexValue (Nat.digitChar d) = some d := by decide
  exact hall d hd

theorem unitOfHex_hex4 (u : UInt16) :
    unitOfHex (Nat.digitChar (u.toNat / 4096 % 16)) (Nat.digitChar (u.toNat / 256 % 16))
      (Nat.digitChar (u.toNat / 16 % 16)) (Nat.digitChar (u.toNat % 16)) = some u := by
  have hlt : u.toNat < 65536 := u.toNat_lt
  simp only [unitOfHex, hexValue_digitChar (Nat.mod_lt _ (by decide : 16 > 0)), Option.bind_eq_bind,
    Option.bind_some, Option.pure_def, Option.some.injEq]
  rw [← UInt16.toNat_inj, UInt16.toNat_ofNat']
  omega

theorem scanString_char {c : Char} (hquote : c ≠ '"') (hback : c ≠ '\\') (r : List Char) :
    scanString (c :: r) =
      if c.toNat < 32 then none else (scanString r).map fun (s, r) => (utf16 c ++ s, r) := by
  rw [scanString.eq_def]
  split
  · next heq => cases heq
  · next heq => exact absurd (List.cons_eq_cons.mp heq).1 hquote
  · next heq => exact absurd (List.cons_eq_cons.mp heq).1 hback
  · next heq => exact absurd (List.cons_eq_cons.mp heq).1 hback
  · next heq =>
    obtain ⟨rfl, rfl⟩ := List.cons_eq_cons.mp heq
    simp [hback]

theorem scanString_escape (u : UInt16) (r : List Char) :
    scanString (escape u ++ r) = (scanString r).map fun (s, r) => (u :: s, r) := by
  unfold escape
  cases hfind : shortEscapes.find? fun e => e.2 = u.toNat with
  | some e =>
    have hunit : u = UInt16.ofNat e.2 := by
      have heq : e.2 = u.toNat := by simpa using List.find?_some hfind
      rw [heq, UInt16.ofNat_toNat]
    have hshort : ∀ e ∈ shortEscapes, ∀ r, scanString ('\\' :: e.1 :: r) =
        (scanString r).map fun (s, r) => (UInt16.ofNat e.2 :: s, r) := by
      simp [shortEscapes, scanString, unescape]
    rw [hunit]
    exact hshort e (List.mem_of_find?_eq_some hfind) r
  | none =>
    have hnone : ∀ e ∈ shortEscapes, e.2 ≠ u.toNat := by
      simpa using List.find?_eq_none.mp hfind
    simp only
    split
    · next hprint =>
      have hval : (Char.ofNat u.toNat).toNat = u.toNat := by
        rw [Char.ofNat, dif_pos (.inl (by omega))]
        rfl
      have hquote : Char.ofNat u.toNat ≠ '"' := fun h =>
        hnone ('"', 34) (by decide) (by rw [← hval, h]; rfl)
      have hback : Char.ofNat u.toNat ≠ '\\' := fun h =>
        hnone ('\\', 92) (by decide) (by rw [← hval, h]; rfl)
      have hunit : utf16 (Char.ofNat u.toNat) = [u] := by
        rw [utf16, hval, if_pos (by omega), UInt16.ofNat_toNat]
      rw [List.singleton_append, scanString_char hquote hback, hval, if_neg (by omega), hunit]
      rfl
    · simp [hex4, scanString, unitOfHex_hex4]

theorem scanString_flatMap (s : List UInt16) (r : List Char) :
    scanString (s.flatMap escape ++ '"' :: r) = some (s, r) := by
  induction s with
  | nil => rfl
  | cons u s ih =>
    rw [List.flatMap_cons, List.append_assoc, scanString_escape, ih]
    rfl

theorem decodeUtf16_utf16 (c : Char) (r : List UInt16) :
    decodeUtf16 (utf16 c ++ r) = (decodeUtf16 r).map fun l => c :: l := by
  have hvalid : c.toNat < 55296 ∨ 57343 < c.toNat ∧ c.toNat < 1114112 := c.valid
  unfold utf16
  split
  · next hsmall =>
    have hval : (UInt16.ofNat c.toNat).toNat = c.toNat := by
      rw [UInt16.toNat_ofNat']
      omega
    rw [List.singleton_append, decodeUtf16.eq_def]
    simp only [hval, Char.ofNat_toNat]
    rw [if_pos (by omega)]
  · next hlarge =>
    have hhigh : (UInt16.ofNat (55296 + (c.toNat - 65536) / 1024)).toNat =
        55296 + (c.toNat - 65536) / 1024 := by
      rw [UInt16.toNat_ofNat']
      omega
    have hlow : (UInt16.ofNat (56320 + (c.toNat - 65536) % 1024)).toNat =
        56320 + (c.toNat - 65536) % 1024 := by
      rw [UInt16.toNat_ofNat']
      omega
    have hsum : 65536 + 1024 * (55296 + (c.toNat - 65536) / 1024 - 55296) +
        (56320 + (c.toNat - 65536) % 1024 - 56320) = c.toNat := by omega
    rw [List.cons_append, List.singleton_append, decodeUtf16.eq_def]
    simp only [hhigh, hlow, hsum, Char.ofNat_toNat]
    rw [if_neg (by omega), if_pos (by omega)]

/-- The units of a text determine it. -/
theorem decodeUtf16_flatMap (l : List Char) : decodeUtf16 (l.flatMap utf16) = some l := by
  induction l with
  | nil => rfl
  | cons c l ih =>
    rw [List.flatMap_cons, decodeUtf16_utf16, ih]
    rfl

/-! ### Values -/

variable {F : Type} {fmt : FloatFormat F}

/-- The values that `loads` returns: no object has a key twice. -/
inductive Wf : Json F → Prop
  | null : Wf null
  | bool (b : Bool) : Wf (bool b)
  | int (i : Int) : Wf (int i)
  | float (f : F) : Wf (float f)
  | str (s : List UInt16) : Wf (str s)
  | arr {l : List (Json F)} (h : ∀ v ∈ l, Wf v) : Wf (arr l)
  | obj {members : List (List UInt16 × Json F)} (hkeys : (members.map Prod.fst).Nodup)
      (h : ∀ m ∈ members, Wf m.2) : Wf (obj members)

/-- What a value starts with: neither whitespace nor the end of an array. -/
def StartsValue (l : List Char) : Prop := ∃ c r, l = c :: r ∧ isWhitespace c = false ∧ c ≠ ']'

theorem StartsValue.skip {l : List Char} (h : StartsValue l) (r : List Char) :
    skipWhitespace (l ++ r) = l ++ r := by
  obtain ⟨c, l, rfl, hc, -⟩ := h
  simp [skipWhitespace, hc]

theorem digit_cases {c : Char} (h : c.isDigit = true) :
    isWhitespace c = false ∧ c ∉ ['"', '{', '[', ']', 'n', 't', 'f', 'N', 'I', '-'] := by
  have hne (d : Char) (hd : d.isDigit = false) : c ≠ d := by
    rintro rfl
    rw [h] at hd
    cases hd
  simp [isWhitespace, hne]

theorem render_head {l : NumberLiteral} (hl : l.valid = true) :
    (∃ c r, l.render = c :: r ∧ c.isDigit = true) ∨
      ∃ c r, l.render = '-' :: c :: r ∧ c.isDigit = true := by
  simp only [NumberLiteral.valid, Bool.and_eq_true] at hl
  obtain ⟨c, ds, hwhole, hc⟩ := whole_head hl.1.1
  cases hneg : l.negative with
  | false =>
    exact .inl ⟨c, ds ++ (l.point ++ l.exponent), by
      simp [NumberLiteral.render, NumberLiteral.sign, hneg, hwhole], hc⟩
  | true =>
    exact .inr ⟨c, ds ++ (l.point ++ l.exponent), by
      simp [NumberLiteral.render, NumberLiteral.sign, hneg, hwhole], hc⟩

theorem startsValue_render {l : NumberLiteral} (hl : l.valid = true) : StartsValue l.render := by
  rcases render_head hl with ⟨c, r, hrender, hc⟩ | ⟨c, r, hrender, -⟩
  · obtain ⟨hspace, hne⟩ := digit_cases hc
    exact ⟨c, r, hrender, hspace, fun h => hne (by simp [h])⟩
  · exact ⟨'-', c :: r, hrender, by decide, by decide⟩

theorem startsValue_dumps (fmt : FloatFormat F) (v : Json F) : StartsValue (dumps fmt v) := by
  cases v with
  | null => exact ⟨_, _, rfl, by decide, by decide⟩
  | bool b => cases b <;> exact ⟨_, _, rfl, by decide, by decide⟩
  | int i => exact startsValue_render (valid_intLiteral i)
  | float f =>
    have hvalid := fmt.valid_text f
    show StartsValue (fmt.text f).chars
    cases htext : fmt.text f with
    | literal l =>
      rw [htext, FloatText.valid, Bool.and_eq_true] at hvalid
      exact startsValue_render hvalid.1
    | _ => exact ⟨_, _, rfl, by decide, by decide⟩
  | str s => exact ⟨_, _, rfl, by decide, by decide⟩
  | arr l => cases l <;> exact ⟨_, _, rfl, by decide, by decide⟩
  | obj members =>
    cases members with
    | nil => exact ⟨_, _, rfl, by decide, by decide⟩
    | cons m rest => exact ⟨_, _, rfl, by decide, by decide⟩

/-- A text that starts with neither a quote nor a bracket is a constant or a number. -/
theorem scanValue_scalar {c : Char} (hc : c ∉ ['"', '{', '[']) (n : Nat) (r : List Char) :
    scanValue fmt (n + 1) (c :: r) =
      match scanConstant fmt (c :: r) with
      | some result => some result
      | none => (scanNumber (c :: r)).map fun (literal, r) => (numberValue fmt literal, r) := by
  simp only [List.mem_cons, List.not_mem_nil, or_false, not_or] at hc
  unfold scanValue
  split
  · next heq => exact absurd (List.cons_eq_cons.mp heq).1 hc.1
  · next heq => exact absurd (List.cons_eq_cons.mp heq).1 hc.2.1
  · next heq => exact absurd (List.cons_eq_cons.mp heq).1 hc.2.2
  · rfl

theorem scanConstant_digit {c : Char} (hc : c.isDigit = true) (r : List Char) :
    scanConstant fmt (c :: r) = none ∧ scanConstant fmt ('-' :: c :: r) = none := by
  have hne := (digit_cases hc).2
  simp only [List.mem_cons, List.not_mem_nil, or_false, not_or] at hne
  obtain ⟨-, -, -, -, hn, ht, hf, hN, hI, hminus⟩ := hne
  simp [scanConstant, constants, FloatText.chars, List.isPrefixOf?, Ne.symm hn, Ne.symm ht,
    Ne.symm hf, Ne.symm hN, Ne.symm hI, Ne.symm hminus]

theorem scanValue_render {l : NumberLiteral} (hl : l.valid = true) (n : Nat) {r : List Char}
    (hr : EndsNumber r) :
    scanValue fmt (n + 1) (l.render ++ r) = some (numberValue fmt l, r) := by
  have hnumber := scanNumber_render hl hr
  rcases render_head hl with ⟨c, r', hrender, hc⟩ | ⟨c, r', hrender, hc⟩
  · have hne : c ∉ ['"', '{', '['] := fun h => (digit_cases hc).2 (by
      simp only [List.mem_cons, List.not_mem_nil, or_false] at h ⊢
      tauto)
    rw [hrender, List.cons_append] at hnumber ⊢
    rw [scanValue_scalar hne, (scanConstant_digit hc _).1, hnumber]
    rfl
  · rw [hrender, List.cons_append, List.cons_append] at hnumber ⊢
    rw [scanValue_scalar (by decide), (scanConstant_digit hc _).2, hnumber]
    rfl

theorem scanValue_string (s : List UInt16) (n : Nat) (r : List Char) :
    scanValue fmt (n + 1) (dumpString s ++ r) = some (str s, r) := by
  rw [dumpString, List.cons_append, List.append_assoc, List.singleton_append, scanValue,
    scanString_flatMap]
  rfl

/-- With enough fuel, the value is read from its text. -/
def Reads (fmt : FloatFormat F) (v : Json F) : Prop :=
  ∀ n r, EndsNumber r → 2 * (dumps fmt v ++ r).length + 1 ≤ n →
    scanValue fmt n (dumps fmt v ++ r) = some (v, r)

theorem reads_float (f : F) : Reads fmt (float f) := by
  intro n r hr hn
  obtain ⟨n, rfl⟩ : ∃ k, n = k + 1 := ⟨n - 1, by omega⟩
  have hvalid := fmt.valid_text f
  have hvalue := fmt.ofText_text f
  rw [dumps]
  cases htext : fmt.text f with
  | literal l =>
    rw [htext, FloatText.valid, Bool.and_eq_true, Bool.not_eq_true'] at hvalid
    rw [htext] at hvalue
    rw [FloatText.chars, scanValue_render hvalid.1 n hr, numberValue, hvalid.2, hvalue]
    rfl
  | nan =>
    rw [htext] at hvalue
    simp [FloatText.chars, scanValue_scalar, scanConstant, constants, List.isPrefixOf?, hvalue]
  | infinity =>
    rw [htext] at hvalue
    simp [FloatText.chars, scanValue_scalar, scanConstant, constants, List.isPrefixOf?, hvalue]
  | negInfinity =>
    rw [htext] at hvalue
    simp [FloatText.chars, scanValue_scalar, scanConstant, constants, List.isPrefixOf?, hvalue]

theorem endsNumber_cons {c : Char} {r : List Char}
    (h : c.isDigit = false ∧ c ≠ '.' ∧ c ≠ 'e' ∧ c ≠ 'E') : EndsNumber (c :: r) := by
  intro c' hc'
  obtain rfl : c = c' := by simpa using hc'
  exact h

theorem endsNumber_dumpElements (fmt : FloatFormat F) (vs : List (Json F)) (r : List Char) :
    EndsNumber (dumpElements fmt vs ++ r) := by
  cases vs with
  | nil => exact endsNumber_cons (by decide)
  | cons v rest => exact endsNumber_cons (by decide)

theorem endsNumber_dumpMembers (fmt : FloatFormat F) (ms : List (List UInt16 × Json F))
    (r : List Char) :
    EndsNumber (dumpMembers fmt ms ++ r) := by
  cases ms with
  | nil => exact endsNumber_cons (by decide)
  | cons m rest => exact endsNumber_cons (by decide)

/-- The elements after a separator. -/
theorem scanElements_separator {n : Nat} {v : Json F} {l r : List Char}
    (hv : scanValue fmt n l = some (v, ',' :: ' ' :: r)) (hr : skipWhitespace r = r) :
    scanElements fmt (n + 1) l = (scanElements fmt n r).map fun (rest, r) => (v :: rest, r) := by
  have hspace : skipWhitespace (' ' :: r) = r := hr
  have hcomma : skipWhitespace (',' :: ' ' :: r) = ',' :: ' ' :: r := rfl
  rw [scanElements, hv]
  simp only [hcomma, hspace]

/-- The elements of an array are read one after the other. -/
theorem scanElements_dumps {v : Json F} {vs : List (Json F)} (h : ∀ w ∈ v :: vs, Reads fmt w)
    (n : Nat) (r : List Char)
    (hn : 2 * (dumps fmt v ++ (dumpElements fmt vs ++ r)).length + 2 ≤ n) :
    scanElements fmt n (dumps fmt v ++ (dumpElements fmt vs ++ r)) = some (v :: vs, r) := by
  induction vs generalizing v n with
  | nil =>
    obtain ⟨n, rfl⟩ : ∃ k, n = k + 1 := ⟨n - 1, by omega⟩
    have hv := h v List.mem_cons_self n _ (endsNumber_dumpElements fmt [] r) (by omega)
    rw [scanElements, hv]
    rfl
  | cons w ws ih =>
    obtain ⟨n, rfl⟩ : ∃ k, n = k + 1 := ⟨n - 1, by omega⟩
    have hv := h v List.mem_cons_self n _ (endsNumber_dumpElements fmt (w :: ws) r)
      (by omega)
    have hws := ih (fun u hu => h u (List.mem_cons_of_mem v hu)) n (by
      simp only [dumpElements, List.length_append, List.length_cons] at hn ⊢
      omega)
    rw [dumpElements, List.cons_append, List.cons_append, List.append_assoc] at hv ⊢
    rw [scanElements_separator hv ((startsValue_dumps fmt w).skip _), hws]
    rfl

/-- The text of a member before its value. -/
def dumpKey (k : List UInt16) (r : List Char) : List Char := dumpString k ++ (':' :: ' ' :: r)

theorem scanMembers_key {n : Nat} {k : List UInt16} {r : List Char} (hr : skipWhitespace r = r) :
    scanMembers fmt (n + 1) (dumpKey k r) =
      match scanValue fmt n r with
      | none => none
      | some (v, r) =>
        match skipWhitespace r with
        | '}' :: r => some ([(k, v)], r)
        | ',' :: r => (scanMembers fmt n (skipWhitespace r)).map fun (rest, r) =>
            ((k, v) :: rest, r)
        | _ => none := by
  have hspace : skipWhitespace (' ' :: r) = r := hr
  rw [dumpKey, dumpString, List.cons_append, List.append_assoc, List.singleton_append, scanMembers,
    scanString_flatMap]
  conv_rhs => rw [← hspace]
  rfl

/-- The members of an object are read one after the other. -/
theorem scanMembers_dumps {k : List UInt16} {v : Json F} {ms : List (List UInt16 × Json F)}
    (h : ∀ m ∈ (k, v) :: ms, Reads fmt m.2) (n : Nat) (r : List Char)
    (hn : 2 * (dumpKey k (dumps fmt v ++ (dumpMembers fmt ms ++ r))).length + 2 ≤ n) :
    scanMembers fmt n (dumpKey k (dumps fmt v ++ (dumpMembers fmt ms ++ r))) =
      some ((k, v) :: ms, r) := by
  induction ms generalizing k v n with
  | nil =>
    obtain ⟨n, rfl⟩ : ∃ k, n = k + 1 := ⟨n - 1, by omega⟩
    have hv := h (k, v) List.mem_cons_self n _ (endsNumber_dumpMembers fmt [] r) (by
      simp only [dumpKey, List.length_append, List.length_cons] at hn ⊢
      omega)
    rw [scanMembers_key ((startsValue_dumps fmt v).skip _), hv]
    rfl
  | cons m ms ih =>
    obtain ⟨n, rfl⟩ : ∃ k, n = k + 1 := ⟨n - 1, by omega⟩
    have hv := h (k, v) List.mem_cons_self n _ (endsNumber_dumpMembers fmt (m :: ms) r)
      (by
        simp only [dumpKey, List.length_append, List.length_cons] at hn ⊢
        omega)
    have hms := ih (fun m' hm' => h m' (List.mem_cons_of_mem (k, v) hm')) n (by
      simp only [dumpKey, dumpMembers, List.length_append, List.length_cons] at hn ⊢
      omega)
    rw [scanMembers_key ((startsValue_dumps fmt v).skip _), hv]
    have hcomma : skipWhitespace (dumpMembers fmt (m :: ms) ++ r) =
        ',' :: ' ' :: dumpKey m.1 (dumps fmt m.2 ++ (dumpMembers fmt ms ++ r)) := by
      simp [dumpMembers, dumpKey, skipWhitespace, isWhitespace]
    have hspace : skipWhitespace (' ' :: dumpKey m.1 (dumps fmt m.2 ++ (dumpMembers fmt ms ++ r))) =
        dumpKey m.1 (dumps fmt m.2 ++ (dumpMembers fmt ms ++ r)) := rfl
    simp only [hcomma, hspace, hms, Option.map_some]

theorem scanValue_arr {v : Json F} {vs : List (Json F)} {n : Nat} {r : List Char}
    (h : scanElements fmt n (dumps fmt v ++ (dumpElements fmt vs ++ r)) = some (v :: vs, r)) :
    scanValue fmt (n + 1) (dumps fmt (arr (v :: vs)) ++ r) = some (arr (v :: vs), r) := by
  have hskip := (startsValue_dumps fmt v).skip (dumpElements fmt vs ++ r)
  obtain ⟨c, l, hcons, -, hne⟩ := startsValue_dumps fmt v
  rw [dumps, List.cons_append, List.append_assoc, scanValue, hskip]
  rw [hcons, List.cons_append] at h ⊢
  split
  · next heq => exact absurd (List.cons_eq_cons.mp heq).1 hne
  · rw [h]
    rfl

theorem scanValue_obj {k : List UInt16} {v : Json F} {ms : List (List UInt16 × Json F)} {n : Nat}
    {r : List Char} (hkeys : (((k, v) :: ms).map Prod.fst).Nodup)
    (h : scanMembers fmt n (dumpKey k (dumps fmt v ++ (dumpMembers fmt ms ++ r))) =
      some ((k, v) :: ms, r)) :
    scanValue fmt (n + 1) (dumps fmt (obj ((k, v) :: ms)) ++ r) = some (obj ((k, v) :: ms), r) := by
  have htext : dumps fmt (obj ((k, v) :: ms)) ++ r =
      '{' :: dumpKey k (dumps fmt v ++ (dumpMembers fmt ms ++ r)) := by
    simp [dumps, dumpKey]
  rw [htext, scanValue]
  show Option.map _ (scanMembers fmt n (dumpKey k _)) = _
  rw [h]
  show some (obj (Dict.ofList ((k, v) :: ms)).items, r) = _
  rw [Dict.items_ofList hkeys]

/-- A value without repeated keys is read from its text. -/
theorem Wf.reads (fmt : FloatFormat F) {v : Json F} (h : Wf v) : Reads fmt v := by
  induction h with
  | null =>
    intro n r hr hn
    obtain ⟨n, rfl⟩ : ∃ k, n = k + 1 := ⟨n - 1, by omega⟩
    simp [dumps, scanValue_scalar, scanConstant, constants, List.isPrefixOf?]
  | bool b =>
    intro n r hr hn
    obtain ⟨n, rfl⟩ : ∃ k, n = k + 1 := ⟨n - 1, by omega⟩
    cases b <;> simp [dumps, scanValue_scalar, scanConstant, constants, List.isPrefixOf?]
  | int i =>
    intro n r hr hn
    obtain ⟨n, rfl⟩ : ∃ k, n = k + 1 := ⟨n - 1, by omega⟩
    rw [dumps, scanValue_render (valid_intLiteral i) n hr, numberValue, toInt_intLiteral]
    rfl
  | float f => exact reads_float f
  | str s =>
    intro n r hr hn
    obtain ⟨n, rfl⟩ : ∃ k, n = k + 1 := ⟨n - 1, by omega⟩
    rw [dumps, scanValue_string]
  | @arr l h ih =>
    intro n r hr hn
    obtain ⟨n, rfl⟩ : ∃ k, n = k + 1 := ⟨n - 1, by omega⟩
    cases l with
    | nil => rfl
    | cons v vs =>
      refine scanValue_arr (scanElements_dumps ih n r ?_)
      simp only [dumps, List.length_append, List.length_cons] at hn ⊢
      omega
  | @obj members hkeys h ih =>
    intro n r hr hn
    obtain ⟨n, rfl⟩ : ∃ k, n = k + 1 := ⟨n - 1, by omega⟩
    cases members with
    | nil => rfl
    | cons m ms =>
      refine scanValue_obj hkeys (scanMembers_dumps ih n r ?_)
      simp only [dumps, dumpKey, List.length_append, List.length_cons] at hn ⊢
      omega

theorem loads_dumps {v : Json F} (h : Wf v) : loads fmt (dumps fmt v) = some v := by
  have hread := h.reads fmt (2 * (dumps fmt v).length + 1) [] (by simp [EndsNumber])
    (by simp)
  have hskip := (startsValue_dumps fmt v).skip []
  rw [List.append_nil] at hread hskip
  rw [loads, hskip, hread]
  rfl

/-! ### What `loads` returns -/

theorem wf_ofPairs {pairs : List (List UInt16 × Json F)} (h : ∀ m ∈ pairs, Wf m.2) :
    Wf (ofPairs pairs) :=
  .obj (Dict.ofList pairs).nodup fun m hm => h m (Dict.mem_of_mem_ofList hm)

theorem wf_constants : ∀ e ∈ constants fmt, Wf e.2 := by
  intro e he
  simp only [constants, List.map_cons, List.map_nil, List.mem_append, List.mem_cons,
    List.not_mem_nil, or_false] at he
  rcases he with (rfl | rfl | rfl) | rfl | rfl | rfl <;> constructor

theorem wf_numberValue (l : NumberLiteral) : Wf (numberValue fmt l) := by
  unfold numberValue
  split <;> constructor

theorem wf_scanConstant {l r : List Char} {v : Json F}
    (h : scanConstant fmt l = some (v, r)) : Wf v := by
  obtain ⟨e, he, hmap⟩ := List.exists_of_findSome?_eq_some h
  obtain ⟨r', -, hr⟩ := Option.map_eq_some_iff.mp hmap
  obtain ⟨rfl, -⟩ := Prod.mk.inj hr
  exact wf_constants e he

/-- The scanners return values without repeated keys. -/
theorem wf_of_scan (n : Nat) :
    (∀ l v r, scanValue fmt n l = some (v, r) → Wf v) ∧
      (∀ l vs r, scanElements fmt n l = some (vs, r) → ∀ v ∈ vs, Wf v) ∧
      (∀ l ms r, scanMembers fmt n l = some (ms, r) → ∀ m ∈ ms, Wf m.2) := by
  induction n with
  | zero => simp [scanValue, scanElements, scanMembers]
  | succ n ih =>
    obtain ⟨ihValue, ihElements, ihMembers⟩ := ih
    refine ⟨fun l v r h => ?_, fun l vs r h => ?_, fun l ms r h => ?_⟩
    · rw [scanValue.eq_def] at h
      simp only at h
      split at h
      · obtain ⟨_, -, hv⟩ := Option.map_eq_some_iff.mp h
        cases hv
        exact .str _
      · split at h
        · cases h
          exact .obj List.nodup_nil (by simp)
        · obtain ⟨_, hscan, hv⟩ := Option.map_eq_some_iff.mp h
          cases hv
          exact wf_ofPairs (ihMembers _ _ _ hscan)
      · split at h
        · cases h
          exact .arr (by simp)
        · obtain ⟨_, hscan, hv⟩ := Option.map_eq_some_iff.mp h
          cases hv
          exact .arr (ihElements _ _ _ hscan)
      · split at h
        · next hconst =>
          cases h
          exact wf_scanConstant hconst
        · obtain ⟨_, -, hv⟩ := Option.map_eq_some_iff.mp h
          cases hv
          exact wf_numberValue _
    · rw [scanElements] at h
      split at h
      · cases h
      · next v r' hv =>
        have hwf := ihValue _ _ _ hv
        split at h
        · cases h
          simpa using hwf
        · obtain ⟨_, hscan, heq⟩ := Option.map_eq_some_iff.mp h
          cases heq
          exact List.forall_mem_cons.mpr ⟨hwf, ihElements _ _ _ hscan⟩
        · cases h
    · rw [scanMembers.eq_def] at h
      simp only at h
      split at h
      · split at h
        · cases h
        · split at h
          · split at h
            · cases h
            · next v r' hv =>
              have hwf := ihValue _ _ _ hv
              split at h
              · cases h
                simpa using hwf
              · obtain ⟨_, hscan, heq⟩ := Option.map_eq_some_iff.mp h
                cases heq
                exact List.forall_mem_cons.mpr ⟨hwf, ihMembers _ _ _ hscan⟩
              · cases h
          · cases h
      · cases h

theorem wf_loads {text : List Char} {v : Json F} (h : loads fmt text = some v) : Wf v := by
  unfold loads at h
  split at h
  · next hscan =>
    split at h
    · cases h
      exact (wf_of_scan _).1 _ _ _ hscan
    · cases h
  · cases h

/-- A byte-order mark or a zero byte in the text could be taken for another encoding. -/
def StartsAscii (text : List Char) : Prop :=
  ∃ c r, text = c :: r ∧ 0 < c.toNat ∧ c.toNat < 128 ∧ ∀ d ∈ r.head?, 0 < d.toNat

theorem skipWhitespace_nul (r : List Char) : skipWhitespace ('\x00' :: r) = '\x00' :: r := rfl

theorem scanValue_nul (n : Nat) (r : List Char) : scanValue fmt n ('\x00' :: r) = none := by
  cases n with
  | zero => rfl
  | succ n =>
    rw [scanValue_scalar (by decide)]
    simp [scanConstant, constants, FloatText.chars, List.isPrefixOf?, scanNumber, scanWhole]

theorem scanElements_nul (n : Nat) (r : List Char) : scanElements fmt n ('\x00' :: r) = none := by
  cases n with
  | zero => rfl
  | succ n => rw [scanElements, scanValue_nul]

theorem scanMembers_nul (n : Nat) (r : List Char) : scanMembers fmt n ('\x00' :: r) = none := by
  cases n <;> rfl

theorem scanString_nul (r : List Char) : scanString ('\x00' :: r) = none := by
  rw [scanString_char (by decide) (by decide)]
  rfl

theorem scanNumber_nul {c : Char} {l : NumberLiteral} {r r' : List Char}
    (h : scanNumber (c :: '\x00' :: r) = some (l, r')) : r' = '\x00' :: r := by
  by_cases hminus : c = '-'
  · subst hminus
    simp [scanNumber, scanWhole] at h
  · have hhead : (c :: '\x00' :: r).head? ≠ some '-' := by simpa using hminus
    have hnul : Char.isDigit '\x00' = false := rfl
    simp only [scanNumber, hhead, if_false, scanWhole] at h
    split at h
    · exact (Prod.mk.inj (Option.some.inj h)).2.symm
    · split at h
      · next hdigit =>
        simp only [scanDigits, List.takeWhile_cons, List.dropWhile_cons, hdigit, hnul] at h
        exact (Prod.mk.inj (Option.some.inj h)).2.symm
      · cases h

theorem scanConstant_nul (c : Char) (r : List Char) :
    scanConstant fmt (c :: '\x00' :: r) = none := by
  simp [scanConstant, constants, FloatText.chars, List.isPrefixOf?]

theorem ascii_of_isDigit {c : Char} (h : c.isDigit = true) : 0 < c.toNat ∧ c.toNat < 128 := by
  simp only [Char.isDigit, ge_iff_le, Bool.and_eq_true, decide_eq_true_eq, UInt32.le_iff_toNat_le]
    at h
  exact ⟨Nat.lt_of_lt_of_le (by decide) h.1, Nat.lt_of_le_of_lt h.2 (by decide)⟩

theorem scanNumber_other {c : Char} (hdigit : c.isDigit = false) (hminus : c ≠ '-') (r : List Char) :
    scanNumber (c :: r) = none := by
  have hhead : (c :: r).head? ≠ some '-' := by simpa using hminus
  have hzero : c ≠ '0' := by
    rintro rfl
    cases hdigit
  simp only [scanNumber, hhead, if_false, scanWhole, hzero, hdigit]
  rfl

theorem ascii_of_scanValue {n : Nat} {c : Char} {r r' : List Char} {v : Json F}
    (h : scanValue fmt n (c :: r) = some (v, r')) : 0 < c.toNat ∧ c.toNat < 128 := by
  have hall : ∀ c ∈ ['"', '{', '[', 'n', 't', 'f', 'N', 'I', '-'], 0 < c.toNat ∧ c.toNat < 128 := by
    simp
  by_cases hc : c ∈ ['"', '{', '[', 'n', 't', 'f', 'N', 'I', '-']
  · exact hall c hc
  · cases hdigit : c.isDigit with
    | true => exact ascii_of_isDigit hdigit
    | false =>
      simp only [List.mem_cons, List.not_mem_nil, or_false, not_or] at hc
      obtain ⟨hquote, hbrace, hbracket, hn, ht, hf, hN, hI, hminus⟩ := hc
      have hconst : scanConstant fmt (c :: r) = none := by
        simp [scanConstant, constants, FloatText.chars, List.isPrefixOf?, Ne.symm hn, Ne.symm ht,
          Ne.symm hf, Ne.symm hN, Ne.symm hI, Ne.symm hminus]
      cases n with
      | zero => cases h
      | succ n =>
        rw [scanValue_scalar (by simp [hquote, hbrace, hbracket]), hconst,
          scanNumber_other hdigit hminus] at h
        cases h

/-- After a character that does not end a value, a zero character is an error. -/
theorem scanValue_then_nul {n : Nat} {c : Char} {r r' : List Char} {v : Json F}
    (h : scanValue fmt n (c :: '\x00' :: r) = some (v, r')) : r' = '\x00' :: r := by
  cases n with
  | zero => cases h
  | succ n =>
    by_cases hopen : c ∈ ['"', '{', '[']
    · simp only [List.mem_cons, List.not_mem_nil, or_false] at hopen
      rcases hopen with rfl | rfl | rfl
      · rw [scanValue, scanString_nul] at h
        cases h
      · rw [scanValue, skipWhitespace_nul] at h
        simp [scanMembers_nul] at h
      · rw [scanValue, skipWhitespace_nul] at h
        simp [scanElements_nul] at h
    · rw [scanValue_scalar hopen, scanConstant_nul] at h
      obtain ⟨⟨l, r''⟩, hnumber, heq⟩ := Option.map_eq_some_iff.mp h
      cases heq
      exact scanNumber_nul hnumber

/-- No document has a zero character after its first. -/
theorem head_ne_nul_of_loads {c : Char} {r : List Char} {v : Json F}
    (h : loads fmt (c :: r) = some v) : r.head? ≠ some '\x00' := by
  intro hhead
  obtain ⟨r, rfl⟩ := List.head?_eq_some_iff.mp hhead
  unfold loads at h
  cases hspace : isWhitespace c with
  | true =>
    have hskip : skipWhitespace (c :: '\x00' :: r) = '\x00' :: r :=
      List.dropWhile_cons_of_pos hspace
    rw [hskip, scanValue_nul] at h
    cases h
  | false =>
    have hskip : skipWhitespace (c :: '\x00' :: r) = c :: '\x00' :: r := by
      simp [skipWhitespace, hspace]
    rw [hskip] at h
    split at h
    · next hscan =>
      rw [scanValue_then_nul hscan] at h
      cases h
    · cases h

theorem ascii_of_loads {c : Char} {r : List Char} {v : Json F}
    (h : loads fmt (c :: r) = some v) : 0 < c.toNat ∧ c.toNat < 128 := by
  unfold loads at h
  cases hspace : isWhitespace c with
  | true =>
    have hall : ∀ c ∈ [' ', '\t', '\n', '\r'], 0 < c.toNat ∧ c.toNat < 128 := by simp
    exact hall c (by simpa [isWhitespace, or_assoc] using hspace)
  | false =>
    have hskip : skipWhitespace (c :: r) = c :: r := by simp [skipWhitespace, hspace]
    rw [hskip] at h
    split at h
    · next hscan => exact ascii_of_scanValue hscan
    · cases h

theorem startsAscii_of_loads {text : List Char} {v : Json F} (h : loads fmt text = some v) :
    StartsAscii text := by
  cases text with
  | nil => cases h
  | cons c r =>
    obtain ⟨hpos, hlt⟩ := ascii_of_loads h
    refine ⟨c, r, rfl, hpos, hlt, fun d hd => Nat.pos_of_ne_zero fun hzero => ?_⟩
    have hchar : d = '\x00' := by rw [← Char.ofNat_toNat d, hzero]
    rw [hchar] at hd
    exact head_ne_nul_of_loads h hd

end Lib.Json
