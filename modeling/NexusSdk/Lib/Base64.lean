import Mathlib.Data.List.Basic

/-! Base64 with the lenient decoder of Python's `binascii`: characters outside the alphabet are
skipped, and complete padding ends the input. -/

namespace Lib.Base64

def alphabet : List Char :=
  "ABCDEFGHIJKLMNOPQRSTUVWXYZabcdefghijklmnopqrstuvwxyz0123456789+/".toList

def symbol (v : Nat) : Char := alphabet.getD v 'A'

def digit (c : Char) : Option Nat := alphabet.idxOf? c

def encode : List UInt8 → List Char
  | [] => []
  | [a] => [symbol (a.toNat / 4), symbol (a.toNat % 4 * 16), '=', '=']
  | [a, b] =>
    [symbol (a.toNat / 4), symbol (a.toNat % 4 * 16 + b.toNat / 16), symbol (b.toNat % 16 * 4), '=']
  | a :: b :: c :: rest =>
    symbol (a.toNat / 4) :: symbol (a.toNat % 4 * 16 + b.toNat / 16) ::
      symbol (b.toNat % 16 * 4 + c.toNat / 64) :: symbol (c.toNat % 64) :: encode rest

inductive Error
  /-- the input ends after one character of a group -/
  | dataCharacters (count : Nat)
  | padding
  deriving DecidableEq

/-- Decodes from the position `quadPos` of a group, with `left` the bits that are not yet written,
after `pads` padding characters and `written` bytes. -/
def decodeFrom (quadPos left pads written : Nat) : List Char → Except Error (List UInt8)
  | [] =>
    if quadPos = 0 then .ok []
    else if quadPos = 1 then .error (.dataCharacters (written / 3 * 4 + 1))
    else .error .padding
  | c :: rest =>
    if c = '=' then
      if 2 ≤ quadPos then
        if 4 ≤ quadPos + (pads + 1) then .ok []
        else decodeFrom quadPos left (pads + 1) written rest
      else decodeFrom quadPos left pads written rest
    else
      match digit c with
      | none => decodeFrom quadPos left pads written rest
      | some v =>
        match quadPos with
        | 0 => decodeFrom 1 v 0 written rest
        | 1 => (decodeFrom 2 (v % 16) 0 (written + 1) rest).map (.ofNat (left * 4 + v / 16) :: ·)
        | 2 => (decodeFrom 3 (v % 4) 0 (written + 1) rest).map (.ofNat (left * 16 + v / 4) :: ·)
        | _ => (decodeFrom 0 0 0 (written + 1) rest).map (.ofNat (left * 64 + v) :: ·)

def decode (l : List Char) : Except Error (List UInt8) := decodeFrom 0 0 0 0 l

theorem digit_symbol : ∀ v < 64, digit (symbol v) = some v := by decide +kernel

theorem symbol_ne_pad : ∀ v < 64, symbol v ≠ '=' := by decide +kernel

theorem decodeFrom_symbol {v : Nat} (hv : v < 64) (quadPos left pads written : Nat)
    (rest : List Char) :
    decodeFrom quadPos left pads written (symbol v :: rest) =
      match quadPos with
      | 0 => decodeFrom 1 v 0 written rest
      | 1 => (decodeFrom 2 (v % 16) 0 (written + 1) rest).map (.ofNat (left * 4 + v / 16) :: ·)
      | 2 => (decodeFrom 3 (v % 4) 0 (written + 1) rest).map (.ofNat (left * 16 + v / 4) :: ·)
      | _ => (decodeFrom 0 0 0 (written + 1) rest).map (.ofNat (left * 64 + v) :: ·) := by
  rw [decodeFrom, if_neg (symbol_ne_pad v hv), digit_symbol v hv]

theorem ofNat_eq {n : Nat} {a : UInt8} (h : n = a.toNat) : UInt8.ofNat n = a := by
  rw [h, UInt8.ofNat_toNat]

theorem decodeFrom_encode (l : List UInt8) (written : Nat) :
    decodeFrom 0 0 0 written (encode l) = .ok l := by
  induction l using encode.induct generalizing written with
  | case1 => rfl
  | case2 a =>
    have ha := a.toNat_lt
    have hbyte : UInt8.ofNat (a.toNat / 4 * 4 + a.toNat % 4 * 16 / 16) = a := ofNat_eq (by omega)
    simp only [encode, decodeFrom_symbol (show a.toNat / 4 < 64 by omega),
      decodeFrom_symbol (show a.toNat % 4 * 16 < 64 by omega), hbyte]
    rfl
  | case3 a b =>
    have ha := a.toNat_lt
    have hb := b.toNat_lt
    have hfirst : UInt8.ofNat (a.toNat / 4 * 4 + (a.toNat % 4 * 16 + b.toNat / 16) / 16) = a :=
      ofNat_eq (by omega)
    have hsecond : UInt8.ofNat
        ((a.toNat % 4 * 16 + b.toNat / 16) % 16 * 16 + b.toNat % 16 * 4 / 4) = b :=
      ofNat_eq (by omega)
    simp only [encode, decodeFrom_symbol (show a.toNat / 4 < 64 by omega),
      decodeFrom_symbol (show a.toNat % 4 * 16 + b.toNat / 16 < 64 by omega),
      decodeFrom_symbol (show b.toNat % 16 * 4 < 64 by omega), hfirst, hsecond]
    rfl
  | case4 a b c rest ih =>
    have ha := a.toNat_lt
    have hb := b.toNat_lt
    have hc := c.toNat_lt
    have hfirst : UInt8.ofNat (a.toNat / 4 * 4 + (a.toNat % 4 * 16 + b.toNat / 16) / 16) = a :=
      ofNat_eq (by omega)
    have hsecond : UInt8.ofNat ((a.toNat % 4 * 16 + b.toNat / 16) % 16 * 16 +
        (b.toNat % 16 * 4 + c.toNat / 64) / 4) = b := ofNat_eq (by omega)
    have hthird : UInt8.ofNat
        ((b.toNat % 16 * 4 + c.toNat / 64) % 4 * 64 + c.toNat % 64) = c := ofNat_eq (by omega)
    simp only [encode, decodeFrom_symbol (show a.toNat / 4 < 64 by omega),
      decodeFrom_symbol (show a.toNat % 4 * 16 + b.toNat / 16 < 64 by omega),
      decodeFrom_symbol (show b.toNat % 16 * 4 + c.toNat / 64 < 64 by omega),
      decodeFrom_symbol (show c.toNat % 64 < 64 by omega), hfirst, hsecond, hthird, ih]
    rfl

theorem decode_encode (l : List UInt8) : decode (encode l) = .ok l := decodeFrom_encode l 0

/-- The text has symbols and padding only. -/
theorem of_mem_encode {l : List UInt8} {c : Char} (h : c ∈ encode l) :
    c = '=' ∨ ∃ v < 64, c = symbol v := by
  induction l using encode.induct with
  | case1 => simp [encode] at h
  | case2 a =>
    have ha := a.toNat_lt
    simp only [encode, List.mem_cons, List.not_mem_nil, or_false] at h
    rcases h with h | h | h | h
    · exact .inr ⟨_, by omega, h⟩
    · exact .inr ⟨_, by omega, h⟩
    · exact .inl h
    · exact .inl h
  | case3 a b =>
    have ha := a.toNat_lt
    have hb := b.toNat_lt
    simp only [encode, List.mem_cons, List.not_mem_nil, or_false] at h
    rcases h with h | h | h | h
    · exact .inr ⟨_, by omega, h⟩
    · exact .inr ⟨_, by omega, h⟩
    · exact .inr ⟨_, by omega, h⟩
    · exact .inl h
  | case4 a b c' rest ih =>
    have ha := a.toNat_lt
    have hb := b.toNat_lt
    have hc := c'.toNat_lt
    simp only [encode, List.mem_cons] at h
    rcases h with h | h | h | h | h
    · exact .inr ⟨_, by omega, h⟩
    · exact .inr ⟨_, by omega, h⟩
    · exact .inr ⟨_, by omega, h⟩
    · exact .inr ⟨_, by omega, h⟩
    · exact ih h

theorem symbol_ascii : ∀ v < 64, (symbol v).val < 128 := by decide +kernel

theorem ascii_of_mem_encode {l : List UInt8} {c : Char} (h : c ∈ encode l) : c.val < 128 := by
  rcases of_mem_encode h with rfl | ⟨v, hv, rfl⟩
  · decide
  · exact symbol_ascii v hv

theorem symbol_ne_underscore : ∀ v < 64, symbol v ≠ '_' := by decide +kernel

theorem underscore_not_mem_encode (l : List UInt8) : '_' ∉ encode l := by
  intro h
  rcases of_mem_encode h with h | ⟨v, hv, h⟩
  · cases h
  · exact symbol_ne_underscore v hv h.symm

theorem encode_injective {l l' : List UInt8} (h : encode l = encode l') : l = l' := by
  have hdecode := decode_encode l
  rw [h, decode_encode] at hdecode
  exact (Except.ok.inj hdecode).symm

end Lib.Base64
