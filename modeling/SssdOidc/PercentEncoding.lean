import Mathlib.Data.List.Basic

/-! Percent-encoding over a set of ASCII characters, as the crate `percent_encoding` does it,
and what such a text stands for. -/
namespace SssdOidc.PercentEncoding

def bytes (s : String) : List UInt8 := s.toUTF8.data.toList

theorem bytesInjective : Function.Injective bytes := by
  intro s t same
  have arrays : s.toUTF8.data = t.toUTF8.data := Array.toList_inj.mp same
  exact String.toByteArray_inj.mp (ByteArray.ext arrays)

structure AsciiSet where
  contains : UInt8 → Bool

def CONTROLS : AsciiSet := ⟨fun b => decide (b < 0x20) || b == 0x7F⟩

def AsciiSet.add (set : AsciiSet) (ch : Char) : AsciiSet := ⟨fun b => b == ch.toUInt8 || set.contains b⟩

def AsciiSet.shouldPercentEncode (set : AsciiSet) (b : UInt8) : Bool := decide (0x80 ≤ b) || set.contains b

def hexDigit (n : Nat) : Char := if n < 10 then Char.ofNat (48 + n) else Char.ofNat (55 + n)

def percentEncodeByte (b : UInt8) : List Char := ['%',hexDigit (b.toNat / 16),hexDigit (b.toNat % 16)]

def encodeByte (set : AsciiSet) (b : UInt8) : List Char :=
  if set.shouldPercentEncode b then percentEncodeByte b else [Char.ofNat b.toNat]

def utf8PercentEncode (input : String) (set : AsciiSet) : String :=
  String.ofList ((bytes input).flatMap (encodeByte set))

def hexValue (ch : Char) : Option Nat :=
  if '0' ≤ ch ∧ ch ≤ '9' then some (ch.toNat - 48)
  else if 'A' ≤ ch ∧ ch ≤ 'F' then some (ch.toNat - 55)
  else if 'a' ≤ ch ∧ ch ≤ 'f' then some (ch.toNat - 87)
  else none

/- A percent sign without two digits behind it stands for itself. -/
def percentDecode : List Char → List UInt8
  | '%' :: high :: low :: rest =>
      match hexValue high, hexValue low with
      | some h, some l => UInt8.ofNat (h * 16 + l) :: percentDecode rest
      | _, _ => 37 :: percentDecode (high :: low :: rest)
  | ch :: rest => String.utf8EncodeChar ch ++ percentDecode rest
  | [] => []

theorem hexDigitValue : ∀ n < 16, hexValue (hexDigit n) = some n := by decide

theorem byteDigits (b : UInt8) : hexValue (hexDigit (b.toNat / 16)) = some (b.toNat / 16) ∧
    hexValue (hexDigit (b.toNat % 16)) = some (b.toNat % 16) := by
  have small : b.toNat < 256 := b.toNat_lt
  exact ⟨hexDigitValue (b.toNat / 16) (by omega),hexDigitValue (b.toNat % 16) (by omega)⟩

theorem decodeEscape (b : UInt8) (rest : List Char) :
    percentDecode (percentEncodeByte b ++ rest) = b :: percentDecode rest := by
  obtain ⟨high,low⟩ := byteDigits b
  have whole : b.toNat / 16 * 16 + b.toNat % 16 = b.toNat := by omega
  change percentDecode ('%' :: hexDigit (b.toNat / 16) :: hexDigit (b.toNat % 16) :: rest) = _
  simp only [percentDecode,high,low,whole,UInt8.ofNat_toNat]

theorem decodePlain {ch : Char} (plain : ch ≠ '%') (rest : List Char) :
    percentDecode (ch :: rest) = String.utf8EncodeChar ch ++ percentDecode rest := by
  rw [percentDecode]
  intro high low rest' same
  exact absurd same plain

theorem asciiNat : ∀ n < 128, (Char.ofNat n).toNat = n := by decide

theorem asciiByte : ∀ n < 128, (Char.ofNat n).toUInt8 = UInt8.ofNat n := by decide

theorem asciiUtf8 {n : Nat} (ascii : n < 128) : String.utf8EncodeChar (Char.ofNat n) = [UInt8.ofNat n] := by
  have value : (Char.ofNat n).val.toNat = n := asciiNat n ascii
  rw [String.utf8EncodeChar]
  exact (if_pos (by omega)).trans (by rw [value])

theorem encodeByteCases (set : AsciiSet) (b : UInt8) : encodeByte set b = percentEncodeByte b ∨
    ∃ ch, encodeByte set b = [ch] ∧ String.utf8EncodeChar ch = [b] ∧ set.contains ch.toUInt8 = false := by
  by_cases escaped : set.shouldPercentEncode b = true
  · exact .inl (if_pos escaped)
  · have plain : encodeByte set b = [Char.ofNat b.toNat] := if_neg escaped
    simp only [AsciiSet.shouldPercentEncode,Bool.or_eq_true,decide_eq_true_eq,not_or] at escaped
    have ascii : b.toNat < 128 := by
      have := escaped.1
      rw [UInt8.le_iff_toNat_le] at this
      exact Nat.lt_of_not_le this
    have byte : (Char.ofNat b.toNat).toUInt8 = b := (asciiByte b.toNat ascii).trans UInt8.ofNat_toNat
    refine .inr ⟨_,plain,?_,?_⟩
    · rw [asciiUtf8 ascii,UInt8.ofNat_toNat]
    · rw [byte]
      exact Bool.eq_false_iff.mpr escaped.2

section Encoded
variable {set : AsciiSet}

theorem encodedLacks {ch : Char} (held : set.contains ch.toUInt8 = true) (sign : ch ≠ '%')
    (digit : hexValue ch = none) (bs : List UInt8) : ch ∉ bs.flatMap (encodeByte set) := by
  intro inside
  obtain ⟨b,-,here⟩ := List.mem_flatMap.mp inside
  rcases encodeByteCases set b with escape | ⟨plain,same,-,outside⟩
  · rw [escape] at here
    obtain ⟨high,low⟩ := byteDigits b
    simp only [percentEncodeByte,List.mem_cons,List.not_mem_nil,or_false] at here
    rcases here with rfl | rfl | rfl
    · exact sign rfl
    · rw [high] at digit
      cases digit
    · rw [low] at digit
      cases digit
  · rw [same] at here
    cases List.mem_singleton.mp here
    rw [held] at outside
    cases outside

theorem decodeEncoded (sign : set.contains '%'.toUInt8 = true) (bs : List UInt8) (rest : List Char) :
    percentDecode (bs.flatMap (encodeByte set) ++ rest) = bs ++ percentDecode rest := by
  induction bs with
  | nil => rfl
  | cons b bs ih =>
    rw [List.flatMap_cons,List.append_assoc]
    rcases encodeByteCases set b with escape | ⟨ch,same,byte,outside⟩
    · rw [escape,decodeEscape,ih]
      rfl
    · have plain : ch ≠ '%' := by
        rintro rfl
        rw [sign] at outside
        cases outside
      rw [same]
      refine (decodePlain plain (bs.flatMap (encodeByte set) ++ rest)).trans ?_
      rw [byte,ih]
      rfl

theorem utf8PercentEncodeDecodes (sign : set.contains '%'.toUInt8 = true) (input : String) :
    percentDecode (utf8PercentEncode input set).toList = bytes input := by
  have whole := decodeEncoded sign (bytes input) []
  rw [utf8PercentEncode,String.toList_ofList]
  simpa [percentDecode] using whole

theorem utf8PercentEncodeInjective (sign : set.contains '%'.toUInt8 = true) {s t : String}
    (same : utf8PercentEncode s set = utf8PercentEncode t set) : s = t := by
  have decoded := utf8PercentEncodeDecodes sign s
  rw [same,utf8PercentEncodeDecodes sign t] at decoded
  exact bytesInjective decoded.symm

end Encoded

end SssdOidc.PercentEncoding
