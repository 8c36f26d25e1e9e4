/-
# `Provisioning.Text.Wide` — texts in 16-bit units

A host with a security service keeps its texts in units of 16 bits.  A
character takes one unit, or two when its number does not fit into one: a high
half, and a low half after it.  Units read back as the characters they came
from (`ofUnits_flatMap_unitsOf`).

Between a program and the service a text goes as a counted text: a buffer of
units with a zero behind them, and how many bytes of it are the text.  The
count is taken at its word when the text is read, so it has to be right
(`CountedText.text_holding`).
-/
namespace Provisioning

namespace Text

/-- The 16-bit units of a character. -/
def unitsOf (c : Char) : List UInt16 :=
  if c.toNat < 0x10000 then [UInt16.ofNat c.toNat]
  else
    [UInt16.ofNat (0xD800 + (c.toNat - 0x10000) / 0x400),
      UInt16.ofNat (0xDC00 + (c.toNat - 0x10000) % 0x400)]

/-- The 16-bit units of a text. -/
def units (s : String) : List UInt16 := s.toList.flatMap unitsOf

/-- The first half of a character that takes two units. -/
def isHighHalf (u : UInt16) : Bool := 0xD800 ≤ u.toNat && u.toNat < 0xDC00

/-- The second half of such a character. -/
def isLowHalf (u : UInt16) : Bool := 0xDC00 ≤ u.toNat && u.toNat < 0xE000

/-- The character of a unit that stands alone.  Half of a character is none. -/
def ofUnit (u : UInt16) : Char :=
  if isHighHalf u || isLowHalf u then '\uFFFD' else Char.ofNat u.toNat

/-- The character of a high and a low half. -/
def ofHalves (u v : UInt16) : Char :=
  Char.ofNat (0x10000 + (u.toNat - 0xD800) * 0x400 + (v.toNat - 0xDC00))

/-- The characters that units are read as. -/
def ofUnits : List UInt16 → List Char
  | [] => []
  | [u] => [ofUnit u]
  | u :: v :: rest =>
    if isHighHalf u && isLowHalf v then ofHalves u v :: ofUnits rest
    else ofUnit u :: ofUnits (v :: rest)

theorem ofUnits_cons_of_not_half {u : UInt16} (hu : isHighHalf u = false) (rest : List UInt16) :
    ofUnits (u :: rest) = ofUnit u :: ofUnits rest := by
  cases rest with
  | nil => rfl
  | cons v rest => simp [ofUnits, hu]

theorem ofUnits_cons_cons_of_halves {u v : UInt16} (hu : isHighHalf u = true)
    (hv : isLowHalf v = true) (rest : List UInt16) :
    ofUnits (u :: v :: rest) = ofHalves u v :: ofUnits rest := by
  simp [ofUnits, hu, hv]

theorem toNat_unit {n : Nat} (hn : n < 0x10000) : (UInt16.ofNat n).toNat = n := by
  rw [UInt16.toNat_ofNat']
  exact Nat.mod_eq_of_lt hn

/-- The units of a character are read as it, whatever follows. -/
theorem ofUnits_unitsOf_append (c : Char) (rest : List UInt16) :
    ofUnits (unitsOf c ++ rest) = c :: ofUnits rest := by
  have hvalid : c.toNat < 0xD800 ∨ 0xDFFF < c.toNat ∧ c.toNat < 0x110000 := c.valid
  unfold unitsOf
  split
  · rename_i hone
    have hunit := toNat_unit hone
    have hhigh : isHighHalf (UInt16.ofNat c.toNat) = false := by
      simp only [isHighHalf, hunit, Bool.and_eq_false_iff, decide_eq_false_iff_not]
      omega
    have hlow : isLowHalf (UInt16.ofNat c.toNat) = false := by
      simp only [isLowHalf, hunit, Bool.and_eq_false_iff, decide_eq_false_iff_not]
      omega
    have hchar : ofUnit (UInt16.ofNat c.toNat) = c := by
      rw [ofUnit, hhigh, hlow, hunit, Char.ofNat_toNat]
      rfl
    rw [List.singleton_append, ofUnits_cons_of_not_half hhigh, hchar]
  · rename_i htwo
    have hu : (UInt16.ofNat (0xD800 + (c.toNat - 0x10000) / 0x400)).toNat =
        0xD800 + (c.toNat - 0x10000) / 0x400 := toNat_unit (by omega)
    have hv : (UInt16.ofNat (0xDC00 + (c.toNat - 0x10000) % 0x400)).toNat =
        0xDC00 + (c.toNat - 0x10000) % 0x400 := toNat_unit (by omega)
    have hhigh : isHighHalf (UInt16.ofNat (0xD800 + (c.toNat - 0x10000) / 0x400)) = true := by
      simp only [isHighHalf, hu, Bool.and_eq_true, decide_eq_true_eq]
      omega
    have hlow : isLowHalf (UInt16.ofNat (0xDC00 + (c.toNat - 0x10000) % 0x400)) = true := by
      simp only [isLowHalf, hv, Bool.and_eq_true, decide_eq_true_eq]
      omega
    have hnumber : 0x10000 + (0xD800 + (c.toNat - 0x10000) / 0x400 - 0xD800) * 0x400 +
        (0xDC00 + (c.toNat - 0x10000) % 0x400 - 0xDC00) = c.toNat := by omega
    rw [List.cons_append, List.singleton_append, ofUnits_cons_cons_of_halves hhigh hlow, ofHalves,
      hu, hv, hnumber, Char.ofNat_toNat]

/-- Units read back as the characters they came from. -/
theorem ofUnits_flatMap_unitsOf (cs : List Char) : ofUnits (cs.flatMap unitsOf) = cs := by
  induction cs with
  | nil => rfl
  | cons c cs ih => rw [List.flatMap_cons, ofUnits_unitsOf_append, ih]

end Text

/-- A text as it goes between a program and the service. -/
structure CountedText where
  /-- How many bytes of the buffer are the text. -/
  length : Nat
  /-- How many bytes the buffer has. -/
  maximumLength : Nat
  buffer : List UInt16
  deriving DecidableEq

namespace CountedText

/-- A text in a buffer of its own, said to be `count` units long. -/
def holding (s : String) (count : Nat) : CountedText where
  length := count * 2
  maximumLength := (count + 1) * 2
  buffer := Text.units s ++ [0]

/-- The text that is read: as many units as its bytes make. -/
def text (t : CountedText) : String := String.ofList (Text.ofUnits (t.buffer.take (t.length / 2)))

/-- A text is read back if its units were counted right. -/
theorem text_holding {s : String} {count : Nat} (hcount : count = (Text.units s).length) :
    (holding s count).text = s := by
  have htake : (Text.units s ++ [0]).take (count * 2 / 2) = Text.units s := by
    rw [Nat.mul_div_cancel count (by decide), hcount, List.take_left]
  rw [text, holding, htake, Text.units, Text.ofUnits_flatMap_unitsOf, String.ofList_toList]

end CountedText

end Provisioning
