/-! Decimal digits and numerals. A numeral is written without leading zeros, and reading it gives
the number back. -/

namespace TableScan.Text

def isAsciiDigit (c : Char) : Bool := 48 ≤ c.toNat && c.toNat ≤ 57

/-- The zeros of the decimal digit runs beyond ASCII; every run has ten consecutive characters. -/
def digitZeros : List Nat :=
  [0x660, 0x6F0, 0x7C0, 0x966, 0x9E6, 0xA66, 0xAE6, 0xB66, 0xBE6, 0xC66, 0xCE6, 0xD66, 0xDE6, 0xE50,
   0xED0, 0xF20, 0x1040, 0x1090, 0x17E0, 0x1810, 0x1946, 0x19D0, 0x1A80, 0x1A90, 0x1B50, 0x1BB0,
   0x1C40, 0x1C50, 0xA620, 0xA8D0, 0xA900, 0xA9D0, 0xA9F0, 0xAA50, 0xABF0, 0xFF10, 0x104A0, 0x10D30,
   0x11066, 0x110F0, 0x11136, 0x111D0, 0x112F0, 0x11450, 0x114D0, 0x11650, 0x116C0, 0x11730,
   0x118E0, 0x11950, 0x11C50, 0x11D50, 0x11DA0, 0x16A60, 0x16AC0, 0x16B50, 0x1D7CE, 0x1D7D8,
   0x1D7E2, 0x1D7EC, 0x1D7F6, 0x1E140, 0x1E2F0, 0x1E950, 0x1FBF0]

def digit? (c : Char) : Option Nat :=
  if isAsciiDigit c then some (c.toNat - 48)
  else (digitZeros.find? fun first => first ≤ c.toNat && c.toNat < first + 10).map (c.toNat - ·)

def numeral (n : Nat) : List Char := n.repr.toList

def readNumeral (digits : List Char) : Nat := Nat.ofDigitChars 10 digits 0

def padded (width n : Nat) : List Char :=
  List.replicate (width - (numeral n).length) '0' ++ numeral n

def numeralInt (n : Int) : List Char :=
  if n < 0 then '-' :: numeral n.natAbs else numeral n.natAbs

theorem numeral_eq_toDigits (n : Nat) : numeral n = Nat.toDigits 10 n := by
  simp [numeral, Nat.repr]

theorem readNumeral_numeral (n : Nat) : readNumeral (numeral n) = n := by
  rw [numeral_eq_toDigits]
  exact Nat.ofDigitChars_toDigits (by decide) (by decide)

end TableScan.Text
