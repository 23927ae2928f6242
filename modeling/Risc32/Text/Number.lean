namespace Risc32.Text

/-- The digits of `n` in base sixteen, filled up with zeros to at least `width` of them. No number
    has fewer than one digit. -/
def hexDigits (width n : Nat) : List Char :=
  (Nat.toDigits 16 n).leftpad width '0'

/-- Lower-case hexadecimal with at least `width` digits. -/
def paddedHex (width n : Nat) : String :=
  "0x" ++ String.ofList (hexDigits width n)

/-- Lower-case hexadecimal without leading zeros: sizes are written this way. -/
def hex (n : Nat) : String :=
  paddedHex 1 n

/-- Addresses and words are always written with all eight digits. -/
def hexWord (word : BitVec 32) : String :=
  paddedHex 8 word.toNat

def hexByte (byte : BitVec 8) : String :=
  paddedHex 2 byte.toNat

/-- A word in upper-case digits, as a console shows it. -/
def upperHexWord (word : BitVec 32) : String :=
  "0x" ++ String.ofList ((hexDigits 8 word.toNat).map Char.toUpper)

def decimal (i : Int) : String :=
  if i < 0 then "-" ++ i.natAbs.repr else i.natAbs.repr

/-- A displacement shows its sign even when it is not negative, so that it cannot be mistaken for
    an address. -/
def signedHex (i : Int) : String :=
  if i < 0 then "-" ++ hex i.natAbs else "+" ++ hex i.natAbs

end Risc32.Text
