/-! # Hexadecimal digits -/

namespace Tierwise.Text

/-- Lower case, without leading zeros. -/
def hex (n : Nat) : String := String.ofList (Nat.toDigits 16 n)

/-- Lower case, filled up with zeros to four digits. -/
def hex4 (n : Nat) : String :=
  let digits := Nat.toDigits 16 n
  String.ofList (List.replicate (4 - digits.length) '0' ++ digits)

end Tierwise.Text
