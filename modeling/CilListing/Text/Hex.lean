namespace CilListing

/-- The hexadecimal digits of `n` in upper case, filled with zeros on the
left up to `width`. A number with more digits keeps all of them. -/
def hexUpper (width n : Nat) : String :=
  String.ofList (((Nat.toDigits 16 n).map Char.toUpper).leftpad width '0')

/-- The hexadecimal digits of `n` in lower case, filled like `hexUpper`. -/
def hexLower (width n : Nat) : String :=
  String.ofList ((Nat.toDigits 16 n).leftpad width '0')

theorem hexUpper_toList (width n : Nat) :
    (hexUpper width n).toList = ((Nat.toDigits 16 n).map Char.toUpper).leftpad width '0' :=
  String.toList_ofList

end CilListing
