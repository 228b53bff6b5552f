namespace CilListing

/-- The white space characters of all scripts. -/
def blanks : List Char :=
  ['\x09', '\x0A', '\x0B', '\x0C', '\x0D', ' ', '\x85', '\xA0', '\u1680', '\u2000', '\u2001',
    '\u2002', '\u2003', '\u2004', '\u2005', '\u2006', '\u2007', '\u2008', '\u2009', '\u200A',
    '\u2028', '\u2029', '\u202F', '\u205F', '\u3000']

def isBlank (char : Char) : Bool := blanks.contains char

/-- The characters without the blanks at either end. -/
def trimBlanks (chars : List Char) : List Char :=
  ((chars.dropWhile isBlank).reverse.dropWhile isBlank).reverse

end CilListing
