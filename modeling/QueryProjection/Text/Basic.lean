set_option autoImplicit false

namespace QueryProjection.Text

def foldCase (name : String) : List Char :=
  name.toList.map Char.toLower

def sameName (left right : String) : Bool :=
  foldCase left == foldCase right

theorem sameName_iff (left right : String) :
    sameName left right = true ↔ foldCase left = foldCase right := by
  simp [sameName]

theorem sameName_refl (name : String) : sameName name name = true := by
  simp [sameName]

theorem sameName_comm (left right : String) : sameName left right = sameName right left := by
  simp only [sameName, Bool.beq_comm]

theorem sameName_trans {left middle right : String}
    (h : sameName left middle = true) (h' : sameName middle right = true) :
    sameName left right = true := by
  rw [sameName_iff] at *
  exact h.trans h'

def containsPart (chars part : List Char) : Bool :=
  match chars with
  | [] => part.isEmpty
  | _ :: rest => part.isPrefixOf chars || containsPart rest part

def contains (text part : String) : Bool :=
  containsPart text.toList part.toList

def startsWith (text part : String) : Bool :=
  part.toList.isPrefixOf text.toList

def endsWith (text part : String) : Bool :=
  part.toList.isSuffixOf text.toList

def isBlank (c : Char) : Bool :=
  let code := c.toNat
  (0x9 ≤ code && code ≤ 0xD) || code == 0x20 || code == 0x85 || code == 0xA0 || code == 0x1680 ||
    (0x2000 ≤ code && code ≤ 0x200A) || code == 0x2028 || code == 0x2029 || code == 0x202F ||
    code == 0x205F || code == 0x3000

def trimLeft (chars : List Char) : List Char :=
  chars.dropWhile isBlank

def trim (chars : List Char) : List Char :=
  (trimLeft (trimLeft chars).reverse).reverse

def trimText (text : String) : String :=
  String.ofList (trim text.toList)

def splitAtChar (separator : Char) : List Char → List (List Char)
  | [] => [[]]
  | c :: rest =>
      if c == separator then [] :: splitAtChar separator rest
      else match splitAtChar separator rest with
        | [] => [[c]]
        | part :: parts => (c :: part) :: parts

def pathSegments (path : String) : List String :=
  ((splitAtChar '/' path.toList).map fun part => String.ofList (trim part)).filter
    fun segment => !segment.isEmpty

def digitValue (c : Char) : Nat := c.toNat - '0'.toNat

def readDigits (digits : List Char) : Nat :=
  digits.foldl (fun total c => total * 10 + digitValue c) 0

def spanDigits (chars : List Char) : List Char × List Char :=
  chars.span Char.isDigit

def takeNumber (least most : Nat) (chars : List Char) : Option (Nat × List Char) :=
  let digits := (chars.take most).takeWhile Char.isDigit
  if digits.length < least then none
  else some (readDigits digits, chars.drop digits.length)

def padLeft (width : Nat) (text : String) : String :=
  String.ofList (List.replicate (width - text.length) '0') ++ text

def padded (width number : Nat) : String :=
  padLeft width (toString number)

end QueryProjection.Text
