import QueryProjection.Text.CaseTable

set_option autoImplicit false

namespace QueryProjection.Text

def inRanges (ranges : List (Nat × Nat)) (c : Char) : Bool :=
  ranges.any fun range => range.1 ≤ c.toNat && c.toNat ≤ range.2

def isCased (c : Char) : Bool := inRanges casedRanges c

def isCaseIgnorable (c : Char) : Bool := inRanges caseIgnorableRanges c

def shifted (shifts : List (Nat × Nat × Nat × Int)) (c : Char) : Char :=
  match shifts.find? fun (first, last, step, _) =>
      first ≤ c.toNat && c.toNat ≤ last && (c.toNat - first) % step == 0 with
  | some (_, _, _, shift) => Char.ofNat (c.toNat + shift).toNat
  | none => c

def mapCase (expansions : List (Nat × List Nat)) (shifts : List (Nat × Nat × Nat × Int))
    (c : Char) : List Char :=
  match expansions.lookup c.toNat with
  | some codes => codes.map Char.ofNat
  | none => [shifted shifts c]

def lowerChar (c : Char) : List Char :=
  if c.toNat < 0x80 then [c.toLower] else mapCase lowercaseExpansions lowercaseShifts c

def upperChar (c : Char) : List Char :=
  if c.toNat < 0x80 then [c.toUpper] else mapCase uppercaseExpansions uppercaseShifts c

def startsCased (chars : List Char) : Bool :=
  (chars.dropWhile isCaseIgnorable).head?.any isCased

def lowerAfter : List Char → List Char → List Char
  | _, [] => []
  | before, c :: rest =>
      let mapped :=
        if c == 'Σ' then
          [if startsCased before && !startsCased rest then 'ς' else 'σ']
        else lowerChar c
      mapped ++ lowerAfter (c :: before) rest

def toLower (text : String) : String :=
  String.ofList (lowerAfter [] text.toList)

def toUpper (text : String) : String :=
  String.ofList (text.toList.flatMap upperChar)

end QueryProjection.Text
