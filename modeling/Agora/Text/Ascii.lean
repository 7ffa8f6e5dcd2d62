namespace Agora.Ascii

def isUpper (c : Char) : Bool :=
  'A' ≤ c && c ≤ 'Z'

def isLower (c : Char) : Bool :=
  'a' ≤ c && c ≤ 'z'

def isLetter (c : Char) : Bool :=
  isUpper c || isLower c

def toUpper (c : Char) : Char :=
  if isLower c then Char.ofNat (c.toNat - 32) else c

end Agora.Ascii
