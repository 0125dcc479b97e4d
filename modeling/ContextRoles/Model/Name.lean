/-! # Names

A full name is a local name after a domain (`model:Domain#`), a namespace (`psp:` or a bare colon) or a
dollar sign. Ids are local names.
-/

namespace ContextRoles

/-- What follows the last occurrence of a character, or the whole text where there is none. -/
def afterLast (c : Char) (text : List Char) : List Char :=
  (text.reverse.takeWhile (· != c)).reverse

/-- What follows the first occurrence of a character, or the whole text where there is none. -/
def afterFirst (c : Char) (text : List Char) : List Char :=
  if text.contains c then (text.dropWhile (· != c)).drop 1 else text

def localChars (name : List Char) : List Char :=
  if name.contains '#' then afterLast '#' name
  else
    match afterFirst ':' name with
    | '$' :: rest => rest
    | rest => rest

def localName (name : String) : String := String.ofList (localChars name.toList)

structure TypeDeclaration where
  instanceName : String
  typeName : String
  deriving DecidableEq, Repr

end ContextRoles
