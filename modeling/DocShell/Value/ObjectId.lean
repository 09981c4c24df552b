import DocShell.Error

set_option autoImplicit false

/-! # Document identifiers

An identifier has twelve bytes and is written as 24 hexadecimal digits, kept as they were
typed.
-/

namespace DocShell

/-- A document identifier: 24 hexadecimal digits of either case. -/
structure ObjectId where
  hex : String
  size_eq : Text.size hex.toList = 24
  all_hex : hex.toList.all Text.isHex = true
deriving DecidableEq

namespace ObjectId

/-- Takes a text for an identifier. Its length is checked first, in bytes. -/
def ofHex (hex : String) : Except Reason ObjectId :=
  if size_eq : Text.size hex.toList = 24 then
    if all_hex : hex.toList.all Text.isHex = true then .ok ⟨hex, size_eq, all_hex⟩
    else .error (.identifierDigits hex)
  else .error (.identifierSize (Text.size hex.toList))

/-- The digits in lower case, the same for all spellings of one identifier. -/
def lowerHex (id : ObjectId) : String :=
  String.ofList (id.hex.toList.map Char.toLower)

/-- The identifier as a literal. -/
def chars (id : ObjectId) : List Char :=
  "ObjectId(\"".toList ++ id.hex.toList ++ "\")".toList

end ObjectId

end DocShell
