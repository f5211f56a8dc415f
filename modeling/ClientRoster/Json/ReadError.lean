import ClientRoster.Json.Doc.Reader
import ClientRoster.Decimal.Layout
import ClientRoster.Text.Quoted

/-!
# `ClientRoster.Json.ReadError` — why a text could not be read as a value

Either the text has a flaw, or it is a document that means something else than was asked for. A `Misfit` says
what is wrong with the meaning; its wording is in one function.
-/

namespace ClientRoster.Json

/-- What stands in a document where something else was expected. -/
inductive Found
  | null
  | bool (value : Bool)
  | number (value : Number)
  | text (value : String)
  | sequence
  | map

/-- How a document fails to mean what was expected. -/
inductive Misfit
  /-- Another type of value stands here. -/
  | wrongType (found : Found) (expected : String)
  /-- A value of the right type that is out of the question. -/
  | wrongValue (found : Found) (expected : String)
  /-- A field is missing. -/
  | missing (field : String)
  /-- A field occurs twice. -/
  | repeated (field : String)
  /-- The name of a variant is none of the known ones. -/
  | unknownVariant (name : String) (known : List String)
  /-- A text that stands for nothing, with the reason. -/
  | refused (reason : String)
  /-- An array ends before its required fields do. -/
  | tooFew (given : Nat) (expected : String) (fields : Nat)
  /-- An array goes on after its last field. -/
  | tooMany (given taken : Nat)

/-- Why a text could not be read as a value. -/
inductive ReadError
  /-- It is no document. -/
  | flaw (flaw : Flaw)
  /-- It is a document of another meaning. -/
  | misfit (misfit : Misfit)

/-! ## Wording -/

/-- A word between backquotes. -/
def ticked (word : String) : String := "`" ++ word ++ "`"

/-- A count of elements, in words. -/
def elementsText (n : Nat) : String := if n = 1 then "1 element" else toString n ++ " elements"

/-- A number as a message shows it. -/
def Number.text : Number → String
  | integer n => toString n
  | float x => Decimal.floatText x

/-- What was found, as a message names it. -/
def Found.phrase : Found → String
  | null => "null"
  | bool b => "boolean " ++ ticked (if b then "true" else "false")
  | number (.integer n) => "integer " ++ ticked (Number.integer n).text
  | number (.float x) => "floating point " ++ ticked (Number.float x).text
  | text s => "string " ++ Text.quoted s
  | sequence => "sequence"
  | map => "map"

/-- The message of a misfit. -/
def Misfit.message : Misfit → String
  | wrongType found expected => "invalid type: " ++ found.phrase ++ ", expected " ++ expected
  | wrongValue found expected => "invalid value: " ++ found.phrase ++ ", expected " ++ expected
  | missing field => "missing field " ++ ticked field
  | repeated field => "duplicate field " ++ ticked field
  | unknownVariant name known =>
    "unknown variant " ++ ticked name ++ ", expected one of " ++ ", ".intercalate (known.map ticked)
  | refused reason => reason
  | tooFew given expected fields =>
    "invalid length " ++ toString given ++ ", expected " ++ expected ++ " with " ++ elementsText fields
  | tooMany given taken =>
    "invalid length " ++ toString given ++ ", expected " ++ elementsText taken ++ " in sequence"

end ClientRoster.Json
