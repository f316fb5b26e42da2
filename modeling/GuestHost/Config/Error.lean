import GuestHost.Config.Basic
import GuestHost.Json.Numeral
import GuestHost.Text.Quoted

/-!
Why a configuration could not be had, and the wording.
-/

namespace GuestHost

/-- Why the contents of a file could not be had. -/
inductive FileError
  | notFound
  | isDirectory
  | notDirectory
  | denied
  | nameTooLong
  | other (reason : String)
  deriving DecidableEq, Repr

namespace FileError

def message : FileError → String
  | notFound => "No such file or directory (os error 2)"
  | isDirectory => "Is a directory (os error 21)"
  | notDirectory => "Not a directory (os error 20)"
  | denied => "Permission denied (os error 13)"
  | nameTooLong => "File name too long (os error 36)"
  | other reason => reason

end FileError

namespace Config

inductive Found
  | null
  | boolean (value : Bool)
  | number (value : Json.Numeral.Value)
  | string (text : String)
  | sequence
  | map
  deriving DecidableEq, Repr

def Found.describe : Found → String
  | null => "null"
  | boolean value => s!"boolean `{value}`"
  | number (.integer value) => s!"integer `{value}`"
  | number value => s!"floating point `{value.text}`"
  | string text => "string " ++ Text.quote text
  | sequence => "sequence"
  | map => "map"

inductive Wanted
  | config
  | boolean
  | unit
  deriving DecidableEq, Repr

def Wanted.describe : Wanted → String
  | config => "struct ShimConfig"
  | boolean => "a boolean"
  | unit => "unit"

def Field.variants : Field → List String
  | .fatal => [FatalPolicy.exit.name, FatalPolicy.trap.name]
  | .indirectCalls => [IndirectCalls.fatal.name, IndirectCalls.resolve.name]
  | _ => []

/-- What is wrong with a text that may well be in good form. -/
inductive DataError
  | invalidType (found : Found) (wanted : Wanted)
  | unknownVariant (name : String) (field : Field)
  | duplicateField (field : Field)
  deriving DecidableEq, Repr

def DataError.message : DataError → String
  | invalidType found wanted => s!"invalid type: {found.describe}, expected {wanted.describe}"
  | unknownVariant name field =>
    let names := " or ".intercalate (field.variants.map fun v => s!"`{v}`")
    s!"unknown variant `{name}`, expected {names}"
  | duplicateField field => s!"duplicate field `{field.key}`"

inductive ParseError
  | cutShort
  | malformed
  | data (error : DataError)
  deriving DecidableEq, Repr

def ParseError.message : ParseError → String
  | cutShort => "EOF while parsing"
  | malformed => "malformed text"
  | data error => error.message

inductive Error
  | file (error : FileError)
  | notUtf8
  | parse (error : ParseError)
  deriving DecidableEq, Repr

def Error.message : Error → String
  | file error => s!"Config Read Error: {error.message}"
  | notUtf8 => "Config Read Error: stream did not contain valid UTF-8"
  | parse error => s!"Config Parse Error: {error.message}"

end Config

end GuestHost
