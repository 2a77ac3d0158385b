import CeylonFromJava.Json.Basic
import CeylonFromJava.Json.Decoder

/-! Settings of a conversion. -/
namespace CeylonFromJava.Conversion
set_option autoImplicit false

/-- `convertGetters`: accessor calls without arguments become property reads.
`declareMutable`: every field, parameter and local value is declared variable. -/
structure Config where
  convertGetters : Bool
  declareMutable : Bool
  deriving DecidableEq, Repr

namespace Config

def default : Config := ⟨false, false⟩

open Json.Decoder in
/-- Settings passed as data; what is left out is off. -/
def decode : Json.Decoder Config :=
  record "struct Config"
    (.of2 (defaulted "convert_getters" bool false)
      (defaulted "declare_mutable_by_default" bool false))
    fun (convertGetters, declareMutable, _) => ⟨convertGetters, declareMutable⟩

def encode (c : Config) : Json :=
  .object [("convert_getters", .bool c.convertGetters),
    ("declare_mutable_by_default", .bool c.declareMutable)]

end Config

end CeylonFromJava.Conversion
