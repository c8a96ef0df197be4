import ClosureConversion.Conversion

/-! # Conversions as JSON -/

set_option autoImplicit false

namespace ClosureConversion

def ClosureSummary.toJson (c : ClosureSummary) : Json :=
  .obj [("qualname", .str c.qualname), ("shape", .str c.shape.name), ("wrapper", .str c.wrapper),
    ("captures", .strings c.captures), ("fallible", .bool c.fallible)]

def ConvertedFunction.toJson (f : ConvertedFunction) : Json :=
  .obj [("name", .str f.name), ("declarations", .str f.declarations), ("code", .str f.code),
    ("return_type", f.returnType.toJson), ("fallible", .bool f.fallible),
    ("closures", .arr (f.closures.map ClosureSummary.toJson))]

end ClosureConversion
