import IntrospectSdl.Schema.Site

/-! # Why a payload is no schema

What can be wrong with the references of a payload whose records are all in order. -/

namespace IntrospectSdl.Introspection

/-- What a type is used for. -/
inductive Usage where
  | input
  | output
deriving DecidableEq, Repr

/-- Whether types of a kind can be used so. -/
def Usage.allows : Usage → TypeKind → Bool
  | .output, kind => kind ≠ .inputObject
  | .input, .scalar | .input, .enum | .input, .inputObject => true
  | .input, _ => false

/-- Why a payload is no schema. -/
inductive ImportError where
  | duplicateType (name : String)
  | unknownType (name : String) (site : Site)
  | wrongKind (site : Site) (wanted : TypeKind) (name : String) (found : TypeKind)
  | listWithoutItem (site : Site)
  | nonNullWithoutType (site : Site)
  | doubleNonNull (site : Site)
  | unnamedType (site : Site)
  | wrongUsage (site : Site) (usage : Usage) (name : String) (found : TypeKind)
  | unknownLocation (location directive : String)
deriving DecidableEq, Repr

/-- A kind with its article. -/
def kindText : TypeKind → String
  | .scalar => "a scalar"
  | .object => "an object"
  | .interface => "an interface"
  | .union => "a union"
  | .enum => "an enum"
  | .inputObject => "an input object"

/-- A usage with its article. -/
def Usage.text : Usage → String
  | .input => "an input"
  | .output => "an output"

/-- The error in words. -/
def ImportError.message : ImportError → String
  | .duplicateType name => s!"type `{name}` is declared more than once"
  | .unknownType name site =>
    s!"unknown type `{name}` referenced by {site.text}; " ++
      "ensure that a full introspection query is used"
  | .wrongKind site wanted name found =>
    s!"{site.text} must reference {kindText wanted} type, but `{name}` is {kindText found}"
  | .listWithoutItem site => s!"list type without `ofType` in {site.text}"
  | .nonNullWithoutType site => s!"non-null type without `ofType` in {site.text}"
  | .doubleNonNull site => s!"non-null of non-null type in {site.text}"
  | .unnamedType site => s!"named type without a name in {site.text}"
  | .wrongUsage site usage name found =>
    s!"{site.text} must have {usage.text} type, but `{name}` is {kindText found}"
  | .unknownLocation location directive =>
    s!"{Location.unknownText location} on directive `@{directive}`"

end IntrospectSdl.Introspection
