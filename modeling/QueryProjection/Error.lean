set_option autoImplicit false

namespace QueryProjection

inductive RequestError where
  | invalidFilter (detail : String)
  | invalidOrder (detail : String)
  | invalidExpand (detail : String)
  | invalidLimit
  | parsingUnavailable
  deriving DecidableEq

inductive Error where
  | unknownType (name : String)
  | unresolvedMember (typeName memberName : String)
  | malformedExpansion (detail : String)
  | unsupported (detail : String)
  | invalidFilter (detail : String)
  | cyclicBase (typeName : String)
  | typeMismatch (detail : String)
  | mapping (detail : String)
  | endlessProjection (typeName : String)
  | evaluation (detail : String)
  | cancelled
  | provider (detail : String)
  | request (cause : RequestError)
  | configuration
  deriving DecidableEq

def RequestError.message : RequestError → String
  | .invalidFilter detail => "invalid $filter: " ++ detail
  | .invalidOrder detail => "unsupported $orderby field: " ++ detail
  | .invalidExpand detail => "invalid $expand: " ++ detail
  | .invalidLimit => "INVALID_LIMIT"
  | .parsingUnavailable =>
      "OData parsing unavailable: OData filter parsing requires 'with-odata-params' feature"

namespace Error

def message : Error → String
  | .unknownType name => "Unknown type: " ++ name
  | .unresolvedMember typeName memberName =>
      "Member '" ++ memberName ++ "' cannot be resolved on type '" ++ typeName ++ "'"
  | .malformedExpansion detail => "Malformed expansion: " ++ detail
  | .unsupported detail => "Not supported: " ++ detail
  | .invalidFilter detail => "Invalid filter: " ++ detail
  | .cyclicBase typeName => "Cyclic base type chain at '" ++ typeName ++ "'"
  | .typeMismatch detail => "Type mismatch: " ++ detail
  | .mapping detail => "Mapping failed: " ++ detail
  | .endlessProjection typeName =>
      "Mapping failed: the projection of '" ++ typeName ++ "' never ends"
  | .evaluation detail => "Evaluation failed: " ++ detail
  | .cancelled => "Operation was cancelled"
  | .provider detail => "Query provider error: " ++ detail
  | .request cause => cause.message
  | .configuration => "Invalid query settings"

end Error

abbrev Outcome (α : Type) := Except Error α

end QueryProjection
