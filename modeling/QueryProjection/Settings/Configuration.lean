import QueryProjection.Mapping.Projection
import QueryProjection.Request.Limits

set_option autoImplicit false

namespace QueryProjection

structure Settings where
  /-- Whether filters are guarded against null members; when open, the provider says. -/
  nullPropagation : Option Bool
  /-- The offset, in seconds to the east, that instants in filters are moved to. -/
  timeZone : Option Int
  configuredPageSize : Option Nat
  limits : Limits
  parameters : ProjectionParameters

namespace Settings

def standard : Settings := ⟨none, none, none, .standard, []⟩

def pageSize (settings : Settings) : Option Nat :=
  settings.configuredPageSize.filter fun size => 0 < size

def bindingContext (settings : Settings) (guardsNulls : Bool) : BindingContext :=
  ⟨settings.nullPropagation.getD guardsNulls, settings.timeZone⟩

end Settings

namespace Configuration

mutual

/-- Lays a document over an earlier one. Only objects are combined; anything else is replaced. -/
def overlay (earlier : Json) : Json → Json
  | .object later =>
      match earlier with
      | .object members => .object (overlayMembers members later)
      | _ => .object later
  | later => later

def overlayMembers (members : List (String × Json)) :
    List (String × Json) → List (String × Json)
  | [] => members
  | (key, value) :: rest =>
      let combined := match members.lookup key with
        | some held => overlay held value
        | none => value
      overlayMembers (Json.insertMember key combined members) rest

end

def combine? (layers : List Json) : Option (List (String × Json)) :=
  layers.foldlM (fun members layer => match layer with
    | .object later => some (overlayMembers members later)
    | _ => none) []

abbrev Section := String → Option Json

def section? (names : List String) : Json → Option Section
  | .object members => some fun name => members.lookup name
  | .array items => some fun name => (names.zip items).lookup name
  | _ => none

def part {α : Type} (parts : Section) (name : String) (standard : α)
    (read? : Json → Option α) : Option α :=
  match parts name with
  | some json => read? json
  | none => some standard

def orNull {α : Type} (read? : Json → Option α) (json : Json) : Option (Option α) :=
  if json.isNull then some none else some <$> read? json

def offset? (json : Json) : Option Int := do
  let text := Text.trimText (← json.asText?)
  if Text.sameName text "utc" || text == "Z" then some 0 else Offset.read? text

def limits? (json : Json) : Option Limits := do
  let parts ← section?
    ["max_top", "max_skip", "max_orderby_fields", "max_filter_nodes", "max_expand_depth"] json
  let standard := Limits.standard
  return ⟨← part parts "max_top" standard.maxTop Json.asUnsigned?,
    ← part parts "max_skip" standard.maxSkip Json.asUnsigned?,
    ← part parts "max_orderby_fields" standard.maxOrderKeys Json.asUnsigned?,
    ← part parts "max_filter_nodes" standard.maxFilterNodes Json.asUnsigned?,
    ← part parts "max_expand_depth" standard.maxExpandDepth Json.asUnsigned?⟩

def requestSettings? (json : Json) : Option Settings := do
  let parts ← section? ["handle_null_propagation", "time_zone", "page_size", "limits"] json
  return ⟨← part parts "handle_null_propagation" none (orNull Json.asBool?),
    ← part parts "time_zone" none (orNull offset?),
    ← part parts "page_size" none (orNull Json.asUnsigned?),
    ← part parts "limits" .standard limits?, []⟩

def parameters? (json : Json) : Option ProjectionParameters := do
  let parts ← section? ["parameters"] json
  part parts "parameters" [] fun
    | .object members => some members
    | _ => none

def settings? (json : Json) : Option Settings := do
  let parts ← section? ["odata", "projection"] json
  let settings ← part parts "odata" .standard requestSettings?
  return { settings with parameters := ← part parts "projection" [] parameters? }

end Configuration

def Settings.ofLayers (layers : List Json) : Outcome Settings :=
  match (Configuration.combine? layers).bind fun members => members.lookup "query" with
  | none => .ok .standard
  | some json => match Configuration.settings? json with
    | some settings => .ok settings
    | none => .error .configuration

end QueryProjection
