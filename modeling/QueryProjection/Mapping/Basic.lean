import QueryProjection.Schema.Basic
import QueryProjection.Text.Basic

set_option autoImplicit false

namespace QueryProjection

inductive MemberOrigin where
  | path (names : List String)
  | parameter (name : String)
  deriving DecidableEq

def MemberOrigin.ofPath (path : String) : MemberOrigin :=
  let slashes := path.toList.map fun c => if c == '.' then '/' else c
  .path (Text.pathSegments (String.ofList slashes))

/-- A member without an entry comes from the source member of the same name. -/
structure TypeMapping where
  source : String
  members : List (String × MemberOrigin)
  deriving DecidableEq

def putEntry {α : Type} (key : String) (value : α) : List (String × α) → List (String × α)
  | [] => [(key, value)]
  | (held, old) :: rest =>
      if held == key then (key, value) :: rest else (held, old) :: putEntry key value rest

namespace TypeMapping

def ofSource (source : String) : TypeMapping := ⟨source, []⟩

def withMember (map : TypeMapping) (member : String) (origin : MemberOrigin) : TypeMapping :=
  { map with members := putEntry member origin map.members }

def find? (map : TypeMapping) (member : String) : Option MemberOrigin :=
  (map.members.find? fun entry => Text.sameName entry.1 member).map fun entry => entry.2

end TypeMapping

structure Mapping where
  schema : Schema
  maps : List (String × TypeMapping)

namespace Mapping

def ofSchema (schema : Schema) : Mapping := ⟨schema, []⟩

def withType (mapping : Mapping) (modelType : String) (map : TypeMapping) : Mapping :=
  { mapping with maps := putEntry modelType map mapping.maps }

def origin? (mapping : Mapping) (modelType member : String) : Option MemberOrigin :=
  (mapping.maps.lookup modelType).bind fun map => map.find? member

def sourceType (mapping : Mapping) (modelType : String) : Outcome String :=
  match mapping.maps.lookup modelType with
  | some map => .ok map.source
  | none => do return (← mapping.schema.get modelType).name

def typeToSource (mapping : Mapping) : DataType → DataType
  | .named name =>
      match mapping.maps.lookup name with
      | some map => .named map.source
      | none => .named name
  | .nullable inner => (typeToSource mapping inner).orNull
  | .collection kind element => .collection kind (typeToSource mapping element)
  | ty => ty

end Mapping

end QueryProjection
