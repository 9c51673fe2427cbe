import Resumable.Json.Reader
import Resumable.Text.Blank

namespace Resumable

structure PerformRequest where
  profileUrl : String
  providerUrl : String
  mapUrl : String
  usecase : String
  input : Json := .null
  parameters : Json := .obj []
  security : Json := .obj []

namespace PerformRequest

def firstBlank? (r : PerformRequest) : Option String :=
  if Text.allBlank r.usecase then some "usecase"
  else if Text.allBlank r.profileUrl then some "profile_url"
  else if Text.allBlank r.providerUrl then some "provider_url"
  else if Text.allBlank r.mapUrl then some "map_url"
  else none

def fields : List String :=
  ["profile_url", "provider_url", "map_url", "usecase", "input",
    "parameters", "security"]

def toJson (r : PerformRequest) : Json :=
  .object
    [("profile_url", .str r.profileUrl), ("provider_url", .str r.providerUrl),
     ("map_url", .str r.mapUrl), ("usecase", .str r.usecase), ("input", r.input),
     ("parameters", r.parameters), ("security", r.security)]

def ofLookup? (get : String → Option Json) : Option PerformRequest := do
  let profileUrl ← (← get "profile_url").asString?
  let providerUrl ← (← get "provider_url").asString?
  let mapUrl ← (← get "map_url").asString?
  let usecase ← (← get "usecase").asString?
  return {
    profileUrl, providerUrl, mapUrl, usecase
    input := ((get "input").getD .null).normalize
    parameters := ((get "parameters").getD (.obj [])).normalize
    security := ((get "security").getD (.obj [])).normalize }

end PerformRequest

namespace Json

def keysOnce (names : List String) (members : List (String × Json)) : Bool :=
  names.all fun name => (members.filter (·.1 == name)).length ≤ 1

/-- Look up a field of a document: by name in an object that has each field at most
once, by position in an array of at most as many items. -/
def fieldLookup? (fields : List String) : Json → Option (String → Option Json)
  | .obj members =>
      if keysOnce fields members then
        some fun name => (members.find? (·.1 == name)).map (·.2)
      else none
  | .arr items =>
      if items.length ≤ fields.length then
        some fun name => ((fields.zip items).find? (·.1 == name)).map (·.2)
      else none
  | _ => none

end Json

namespace PerformRequest

def read? (bytes : List UInt8) : Option PerformRequest :=
  match Json.read (.document fields) bytes with
  | .error _ => none
  | .ok tree => (Json.fieldLookup? fields tree).bind ofLookup?

end PerformRequest

end Resumable
