import ProseTypes.Json
import ProseTypes.Request.Basic

/-!
# The request manifest

All requests as one JSON document, with the types of bodies, queries and responses as text.
-/

namespace ProseTypes.Request

def entry (request : Request) : Json :=
  .object ([("name", .string request.title.name), ("method", .string request.title.verb.text),
    ("path", .string request.title.template.path),
    ("parameters", .array (request.title.template.parameters.map .string)),
    ("anchor", .string request.source)] ++
    Json.member? "body" (request.body.map Symbol.text) ++
    Json.member? "query" (request.query.map Symbol.text) ++
    Json.member? "response" (request.response.map Symbol.text))

def manifest (requests : List Request) : String :=
  (Json.array (requests.map entry)).text

end ProseTypes.Request
