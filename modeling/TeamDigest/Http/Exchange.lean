import TeamDigest.Data.Decode
import TeamDigest.Http.Url
import TeamDigest.Json.Reader
import TeamDigest.Json.Writer
import TeamDigest.Plan
import TeamDigest.Text.Base64

/-!
# Exchanges with web services

A request goes out and a response comes back; clients of services are plans
over such exchanges.  A request that cannot be built is never sent.
-/

namespace TeamDigest.Http

open Text

/-- The methods in use. -/
inductive Method where
  | get
  | post
  deriving DecidableEq

/-- The method in words. -/
def Method.name : Method → String
  | .get => "GET"
  | .post => "POST"

/-- What is sent to a service. -/
structure Request where
  method : Method
  url : Url
  headers : List (String × String)
  /-- A JSON document. -/
  body : Option Data

/-- What a service answers. -/
structure Response where
  status : Nat
  body : String
  deriving DecidableEq

/-- Exchanges with web services. -/
def web : Interface := ⟨Request, fun _ => Response⟩

/-- A computation that exchanges requests for responses. -/
abbrev Client (α : Type) : Type := Plan web α

/-- A web that no way leads to. -/
def unreachable : World web Unit := fun request s =>
  (.error (.transport (.unreachable request.url.text)), s)

/-- Holds of texts that may stand in a header. -/
def isHeaderText (s : String) : Bool :=
  s.toList.all fun c => c = '\t' || (0x20 ≤ c.toNat && c.toNat ≠ 0x7F)

/-- The header for a user name and a password. -/
def basicLogin (name password : String) : String × String :=
  ("authorization", "Basic " ++ base64 (name ++ ":" ++ password))

/-- The request to an address, with pairs for its query. -/
def request (method : Method) (address : String) (query headers : List (String × String))
    (body : Option Data) : Except TransportFault Request := do
  let url ← Url.read address
  let url := if query.isEmpty then url else url.addPairs query
  if headers.all fun h => isHeaderText h.2 then
    let accept := if (headers.lookup "accept").isSome then [] else [("accept", "*/*")]
    let login := (url.login.map fun (name, password) => basicLogin name password).toList
    let content :=
      if body.isSome && (headers.lookup "content-type").isNone then
        [("content-type", "application/json")]
      else []
    pure { method, url, headers := login ++ headers ++ content ++ accept, body }
  else throw .header

namespace Client

/-- Sends a request. -/
def send (request : Except TransportFault Request) : Client Response :=
  match request with
  | .ok request => .ask request .done
  | .error fault => .fail (.transport fault)

/-- The body of a response of success. -/
def checked (service : String) (response : Response) : Client String :=
  if isSuccess response.status then pure response.body
  else .fail (.service service (.refused response.status response.body))

/-- Sends a request and returns the body of a response of success. -/
def exchange (service : String) (request : Except TransportFault Request) : Client String := do
  checked service (← send request)

/-- Sends a request and decodes the body of a response of success. -/
def fetch {α : Type} (service : String) (request : Except TransportFault Request)
    (decode : Decode α) : Client α := do
  let body ← exchange service request
  .ofOption (.transport .undecodable) ((Json.read? body.toList).bind decode)

end Client

end TeamDigest.Http
