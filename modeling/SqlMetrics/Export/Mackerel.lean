import SqlMetrics.Export.Body
import SqlMetrics.Export.Error
import SqlMetrics.Text.Base64
import SqlMetrics.Text.Blank
import SqlMetrics.Url.Parser

/-!
# The Mackerel exporter

A batch is posted as JSON to the endpoint of its service, a URL under a base that is given when the
exporter is set up.  Only a base that has a path of segments will do.  The endpoint keeps everything
of the base but its path, which is extended by five segments, the fourth of them the name of the
service.

The module says which request is made for a batch, and what an answer to it means; sending is left
to the caller.
-/

namespace SqlMetrics.Mackerel

/-- The base that is used where none is given. -/
def defaultBase : String := "https://api.mackerelio.com/"

/-- How requests name their sender. -/
def userAgent : String := "mackerel-sql-metric-collector"

/-- The media type of the posted body. -/
def contentType : String := "application/json"

/-- An exporter that is set up. -/
structure Client where
  apiKey : String
  base : Url
deriving DecidableEq, Repr

/-- Sets up an exporter; an empty base stands for the default one. -/
def Client.setUp (apiKey apiBase : String) : Except ExportError Client :=
  let baseText := if apiBase.isEmpty then defaultBase else apiBase
  match Url.parse? baseText with
  | none => .error (.invalidUrl baseText)
  | some base =>
    match base.path with
    | .text _ => .error (.invalidUrl baseText)
    | .segments _ => .ok ⟨apiKey, base⟩

/-- The segments that the endpoint of a service adds to the base. -/
def endpointSegments (service : String) : List String :=
  ["api", "v0", "services", service, "tsdb"]

/-- The URL to which batches of a service are posted. -/
def Client.endpoint (client : Client) (service : String) : Except ExportError Url :=
  match client.base.extend? (endpointSegments service) with
  | some url => .ok url
  | none => .error (.invalidUrl client.base.text)

/-- A request that is ready to be sent. -/
structure Request where
  /-- The URL that it is for, as errors name it. -/
  url : String
  scheme : String
  /-- The host and port that the request goes to. -/
  host : String
  /-- The path and query that are asked for. -/
  target : String
  userAgent : String
  contentType : String
  apiKey : String
  authorization : Option String
  body : String
deriving DecidableEq, Repr

/-- The first line of a request. -/
def Request.line (r : Request) : String :=
  "POST " ++ r.target ++ " HTTP/1.1"

/-- Whether a text may stand in the header of a request. -/
def isHeaderValue (s : String) : Bool :=
  s.toList.all fun c => (0x20 ≤ c.toNat && c.toNat != 0x7F) || c == '\t'

/-- The credentials in an authority: its user name and password, where there is one of them and both
are text. -/
def credentials? (a : Url.Authority) : Option (String × Option String) :=
  match Text.decode (Url.unescape a.username.toList) with
  | .error _ => none
  | .ok username =>
    let password := a.password.bind fun p => (Text.decode (Url.unescape p.toList)).toOption
    if username.isEmpty && password.isNone then none else some (username, password)

/-- The header that carries credentials. -/
def basicAuthorization (username : String) (password : Option String) : String :=
  "Basic " ++ Text.Base64.encode (Text.encode (username ++ ":" ++ password.getD ""))

/-- The URL as a request has it: what of its authority goes into a header is taken away. -/
def requestUrl (url : Url) : Url :=
  match url.authority with
  | some a =>
    if (credentials? a).isSome then
      { url with authority := some { a with username := "", password := none } }
    else url
  | none => url

/-- The request that posts a body to a URL.  Only the two schemes of the web can be posted to, and
the key has to fit into a header.  That a URL has no host is found before the header is looked at, and
that its scheme is another one after it. -/
def Client.post (client : Client) (url : Url) (body : String) : Except ExportError Request :=
  if (url.authority.bind Url.Authority.host).isNone then .error (.http (.badScheme url.text))
  else if !isHeaderValue client.apiKey then .error (.http .badHeader)
  else if url.scheme != "http" && url.scheme != "https" then
    .error (.http (.badScheme (requestUrl url).text))
  else
    .ok {
      url := (requestUrl url).text
      scheme := url.scheme
      host := (url.authority.map Url.Authority.hostText).getD ""
      target := url.target
      userAgent := userAgent
      contentType := contentType
      apiKey := client.apiKey
      authorization := (url.authority.bind credentials?).map fun c => basicAuthorization c.1 c.2
      body := body }

/-- The request that exports a batch to a service. -/
def Client.request (client : Client) (service : String) (points : List MetricPoint) :
    Except ExportError Request :=
  match client.endpoint service with
  | .error e => .error e
  | .ok url => client.post url (batchJson points)

/-- An answer to a request. -/
structure Response where
  status : Nat
  body : Bytes
deriving DecidableEq, Repr

/-- Whether an answer has a body at all: answers that say there is no content, or no newer one, have
none. -/
def Response.hasBody (r : Response) : Bool :=
  r.status != 204 && r.status != 304

/-- What an answer means for the export. -/
def Response.outcome (r : Response) : Except ExportError Unit :=
  if 200 ≤ r.status && r.status < 300 then .ok ()
  else
    let body := if r.hasBody then r.body else []
    .error (.status r.status (Text.trim (Text.decodeLossy body)))

/-- What a request comes to. -/
abbrev Delivery := Except HttpError Response

/-- Exports a batch over a network, given as what it does with each request. -/
def Client.exportBatch (client : Client) (network : Request → Delivery) (service : String)
    (points : List MetricPoint) : Option Request × Except ExportError Unit :=
  match client.request service points with
  | .error e => (none, .error e)
  | .ok request =>
    (some request,
      match network request with
      | .error e => .error (.http e)
      | .ok response => response.outcome)

end SqlMetrics.Mackerel
