import SqlMetrics.Text.Quoted

/-!
# Errors of exporters

Why a batch of points did not reach its backend, and why an exporter could not be built.
-/

namespace SqlMetrics

/-- The reason phrase of a status code, for the registered codes. -/
def reasonPhrase? : Nat → Option String
  | 100 => some "Continue"
  | 101 => some "Switching Protocols"
  | 102 => some "Processing"
  | 103 => some "Early Hints"
  | 200 => some "OK"
  | 201 => some "Created"
  | 202 => some "Accepted"
  | 203 => some "Non Authoritative Information"
  | 204 => some "No Content"
  | 205 => some "Reset Content"
  | 206 => some "Partial Content"
  | 207 => some "Multi-Status"
  | 208 => some "Already Reported"
  | 226 => some "IM Used"
  | 300 => some "Multiple Choices"
  | 301 => some "Moved Permanently"
  | 302 => some "Found"
  | 303 => some "See Other"
  | 304 => some "Not Modified"
  | 305 => some "Use Proxy"
  | 307 => some "Temporary Redirect"
  | 308 => some "Permanent Redirect"
  | 400 => some "Bad Request"
  | 401 => some "Unauthorized"
  | 402 => some "Payment Required"
  | 403 => some "Forbidden"
  | 404 => some "Not Found"
  | 405 => some "Method Not Allowed"
  | 406 => some "Not Acceptable"
  | 407 => some "Proxy Authentication Required"
  | 408 => some "Request Timeout"
  | 409 => some "Conflict"
  | 410 => some "Gone"
  | 411 => some "Length Required"
  | 412 => some "Precondition Failed"
  | 413 => some "Payload Too Large"
  | 414 => some "URI Too Long"
  | 415 => some "Unsupported Media Type"
  | 416 => some "Range Not Satisfiable"
  | 417 => some "Expectation Failed"
  | 418 => some "I'm a teapot"
  | 421 => some "Misdirected Request"
  | 422 => some "Unprocessable Entity"
  | 423 => some "Locked"
  | 424 => some "Failed Dependency"
  | 425 => some "Too Early"
  | 426 => some "Upgrade Required"
  | 428 => some "Precondition Required"
  | 429 => some "Too Many Requests"
  | 431 => some "Request Header Fields Too Large"
  | 451 => some "Unavailable For Legal Reasons"
  | 500 => some "Internal Server Error"
  | 501 => some "Not Implemented"
  | 502 => some "Bad Gateway"
  | 503 => some "Service Unavailable"
  | 504 => some "Gateway Timeout"
  | 505 => some "HTTP Version Not Supported"
  | 506 => some "Variant Also Negotiates"
  | 507 => some "Insufficient Storage"
  | 508 => some "Loop Detected"
  | 510 => some "Not Extended"
  | 511 => some "Network Authentication Required"
  | _ => none

/-- A status code with its reason phrase. -/
def statusText (status : Nat) : String :=
  toString status ++ " " ++ (reasonPhrase? status).getD "<unknown status code>"

/-- Why a request got no answer. -/
inductive HttpError where
  /-- A header of the request cannot have the value that it is given. -/
  | badHeader
  /-- There is no posting to the URL, for its scheme or for want of a host. -/
  | badScheme (url : String)
  /-- The request for the URL could not be sent, with the texts of what caused it. -/
  | sending (url : String) (further : List String)
  /-- Something else went wrong, with the texts of what caused it. -/
  | other (text : String) (further : List String)
deriving DecidableEq, Repr

namespace HttpError

/-- The text of the error. -/
def message : HttpError → String
  | .badHeader => "builder error"
  | .badScheme url => "builder error for url (" ++ url ++ ")"
  | .sending url _ => "error sending request for url (" ++ url ++ ")"
  | .other text _ => text

/-- The texts of what caused the error, the nearest first. -/
def causes : HttpError → List String
  | .badHeader => ["failed to parse header value"]
  | .badScheme _ => ["URL scheme is not allowed"]
  | .sending _ further | .other _ further => further

end HttpError

/-- Why a batch was not exported. -/
inductive ExportError where
  /-- The request got no answer. -/
  | http (cause : HttpError)
  /-- The backend answered that it did not take the batch. -/
  | status (code : Nat) (body : String)
  /-- The base URL of the backend cannot be used. -/
  | invalidUrl (url : String)
  /-- The value of the point `name` is not a finite number. -/
  | invalidValue (name value : String)
  /-- Writing the batch failed. -/
  | write (cause : String)
deriving DecidableEq, Repr

namespace ExportError

/-- The text of the error. -/
def message : ExportError → String
  | .http cause => "failed to post metrics: " ++ cause.message
  | .status code body => "metrics backend returned " ++ statusText code ++ ": " ++ body
  | .invalidUrl url => "invalid api base url: " ++ url
  | .invalidValue name value => "invalid metric value: key = " ++ name ++ ", value = " ++ value
  | .write cause => "I/O error: " ++ cause

/-- The texts of what caused the error, the nearest first. -/
def causes : ExportError → List String
  | .http cause => cause.message :: cause.causes
  | .write cause => [cause]
  | .status _ _ | .invalidUrl _ | .invalidValue _ _ => []

end ExportError

/-- Why an exporter could not be built. -/
inductive BuildError where
  /-- There is no exporter of this name. -/
  | unknown (name : String)
  /-- The exporter refused its settings. -/
  | refused (cause : ExportError)
deriving DecidableEq, Repr

namespace BuildError

/-- The text of the error. -/
def message : BuildError → String
  | .unknown name => name ++ ": unknown exporter"
  | .refused cause => "failed to build exporter: " ++ cause.message

/-- The texts of what caused the error, the nearest first. -/
def causes : BuildError → List String
  | .unknown _ => []
  | .refused cause => cause.message :: cause.causes

end BuildError

end SqlMetrics
