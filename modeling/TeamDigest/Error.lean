import TeamDigest.Http.Status
import TeamDigest.Text.Pieces

/-!
# What can go wrong

An error is its cause.  `Error.message` puts it into words, `Error.reasons` gives
the messages of the causes behind it, the nearest one first, and `Error.account`
puts all of them together.
-/

namespace TeamDigest

open Text

/-- Why the file system refuses. -/
inductive FileFault where
  | notFound
  | exists
  | notDirectory
  | isDirectory
  | denied
  /-- The file holds bytes that are no text. -/
  | notText
  /-- Some other reason, in words. -/
  | other (reason : String)
  deriving DecidableEq

/-- The fault in words. -/
def FileFault.message : FileFault → String
  | .notFound => "No such file or directory (os error 2)"
  | .exists => "File exists (os error 17)"
  | .notDirectory => "Not a directory (os error 20)"
  | .isDirectory => "Is a directory (os error 21)"
  | .denied => "Permission denied (os error 13)"
  | .other reason => reason
  | .notText => "stream did not contain valid UTF-8"

/-- Why a text is no address of a web resource. -/
inductive UrlFault where
  | noScheme
  | emptyHost
  | invalidPort
  | invalidHost
  | invalidIpv4
  | invalidIpv6
  deriving DecidableEq

/-- The fault in words. -/
def UrlFault.message : UrlFault → String
  | .noScheme => "relative URL without a base"
  | .emptyHost => "empty host"
  | .invalidPort => "invalid port number"
  | .invalidHost => "invalid domain character"
  | .invalidIpv4 => "invalid IPv4 address"
  | .invalidIpv6 => "invalid IPv6 address"

/-- Why a request gets no usable answer. -/
inductive TransportFault where
  /-- No way leads to the server. -/
  | unreachable (address : String)
  | url (fault : UrlFault)
  /-- Requests go to web servers only. -/
  | scheme (address : String)
  /-- A header would hold a character that must not be sent. -/
  | header
  /-- The answer has not the form that was expected. -/
  | undecodable
  deriving DecidableEq

/-- The fault in words, and then what is behind it, step by step. -/
def TransportFault.messages : TransportFault → List String
  | .unreachable address =>
    let network := "Network is unreachable (os error 101)"
    let connection := "tcp connect error: " ++ network
    let attempt := "error trying to connect: " ++ connection
    ["error sending request for url (" ++ address ++ "): " ++ attempt, attempt, connection, network]
  | .url fault => ["builder error: " ++ fault.message, fault.message]
  | .scheme address =>
    let refusal := "URL scheme is not allowed"
    ["builder error for url (" ++ address ++ "): " ++ refusal, refusal]
  | .header =>
    let refusal := "failed to parse header value"
    ["builder error: " ++ refusal, refusal]
  | .undecodable => ["error decoding response body"]

/-- Why a service does not answer a question. -/
inductive ServiceFault where
  /-- It answers with a status other than success. -/
  | refused (status : Nat) (body : String)
  /-- It answers with a list of errors in the query. -/
  | query (errors : String)
  /-- It answers without any data. -/
  | noData
  /-- It does not answer a call. -/
  | down (call : String)
  deriving DecidableEq

/-- The fault in words. -/
def ServiceFault.message : ServiceFault → String
  | .refused status body =>
    "request failed with status " ++ Http.statusText status ++ ": " ++ body
  | .query errors => "GraphQL errors: " ++ errors
  | .noData => "missing 'data' in response"
  | .down call => call

/-- Why the writer of rollups does not deliver. -/
inductive WriterFault where
  /-- The answer holds no text. -/
  | noText
  | unavailable
  deriving DecidableEq

/-- The fault in words. -/
def WriterFault.message : WriterFault → String
  | .noText => "no text block in response"
  | .unavailable => "summarizer unavailable"

/-- What is wrong with a configuration. -/
inductive ConfigFault where
  | fileMissing (path : String)
  | noHome
  | zeroTimespan
  | zeroLifetime
  | trackerUrl
  | reservedId (id : Int)
  | duplicateId (id : Int)
  | namelessUser (id : String)
  deriving DecidableEq

/-- The fault in words. -/
def ConfigFault.message : ConfigFault → String
  | .fileMissing path => "Config file not found at: " ++ path
  | .noHome => "Could not determine home directory"
  | .zeroTimespan => "default_timespan_days must be > 0"
  | .zeroLifetime => "cache_ttl_hours must be > 0"
  | .trackerUrl => "project_management.base_url must be an http(s) URL"
  | .reservedId id => "project id " ++ signedDecimal id ++ " is reserved for the Misc project"
  | .duplicateId id => "duplicate project id " ++ signedDecimal id
  | .namelessUser id => "user " ++ id ++ " has no name"

/-- What can go wrong in a run. -/
inductive Error where
  | file (fault : FileFault)
  | config (fault : ConfigFault)
  /-- A configuration file is no document, or not of the right shape. -/
  | document
  | transport (fault : TransportFault)
  /-- Data are not of the right shape. -/
  | json
  | service (name : String) (fault : ServiceFault)
  | writer (fault : WriterFault)
  | store (fault : FileFault)
  /-- A text is no time. -/
  | time
  /-- A setting is needed and not there. -/
  | missing (what : String)
  /-- A date lies outside the calendar. -/
  | outOfCalendar
  /-- A search was given up because it did not come to an end. -/
  | abandoned
  /-- A report cannot be written to a file. -/
  | unwritable (path : String) (fault : FileFault)
  /-- There is no address to publish to. -/
  | noWebhook
  /-- An error that came up in the course of something else. -/
  | during (course : String) (cause : Error)
  deriving DecidableEq

namespace Error

/-- The error in words. -/
def message : Error → String
  | .file fault => "IO error: " ++ fault.message
  | .config fault => "Configuration error: " ++ fault.message
  | .document => "TOML parse error"
  | .transport fault => "HTTP error: " ++ fault.messages.headD ""
  | .json => "JSON error"
  | .service name fault => name ++ " API error: " ++ fault.message
  | .writer fault => "Claude API error: " ++ fault.message
  | .store fault => "Cache error: IO error: " ++ fault.message
  | .time => "Date parse error"
  | .missing what => "Missing required configuration: " ++ what
  | .outOfCalendar => "date out of range"
  | .abandoned => "search abandoned"
  | .unwritable path _ => "could not write " ++ path
  | .noWebhook => "--publish needs slack_webhook_url (or SLACK_WEBHOOK_URL)"
  | .during course _ => course

/-- The messages of what is behind the error, the nearest cause first. -/
def reasons : Error → List String
  | .file fault => [fault.message]
  | .transport fault => fault.messages
  | .store fault => ["IO error: " ++ fault.message]
  | .unwritable _ fault => [fault.message]
  | .during _ cause => cause.message :: cause.reasons
  | _ => []

/-- A text with its lines after the first set in by `margin`. -/
def setIn (margin : String) (s : String) : String :=
  join ("\n" ++ margin) ((cut '\n' s.toList).map String.ofList)

/-- The lines on the reasons; several ones are numbered from `number` on. -/
def numbered (number : Nat) : List String → String
  | [] => ""
  | r :: rs => "\n    " ++ decimal number ++ ": " ++ setIn "       " r ++ numbered (number + 1) rs

/-- The account of an error that ends a run. -/
def account (e : Error) : String :=
  "Error: " ++ e.message ++
    match e.reasons with
    | [] => ""
    | [r] => "\n\nCaused by:\n    " ++ setIn "    " r
    | rs => "\n\nCaused by:" ++ numbered 0 rs

end Error

end TeamDigest
