import SiteServer.Text.Blank
import SiteServer.Text.Numeral
import SiteServer.Vocabulary

/-!
# Status codes

The registered status codes of the protocol with their reason phrases.  The
class of a code is its first digit; the label of a code is its reason phrase
written as one word.
-/

namespace SiteServer.Http

/-- The outcome of a request, as the status line reports it. -/
inductive Status where
  | proceed | switchingProtocols | processing
  | ok | created | accepted | noContent | resetContent | partialContent | multiStatus
  | alreadyReported | imUsed
  | multipleChoices | movedPermanently | found | seeOther | notModified | useProxy
  | temporaryRedirect | permanentRedirect
  | badRequest | unauthorized | paymentRequired | forbidden | notFound | methodNotAllowed
  | notAcceptable | proxyAuthenticationRequired | requestTimeout | conflict | gone
  | lengthRequired | preconditionFailed | payloadTooLarge | uriTooLong | unsupportedMediaType
  | rangeNotSatisfiable | expectationFailed | imATeapot | misdirectedRequest
  | unprocessableEntity | locked | failedDependency | tooEarly | upgradeRequired
  | preconditionRequired | tooManyRequests | requestHeaderFieldsTooLarge
  | unavailableForLegalReasons
  | internalServerError | notImplemented | badGateway | serviceUnavailable | gatewayTimeout
  | httpVersionNotSupported | variantAlsoNegotiates | insufficientStorage | loopDetected
  | notExtended | networkAuthenticationRequired
deriving DecidableEq, Repr

namespace Status

/-- Every status, in ascending order of the codes. -/
def all : List Status :=
  [proceed, switchingProtocols, processing, ok, created, accepted, noContent, resetContent,
   partialContent, multiStatus, alreadyReported, imUsed, multipleChoices, movedPermanently,
   found, seeOther, notModified, useProxy, temporaryRedirect, permanentRedirect, badRequest,
   unauthorized, paymentRequired, forbidden, notFound, methodNotAllowed, notAcceptable,
   proxyAuthenticationRequired, requestTimeout, conflict, gone, lengthRequired,
   preconditionFailed, payloadTooLarge, uriTooLong, unsupportedMediaType, rangeNotSatisfiable,
   expectationFailed, imATeapot, misdirectedRequest, unprocessableEntity, locked,
   failedDependency, tooEarly, upgradeRequired, preconditionRequired, tooManyRequests,
   requestHeaderFieldsTooLarge, unavailableForLegalReasons, internalServerError,
   notImplemented, badGateway, serviceUnavailable, gatewayTimeout, httpVersionNotSupported,
   variantAlsoNegotiates, insufficientStorage, loopDetected, notExtended,
   networkAuthenticationRequired]

/-- The number of a status. -/
def code : Status → Nat
  | proceed => 100
  | switchingProtocols => 101
  | processing => 102
  | ok => 200
  | created => 201
  | accepted => 202
  | noContent => 204
  | resetContent => 205
  | partialContent => 206
  | multiStatus => 207
  | alreadyReported => 208
  | imUsed => 226
  | multipleChoices => 300
  | movedPermanently => 301
  | found => 302
  | seeOther => 303
  | notModified => 304
  | useProxy => 305
  | temporaryRedirect => 307
  | permanentRedirect => 308
  | badRequest => 400
  | unauthorized => 401
  | paymentRequired => 402
  | forbidden => 403
  | notFound => 404
  | methodNotAllowed => 405
  | notAcceptable => 406
  | proxyAuthenticationRequired => 407
  | requestTimeout => 408
  | conflict => 409
  | gone => 410
  | lengthRequired => 411
  | preconditionFailed => 412
  | payloadTooLarge => 413
  | uriTooLong => 414
  | unsupportedMediaType => 415
  | rangeNotSatisfiable => 416
  | expectationFailed => 417
  | imATeapot => 418
  | misdirectedRequest => 421
  | unprocessableEntity => 422
  | locked => 423
  | failedDependency => 424
  | tooEarly => 425
  | upgradeRequired => 426
  | preconditionRequired => 428
  | tooManyRequests => 429
  | requestHeaderFieldsTooLarge => 431
  | unavailableForLegalReasons => 451
  | internalServerError => 500
  | notImplemented => 501
  | badGateway => 502
  | serviceUnavailable => 503
  | gatewayTimeout => 504
  | httpVersionNotSupported => 505
  | variantAlsoNegotiates => 506
  | insufficientStorage => 507
  | loopDetected => 508
  | notExtended => 510
  | networkAuthenticationRequired => 511

/-- The phrase that goes with the number. -/
def reason : Status → String
  | proceed => "Continue"
  | switchingProtocols => "Switching Protocols"
  | processing => "Processing"
  | ok => "OK"
  | created => "Created"
  | accepted => "Accepted"
  | noContent => "No Content"
  | resetContent => "Reset Content"
  | partialContent => "Partial Content"
  | multiStatus => "Multi-Status"
  | alreadyReported => "Already Reported"
  | imUsed => "IM Used"
  | multipleChoices => "Multiple Choices"
  | movedPermanently => "Moved Permanently"
  | found => "Found"
  | seeOther => "See Other"
  | notModified => "Not Modified"
  | useProxy => "Use Proxy"
  | temporaryRedirect => "Temporary Redirect"
  | permanentRedirect => "Permanent Redirect"
  | badRequest => "Bad Request"
  | unauthorized => "Unauthorized"
  | paymentRequired => "Payment Required"
  | forbidden => "Forbidden"
  | notFound => "Not Found"
  | methodNotAllowed => "Method Not Allowed"
  | notAcceptable => "Not Acceptable"
  | proxyAuthenticationRequired => "Proxy Authentication Required"
  | requestTimeout => "Request Timeout"
  | conflict => "Conflict"
  | gone => "Gone"
  | lengthRequired => "Length Required"
  | preconditionFailed => "Precondition Failed"
  | payloadTooLarge => "Payload Too Large"
  | uriTooLong => "URI Too Long"
  | unsupportedMediaType => "Unsupported Media Type"
  | rangeNotSatisfiable => "Range Not Satisfiable"
  | expectationFailed => "Expectation Failed"
  | imATeapot => "I'm a teapot"
  | misdirectedRequest => "Misdirected Request"
  | unprocessableEntity => "Unprocessable Entity"
  | locked => "Locked"
  | failedDependency => "Failed Dependency"
  | tooEarly => "Too Early"
  | upgradeRequired => "Upgrade Required"
  | preconditionRequired => "Precondition Required"
  | tooManyRequests => "Too Many Requests"
  | requestHeaderFieldsTooLarge => "Request Header Fields Too Large"
  | unavailableForLegalReasons => "Unavailable For Legal Reasons"
  | internalServerError => "Internal Server Error"
  | notImplemented => "Not Implemented"
  | badGateway => "Bad Gateway"
  | serviceUnavailable => "Service Unavailable"
  | gatewayTimeout => "Gateway Timeout"
  | httpVersionNotSupported => "HTTP Version Not Supported"
  | variantAlsoNegotiates => "Variant Also Negotiates"
  | insufficientStorage => "Insufficient Storage"
  | loopDetected => "Loop Detected"
  | notExtended => "Not Extended"
  | networkAuthenticationRequired => "Network Authentication Required"

/-- The statuses that are registered, by their numbers. -/
def codes : Vocabulary Status Nat where
  all := all
  word := code
  found s := by cases s <;> decide

/-- The number and the phrase, as they stand in a status line. -/
def line (s : Status) : String :=
  Text.numeral s.code ++ " " ++ s.reason

/-- Codes of success are those from 200 to 299. -/
def isSuccess (s : Status) : Bool :=
  200 ≤ s.code && s.code < 300

/-- Codes from 400 to 499 say that the client is at fault. -/
def isClientError (s : Status) : Bool :=
  400 ≤ s.code && s.code < 500

/-- Codes from 500 to 599 say that the server is at fault. -/
def isServerError (s : Status) : Bool :=
  500 ≤ s.code && s.code < 600

/-- A word with a capital first letter, without apostrophes. -/
private def capitalise (word : List Char) : List Char :=
  match word.filter (· != '\'') with
  | [] => []
  | c :: rest => c.toUpper :: rest.map Char.toLower

/-- The reason phrase as one word, each part of it with a capital. -/
def label (s : Status) : String :=
  String.ofList ((Text.pieces (fun c => c = ' ' || c = '-') s.reason.toList).flatMap capitalise)

end Status

end SiteServer.Http
