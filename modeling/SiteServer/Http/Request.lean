import SiteServer.Http.Headers
import SiteServer.Http.Word

/-!
# Requests

A request as the rest of the server sees it.  Host, user agent and platform have
fields of their own; every other header is in the map.
-/

namespace SiteServer.Http

/-- A request that was read. -/
structure Request where
  method : Method
  version : Version
  path : String
  host : String := ""
  userAgent : String := ""
  platform : Platform := .unknown
  headers : Headers := .empty
  body : Bytes := []

/-- Why a buffer is not a request. -/
inductive RequestError where
  /-- The head is empty or blank. -/
  | empty
  /-- The first line has fewer than three words. -/
  | incompleteLine
  | unknownMethod (word : String)
  | unknownVersion (word : String)
  | unknownPlatform (hint : String)
  | duplicateHeader (e : DuplicateHeader)
deriving DecidableEq, Repr

/-- What is reported of a buffer that is not a request. -/
def RequestError.message : RequestError → String
  | empty => "empty request"
  | incompleteLine => "invalid request line"
  | unknownMethod word => "invalid method: " ++ word
  | unknownVersion word => "invalid HTTP version: " ++ word
  | unknownPlatform hint => "invalid client platform: " ++ hint
  | duplicateHeader e => e.message

end SiteServer.Http
