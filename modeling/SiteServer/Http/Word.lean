import SiteServer.Vocabulary

/-!
# The words of a request line and of the platform hint

A request names a method and a version of the protocol, and may hint at the
platform of its client.  Each of the three is a closed set of words; a word is
read exactly as it is written, case included.
-/

namespace SiteServer.Http

/-- What a request asks to be done. -/
inductive Method where
  | get | post | put | patch | delete | head | options
deriving DecidableEq, Repr, Inhabited

namespace Method

/-- The words of the methods. -/
def words : Vocabulary Method String where
  all := [get, post, put, patch, delete, head, options]
  word
    | get => "GET"
    | post => "POST"
    | put => "PUT"
    | patch => "PATCH"
    | delete => "DELETE"
    | head => "HEAD"
    | options => "OPTIONS"
  found m := by cases m <;> decide

/-- The word of a method. -/
abbrev token : Method → String := words.word

end Method

/-- The versions of the protocol that a request may declare.  Version 2.0 is
accepted as a label only. -/
inductive Version where
  | http10 | http11 | http20
deriving DecidableEq, Repr, Inhabited

namespace Version

/-- The words of the versions. -/
def words : Vocabulary Version String where
  all := [http10, http11, http20]
  word
    | http10 => "HTTP/1.0"
    | http11 => "HTTP/1.1"
    | http20 => "HTTP/2.0"
  found v := by cases v <;> decide

/-- The word of a version. -/
abbrev token : Version → String := words.word

end Version

/-- The platform that a client says it runs on; unknown if it says nothing. -/
inductive Platform where
  | windows | macOS | linux | android | iOS | chromeOS | unknown
deriving DecidableEq, Repr, Inhabited

namespace Platform

/-- The words of the platforms. -/
def words : Vocabulary Platform String where
  all := [windows, macOS, linux, android, iOS, chromeOS, unknown]
  word
    | windows => "Windows"
    | macOS => "macOS"
    | linux => "Linux"
    | android => "Android"
    | iOS => "iOS"
    | chromeOS => "ChromeOS"
    | unknown => "Unknown"
  found p := by cases p <;> decide

/-- The word of a platform. -/
abbrev token : Platform → String := words.word

end Platform

end SiteServer.Http
