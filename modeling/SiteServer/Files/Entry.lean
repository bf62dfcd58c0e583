import SiteServer.Text.Utf8

/-!
# What a path leads to

To the server a file system is a function from paths to entries: nothing it does
depends on how a path is looked up, only on what is found there.  An entry is a
file with its contents, a directory, a file that opens but cannot be read to its
end, or nothing, with the reason.
-/

namespace SiteServer.Files

/-- Why a file cannot be looked up, opened or read. -/
inductive Fault where
  | notFound
  | notADirectory
  | isADirectory
  | tooManyLinks
  | nameTooLong
  | nulInName
  | permissionDenied
  | notText
  /-- Anything else, in the words of the system. -/
  | other (why : String)
deriving DecidableEq, Repr

/-- What is reported of a fault. -/
def Fault.message : Fault → String
  | notFound => "No such file or directory (os error 2)"
  | notADirectory => "Not a directory (os error 20)"
  | isADirectory => "Is a directory (os error 21)"
  | tooManyLinks => "Too many levels of symbolic links (os error 40)"
  | nameTooLong => "File name too long (os error 36)"
  | nulInName => "file name contained an unexpected NUL byte"
  | permissionDenied => "Permission denied (os error 13)"
  | notText => "stream did not contain valid UTF-8"
  | other why => why

/-- What a path leads to. -/
inductive Entry where
  | file (contents : Bytes)
  /-- A file that opens, and fails when it is read on behind its first bytes. -/
  | unreadable (first : Bytes) (why : Fault)
  | directory
  | absent (why : Fault)
deriving Repr

namespace Entry

/-- Whether the entry is a regular file, readable or not. -/
def isFile : Entry → Bool
  | file _ => true
  | unreadable .. => true
  | _ => false

/-- The whole contents. -/
def read : Entry → Except Fault Bytes
  | file contents => .ok contents
  | unreadable _ why => .error why
  | directory => .error .isADirectory
  | absent why => .error why

/-- The first bytes of the contents, at most `n`.  A file that fails behind them does
not fail yet. -/
def readPrefix : Entry → Nat → Except Fault Bytes
  | unreadable first why, n => if n ≤ first.length then .ok (first.take n) else .error why
  | e, n => e.read.map (·.take n)

/-- The contents as text. -/
def readText (e : Entry) : Except Fault (List Char) :=
  match e.read with
  | .error why => .error why
  | .ok contents =>
    match Text.Utf8.decode? contents with
    | some text => .ok text
    | none => .error .notText

end Entry

/-- Where files are found. -/
structure FileSystem where
  entry : String → Entry

/-- The file system without files. -/
def FileSystem.empty : FileSystem := ⟨fun _ => .absent .notFound⟩

end SiteServer.Files
