import SiteServer.Text.Blank
import SiteServer.Text.Case
import SiteServer.Text.Utf8

/-!
# Recognising contents

The type of a file with no telling name is read off its first bytes.  Most
formats are known by a signature, a few bytes at fixed places; the signatures
are tried in a fixed order and the first that fits decides.  Contents without a
signature are a page if they start, after blanks, like one; text if they are
UTF-8 without NUL, a last character that is cut short notwithstanding; and
plain bytes otherwise.
-/

namespace SiteServer.Media

/-- Bytes at fixed places that tell a format, and the name of its type. -/
structure Signature where
  name : String
  marks : List (Nat × Bytes)

/-- The bytes of an ASCII mark. -/
def ascii (mark : String) : Bytes :=
  mark.toList.map fun c => c.toNat.toUInt8

/-- Whether bytes stand at a place. -/
def standsAt (contents : Bytes) (mark : Nat × Bytes) : Bool :=
  mark.2.isPrefixOf (contents.drop mark.1)

/-- Whether every mark of a signature is in its place. -/
def Signature.fits (s : Signature) (contents : Bytes) : Bool :=
  s.marks.all (standsAt contents)

/-- The signatures, in the order in which they are tried. -/
def signatures : List Signature :=
  [⟨"image/png", [(0, [0x89, 0x50, 0x4E, 0x47, 0x0D, 0x0A, 0x1A, 0x0A])]⟩,
   ⟨"image/jpeg", [(0, [0xFF, 0xD8, 0xFF])]⟩,
   ⟨"image/gif", [(0, ascii "GIF87a")]⟩,
   ⟨"image/gif", [(0, ascii "GIF89a")]⟩,
   ⟨"image/webp", [(0, ascii "RIFF"), (8, ascii "WEBP")]⟩,
   ⟨"audio/wav", [(0, ascii "RIFF"), (8, ascii "WAVE")]⟩,
   ⟨"image/bmp", [(0, ascii "BM")]⟩,
   ⟨"image/x-icon", [(0, [0x00, 0x00, 0x01, 0x00])]⟩,
   ⟨"application/pdf", [(0, ascii "%PDF-")]⟩,
   ⟨"application/zip", [(0, [0x50, 0x4B, 0x03, 0x04])]⟩,
   ⟨"application/gzip", [(0, [0x1F, 0x8B])]⟩,
   ⟨"audio/ogg", [(0, ascii "OggS")]⟩,
   ⟨"video/mp4", [(4, ascii "ftyp")]⟩,
   ⟨"font/woff", [(0, ascii "wOFF")]⟩,
   ⟨"font/woff2", [(0, ascii "wOF2")]⟩]

/-- How a page starts, in lower case. -/
def pageStarts : List String := ["<!doctype html", "<html"]

/-- Whether contents start like a page, blanks before it and case aside. -/
def looksLikePage (contents : Bytes) : Bool :=
  let text := Text.fold (Text.trimStart (Text.Utf8.decodeLossy contents))
  pageStarts.any fun start => start.toList.isPrefixOf text

/-- Whether contents are text, or the beginning of a text. -/
def isText (contents : Bytes) : Bool :=
  !contents.contains 0 && Text.Utf8.isPartial contents

/-- The name of the type that contents show. -/
def recognise (contents : Bytes) : String :=
  match signatures.find? (·.fits contents) with
  | some s => s.name
  | none =>
    if looksLikePage contents then "text/html"
    else if isText contents then "text/plain"
    else "application/octet-stream"

end SiteServer.Media
