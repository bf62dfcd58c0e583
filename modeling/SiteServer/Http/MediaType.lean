import SiteServer.Text.Blank
import SiteServer.Text.Case

/-!
# Media types

The media types that the server can declare for what it sends.  Each has one
canonical name.  A name is read without regard to the case of ASCII letters, to
blanks around it and to parameters after a semicolon.
-/

namespace SiteServer.Http

/-- The kind of content of a response. -/
inductive MediaType where
  | textPlain | textHtml | textCss | textJavaScript | textXml | textCsv
  | applicationJson | applicationXml | applicationXhtmlXml | applicationJavaScript
  | applicationOctetStream | applicationFormUrlencoded | applicationPdf | applicationZip
  | applicationGzip | applicationSql | applicationRtf | applicationMsPowerPoint
  | applicationMsExcel | applicationMsWord | applicationOpenDocumentText
  | applicationOpenDocumentSpreadsheet
  | imageJpeg | imagePng | imageGif | imageBmp | imageWebp | imageSvgXml | imageTiff
  | imageHeic | imageXIcon
  | audioMpeg | audioOgg | audioWav
  | videoMp4 | videoMpeg | videoOgg | videoWebm
  | multipartFormData | multipartByteranges
  | fontTtf | fontWoff | fontWoff2 | fontOtf
deriving DecidableEq, Repr

/-- A name that no media type has. -/
structure UnknownMediaType where
  name : String
deriving DecidableEq, Repr

/-- What is reported of a name that no media type has. -/
def UnknownMediaType.message (e : UnknownMediaType) : String :=
  "unknown content type: " ++ e.name

namespace MediaType

/-- Every media type. -/
def all : List MediaType :=
  [textPlain, textHtml, textCss, textJavaScript, textXml, textCsv, applicationJson,
   applicationXml, applicationXhtmlXml, applicationJavaScript, applicationOctetStream,
   applicationFormUrlencoded, applicationPdf, applicationZip, applicationGzip, applicationSql,
   applicationRtf, applicationMsPowerPoint, applicationMsExcel, applicationMsWord,
   applicationOpenDocumentText, applicationOpenDocumentSpreadsheet, imageJpeg, imagePng,
   imageGif, imageBmp, imageWebp, imageSvgXml, imageTiff, imageHeic, imageXIcon, audioMpeg,
   audioOgg, audioWav, videoMp4, videoMpeg, videoOgg, videoWebm, multipartFormData,
   multipartByteranges, fontTtf, fontWoff, fontWoff2, fontOtf]

/-- The canonical name. -/
def name : MediaType → String
  | textPlain => "text/plain"
  | textHtml => "text/html"
  | textCss => "text/css"
  | textJavaScript => "text/javascript"
  | textXml => "text/xml"
  | textCsv => "text/csv"
  | applicationJson => "application/json"
  | applicationXml => "application/xml"
  | applicationXhtmlXml => "application/xhtml+xml"
  | applicationJavaScript => "application/javascript"
  | applicationOctetStream => "application/octet-stream"
  | applicationFormUrlencoded => "application/x-www-form-urlencoded"
  | applicationPdf => "application/pdf"
  | applicationZip => "application/zip"
  | applicationGzip => "application/gzip"
  | applicationSql => "application/sql"
  | applicationRtf => "application/rtf"
  | applicationMsPowerPoint => "application/vnd.ms-powerpoint"
  | applicationMsExcel => "application/vnd.ms-excel"
  | applicationMsWord => "application/msword"
  | applicationOpenDocumentText => "application/vnd.oasis.opendocument.text"
  | applicationOpenDocumentSpreadsheet => "application/vnd.oasis.opendocument.spreadsheet"
  | imageJpeg => "image/jpeg"
  | imagePng => "image/png"
  | imageGif => "image/gif"
  | imageBmp => "image/bmp"
  | imageWebp => "image/webp"
  | imageSvgXml => "image/svg+xml"
  | imageTiff => "image/tiff"
  | imageHeic => "image/heic"
  | imageXIcon => "image/x-icon"
  | audioMpeg => "audio/mpeg"
  | audioOgg => "audio/ogg"
  | audioWav => "audio/wav"
  | videoMp4 => "video/mp4"
  | videoMpeg => "video/mpeg"
  | videoOgg => "video/ogg"
  | videoWebm => "video/webm"
  | multipartFormData => "multipart/form-data"
  | multipartByteranges => "multipart/byteranges"
  | fontTtf => "font/ttf"
  | fontWoff => "font/woff"
  | fontWoff2 => "font/woff2"
  | fontOtf => "font/otf"

/-- The canonical name written as one word. -/
def label : MediaType → String
  | textPlain => "TextPlain"
  | textHtml => "TextHtml"
  | textCss => "TextCss"
  | textJavaScript => "TextJavaScript"
  | textXml => "TextXml"
  | textCsv => "TextCsv"
  | applicationJson => "ApplicationJson"
  | applicationXml => "ApplicationXml"
  | applicationXhtmlXml => "ApplicationXhtmlXml"
  | applicationJavaScript => "ApplicationJavaScript"
  | applicationOctetStream => "ApplicationOctetStream"
  | applicationFormUrlencoded => "ApplicationFormUrlencoded"
  | applicationPdf => "ApplicationPdf"
  | applicationZip => "ApplicationZip"
  | applicationGzip => "ApplicationGzip"
  | applicationSql => "ApplicationSql"
  | applicationRtf => "ApplicationRtf"
  | applicationMsPowerPoint => "ApplicationMsPowerPoint"
  | applicationMsExcel => "ApplicationMsExcel"
  | applicationMsWord => "ApplicationMsWord"
  | applicationOpenDocumentText => "ApplicationOpenDocumentText"
  | applicationOpenDocumentSpreadsheet => "ApplicationOpenDocumentSpreadsheet"
  | imageJpeg => "ImageJpeg"
  | imagePng => "ImagePng"
  | imageGif => "ImageGif"
  | imageBmp => "ImageBmp"
  | imageWebp => "ImageWebp"
  | imageSvgXml => "ImageSvgXml"
  | imageTiff => "ImageTiff"
  | imageHeic => "ImageHeic"
  | imageXIcon => "ImageXIcon"
  | audioMpeg => "AudioMpeg"
  | audioOgg => "AudioOgg"
  | audioWav => "AudioWav"
  | videoMp4 => "VideoMp4"
  | videoMpeg => "VideoMpeg"
  | videoOgg => "VideoOgg"
  | videoWebm => "VideoWebm"
  | multipartFormData => "MultipartFormData"
  | multipartByteranges => "MultipartByteranges"
  | fontTtf => "FontTtf"
  | fontWoff => "FontWoff"
  | fontWoff2 => "FontWoff2"
  | fontOtf => "FontOtf"

/-- The part of a name before its parameters, without blanks around it. -/
def essence (text : String) : List Char :=
  Text.trim (Text.breakAt (· = ';') text.toList).1

/-- The media type with a name, if the server knows it. -/
def parse? (text : String) : Option MediaType :=
  all.find? fun t => Text.fold t.name.toList = Text.fold (essence text)

/-- Reads a name; one that the server does not know is reported as it stands. -/
def parse (text : String) : Except UnknownMediaType MediaType :=
  match parse? text with
  | some t => .ok t
  | none => .error ⟨text⟩

/-- Whether the content is text. -/
def isText (t : MediaType) : Bool :=
  "text/".toList.isPrefixOf t.name.toList

theorem mem_all (t : MediaType) : t ∈ all := by cases t <;> decide

end MediaType

end SiteServer.Http
