import BlockCanvas.Bundle.Zip
import BlockCanvas.Digest
import BlockCanvas.Json.Parser
import BlockCanvas.Json.Printer
import BlockCanvas.Xml.Document
import BlockCanvas.Xml.Printer

/-!
The packages that the program is built on. Whatever reads or writes a format takes the package for it,
so that what is proved of it rests on what the package promises; the program runs with those of
`Library.standard`.
-/
namespace BlockCanvas

structure Library where
  json : Json.Codec
  xml : Xml.Codec
  zip : Zip.Codec
  digest : String → String

def Library.standard : Library where
  json := ⟨Json.parse?, Json.pretty⟩
  xml := ⟨Xml.parse?, Xml.renderDocument⟩
  zip := ⟨Zip.encode, Zip.decode?⟩
  digest := Digest.ofText

end BlockCanvas
