import RaceSkeletons.Analyzer.PayloadReader
import RaceSkeletons.Render.Json

/-!
# Printing the verdict document

The document of a verdict has the fields in their order. A field that may be
null is left out when there is nothing in it.
-/

namespace RaceSkeletons.Payload

/-- The fields that are written, with their values. -/
def written (p : Payload) : List (PayloadField × Document) :=
  [(.file, .text p.file), (.hasWrite, .bool p.hasWrite)] ++
    (p.lineNumber.map fun n => (.lineNumber, .number n)).toList ++
    (p.lineContent.map fun line => (.lineContent, .text line)).toList ++
    (p.error.map fun message => (.error, .text message)).toList

def document (p : Payload) : Document :=
  .record (p.written.map fun field => (field.1.key, field.2))

/-- The text of the document. -/
def print (p : Payload) : String :=
  Json.renderCompact p.document

end RaceSkeletons.Payload
