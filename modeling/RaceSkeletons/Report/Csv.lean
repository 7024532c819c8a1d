import RaceSkeletons.Report.Row
import RaceSkeletons.Text.Utf8

/-!
# Comma-separated values

The report is a text of records, one per line. A cell that holds a comma, a
quote, a carriage return or a line feed is put between quotes, and a quote
within it is written twice; all other cells stand as they are.
-/

namespace RaceSkeletons

namespace Csv

/-- Whether a cell with this character is put between quotes. -/
def needsQuotes (c : Char) : Bool :=
  c == ',' || c == '"' || c == '\r' || c == '\n'

/-- The text with every quote written twice. -/
def doubleQuotes : List Char → List Char
  | [] => []
  | c :: rest => if c = '"' then '"' :: '"' :: doubleQuotes rest else c :: doubleQuotes rest

/-- How a cell is written. -/
def writeCell (cell : String) : List Char :=
  if cell.toList.any needsQuotes then '"' :: doubleQuotes cell.toList ++ ['"']
  else cell.toList

/-- How a record is written, without its line end. -/
def writeCells : List String → List Char
  | [] => []
  | [cell] => writeCell cell
  | cell :: next :: cells => writeCell cell ++ ',' :: writeCells (next :: cells)

/-- How records are written, each with its line end. -/
def writeRecords (records : List (List String)) : List Char :=
  records.flatMap fun record => writeCells record ++ ['\n']

end Csv

/-- The report as text: the columns, then one record per row. -/
def csvText (rows : List CaseRow) : String :=
  String.ofList (Csv.writeRecords (reportColumns :: rows.map CaseRow.record))

/-- The report as bytes. -/
def csvBytes (rows : List CaseRow) : Bytes :=
  Utf8.encode (csvText rows)

end RaceSkeletons
