import RaceSkeletons.Proofs.Text.Utf8
import RaceSkeletons.Report.Csv

/-!
# Reading a report back

A reader of comma-separated values in the sense of RFC 4180: cells are
divided by commas, a cell between quotes may hold anything and has its
quotes doubled, and a record ends with a line feed, a carriage return, or
both. The reader is a machine that takes one character at a time; it knows
nothing of how reports are written.

It reads back whatever the writer has written, record by record and cell by
cell (`readText_writeRecords`). The argument follows the writer: a quoted text
is read up to its closing quote, then a cell with the separator behind it,
then a record, then all records.
-/

namespace RaceSkeletons.Csv

/-! ## The reader -/

/-- Where in a report the reader is. -/
inductive Place where
  /-- Before a record. `afterReturn` is set behind a carriage return, whose
  line feed may still come. -/
  | record (afterReturn : Bool)
  /-- Before a cell that is not the first of its record. -/
  | cell
  /-- Within a cell without quotes. -/
  | plain
  /-- Between the quotes of a cell. -/
  | quoted
  /-- Behind a quote in a quoted cell: the closing one, or the first of two. -/
  | closed
  deriving Repr, DecidableEq

/-- What has been read. -/
structure Reader where
  records : List (List String) := []
  /-- The finished cells of the current record. -/
  cells : List String := []
  /-- What has been read of the current cell. -/
  text : List Char := []
  place : Place := .record false
  deriving Repr, DecidableEq

namespace Reader

/-- Adds characters to the current cell. -/
def add (r : Reader) (cs : List Char) : Reader :=
  { r with text := r.text ++ cs }

/-- Goes to another place. -/
def goTo (r : Reader) (p : Place) : Reader :=
  { r with place := p }

/-- Finishes the current cell. -/
def endCell (r : Reader) : Reader :=
  { r with cells := r.cells ++ [String.ofList r.text], text := [], place := .cell }

/-- Finishes the current record with its last cell. -/
def endRecord (r : Reader) (afterReturn : Bool) : Reader :=
  { records := r.records ++ [r.cells ++ [String.ofList r.text]], place := .record afterReturn }

/-- What a character does that ends a cell; none for any other character. -/
def ending? (r : Reader) (c : Char) : Option Reader :=
  if c = ',' then some r.endCell
  else if c = '\n' then some (r.endRecord false)
  else if c = '\r' then some (r.endRecord true)
  else none

/-- Reads the first character of a cell. -/
def openCell (r : Reader) (c : Char) : Reader :=
  if c = '"' then r.goTo .quoted
  else (r.ending? c).getD ((r.add [c]).goTo .plain)

/-- Reads one character; none when it cannot stand there. -/
def step (r : Reader) (c : Char) : Option Reader :=
  match r.place with
  | .record afterReturn =>
    if afterReturn ∧ c = '\n' then some (r.goTo (.record false)) else some (r.openCell c)
  | .cell => some (r.openCell c)
  | .plain => if c = '"' then none else some ((r.ending? c).getD (r.add [c]))
  | .quoted => some (if c = '"' then r.goTo .closed else r.add [c])
  | .closed => if c = '"' then some ((r.add [c]).goTo .quoted) else r.ending? c

/-- The records, when the text ends here. The last record needs no line end. -/
def finish (r : Reader) : Option (List (List String)) :=
  match r.place with
  | .record _ => some r.records
  | .quoted => none
  | _ => some (r.endRecord false).records

end Reader

/-- The records of a text. -/
def readText (text : List Char) : Option (List (List String)) :=
  (text.foldlM Reader.step {}).bind Reader.finish

/-- The records of a file. -/
def read (bytes : Bytes) : Option (List (List String)) :=
  (Utf8.decode? bytes).bind fun text => readText text.toList

namespace Reader

@[simp] theorem add_nil (r : Reader) : r.add [] = r := by simp [add]

@[simp] theorem add_add (r : Reader) (cs ds : List Char) :
    (r.add cs).add ds = r.add (cs ++ ds) := by simp [add]

@[simp] theorem add_place (r : Reader) (cs : List Char) : (r.add cs).place = r.place := rfl

@[simp] theorem goTo_place (r : Reader) (p : Place) : (r.goTo p).place = p := rfl

@[simp] theorem goTo_goTo (r : Reader) (p q : Place) : (r.goTo p).goTo q = r.goTo q := rfl

@[simp] theorem goTo_add (r : Reader) (p : Place) (cs : List Char) :
    (r.goTo p).add cs = (r.add cs).goTo p := rfl

/-- What ends a cell does not look at where the reader is. -/
@[simp] theorem goTo_ending? (r : Reader) (p : Place) (c : Char) :
    (r.goTo p).ending? c = r.ending? c := rfl

/-! ## Cells -/

/-- Whether the reader is where a cell may start. -/
def IsFresh (r : Reader) : Prop :=
  r.place = .cell ∨ r.place = .record false

theorem step_fresh {r : Reader} (hr : r.IsFresh) (c : Char) : r.step c = some (r.openCell c) := by
  rcases hr with hp | hp <;> simp [step, hp]

/-- Only a comma, a line feed and a carriage return end a cell. -/
theorem ending?_eq_none {r : Reader} {c : Char} (hc : needsQuotes c = false) :
    r.ending? c = none := by
  simp only [needsQuotes, Bool.or_eq_false_iff, beq_eq_false_iff_ne] at hc
  simp [ending?, hc]

theorem ne_quote {c : Char} (hc : needsQuotes c = false) : c ≠ '"' := by
  rintro rfl
  simp [needsQuotes] at hc

/-- A text with its quotes doubled is read up to the closing quote. -/
theorem foldlM_doubleQuotes (cs : List Char) : ∀ r : Reader,
    (doubleQuotes cs).foldlM step (r.goTo .quoted) = some ((r.add cs).goTo .quoted) := by
  induction cs with
  | nil =>
      intro r
      simp [doubleQuotes]
  | cons c cs ih =>
      intro r
      by_cases hc : c = '"'
      · -- Two quotes: the first seems to close the cell, the second opens it again.
        have hpair : (r.goTo .quoted).step '"' = some (r.goTo .closed)
            ∧ (r.goTo .closed).step '"' = some ((r.add [c]).goTo .quoted) := by
          simp [step, hc]
        rw [doubleQuotes, if_pos hc, List.foldlM_cons, hpair.1]
        simp only [Option.bind_eq_bind, Option.bind_some, List.foldlM_cons, hpair.2]
        rw [ih, add_add, List.singleton_append]
      · have hstep : (r.goTo .quoted).step c = some ((r.add [c]).goTo .quoted) := by
          simp [step, hc]
        rw [doubleQuotes, if_neg hc, List.foldlM_cons, hstep]
        simp only [Option.bind_eq_bind, Option.bind_some]
        rw [ih, add_add, List.singleton_append]

/-- A text without special characters is read as it stands. -/
theorem foldlM_plain (cs : List Char) : ∀ r : Reader, (∀ c ∈ cs, needsQuotes c = false) →
    cs.foldlM step (r.goTo .plain) = some ((r.add cs).goTo .plain) := by
  induction cs with
  | nil =>
      intro r _
      simp
  | cons c cs ih =>
      intro r hcs
      have hc := hcs c (List.mem_cons_self ..)
      have hstep : (r.goTo .plain).step c = some ((r.add [c]).goTo .plain) := by
        simp [step, ne_quote hc, ending?_eq_none hc]
      rw [List.foldlM_cons, hstep]
      simp only [Option.bind_eq_bind, Option.bind_some]
      rw [ih _ fun d hd => hcs d (List.mem_cons_of_mem _ hd), add_add, List.singleton_append]

/-- A written cell is read with the character behind it, if that ends a cell. -/
theorem foldlM_writeCell {r s : Reader} (hr : r.IsFresh) (cell : String) {c : Char}
    (hc : (r.add cell.toList).ending? c = some s) :
    (writeCell cell ++ [c]).foldlM step r = some s := by
  have hq : c ≠ '"' := by
    rintro rfl
    simp [ending?] at hc
  rw [writeCell]
  split
  · -- Between quotes: open, read up to the closing quote, and end the cell.
    have hopen : r.step '"' = some (r.goTo .quoted) := by simp [step_fresh hr, openCell]
    have hclose : ((r.add cell.toList).goTo .quoted).step '"'
        = some ((r.add cell.toList).goTo .closed) := by simp [step]
    have hend : ((r.add cell.toList).goTo .closed).step c = some s := by simp [step, hq, hc]
    simp [hopen, foldlM_doubleQuotes, hclose, hend]
  · next hplain =>
    have hall : ∀ d ∈ cell.toList, needsQuotes d = false := by
      simpa using hplain
    cases hcell : cell.toList with
    | nil =>
        have hend : r.step c = some s := by
          rw [hcell, add_nil] at hc
          simp [step_fresh hr, openCell, hq, hc]
        simp [hend]
    | cons d ds =>
        rw [hcell] at hc hall
        have hd := hall d (List.mem_cons_self ..)
        have hopen : r.step d = some ((r.add [d]).goTo .plain) := by
          simp [step_fresh hr, openCell, ne_quote hd, ending?_eq_none hd]
        have hend : ((r.add (d :: ds)).goTo .plain).step c = some s := by
          simp [step, hq, hc]
        simp [hopen, foldlM_plain ds _ fun e he => hall e (List.mem_cons_of_mem _ he), hend]

/-! ## Records -/

/-- A written record is read with its line end. -/
theorem foldlM_writeCells : ∀ (cells : List String) (r : Reader), cells ≠ [] → r.IsFresh →
    r.text = [] → (writeCells cells ++ ['\n']).foldlM step r =
      some { records := r.records ++ [r.cells ++ cells] }
  | [], _, hne, _, _ => absurd rfl hne
  | [cell], r, _, hr, ht => by
      have hc : (r.add cell.toList).ending? '\n' =
          some { records := r.records ++ [r.cells ++ [cell]] } := by
        simp [ending?, endRecord, add, ht]
      exact foldlM_writeCell hr cell hc
  | cell :: next :: cells, r, _, hr, ht => by
      have hc : (r.add cell.toList).ending? ',' = some (r.add cell.toList).endCell := rfl
      have hsplit : writeCells (cell :: next :: cells) ++ ['\n'] =
          (writeCell cell ++ [',']) ++ (writeCells (next :: cells) ++ ['\n']) := by
        simp [writeCells]
      have hrest := foldlM_writeCells (next :: cells) (r.add cell.toList).endCell
        (List.cons_ne_nil _ _) (Or.inl rfl) rfl
      rw [hsplit, List.foldlM_append, foldlM_writeCell hr cell hc]
      simp only [Option.bind_eq_bind, Option.bind_some, hrest]
      simp [endCell, add, ht]

theorem foldlM_writeRecords (records : List (List String)) : ∀ done : List (List String),
    (∀ record ∈ records, record ≠ []) →
    (writeRecords records).foldlM step { records := done } =
      some { records := done ++ records } := by
  induction records with
  | nil =>
      intro done _
      simp [writeRecords]
  | cons record records ih =>
      intro done hne
      have hhead : (writeCells record ++ ['\n']).foldlM step { records := done } =
          some { records := done ++ [record] } :=
        foldlM_writeCells record _ (hne record (List.mem_cons_self ..)) (Or.inr rfl) rfl
      rw [writeRecords, List.flatMap_cons, List.foldlM_append, hhead]
      simp only [Option.bind_eq_bind, Option.bind_some]
      exact (ih (done ++ [record]) fun x hx => hne x (List.mem_cons_of_mem _ hx)).trans
        (by rw [List.append_assoc, List.singleton_append])

end Reader

/-- The reader gives back the records that were written. -/
theorem readText_writeRecords {records : List (List String)}
    (hne : ∀ record ∈ records, record ≠ []) : readText (writeRecords records) = some records := by
  rw [readText, Reader.foldlM_writeRecords records [] hne]
  rfl

end RaceSkeletons.Csv

namespace RaceSkeletons

/-- A report file holds the columns and the record of every row, in order. -/
theorem read_csvBytes (rows : List CaseRow) :
    Csv.read (csvBytes rows) = some (reportColumns :: rows.map CaseRow.record) := by
  have hne : ∀ record ∈ reportColumns :: rows.map CaseRow.record, record ≠ [] := by
    intro record hr
    rcases List.mem_cons.mp hr with rfl | hr
    · exact List.cons_ne_nil _ _
    · obtain ⟨row, -, rfl⟩ := List.mem_map.mp hr
      exact List.cons_ne_nil _ _
  rw [Csv.read, csvBytes, Utf8.decode?_encode, Option.bind_some, csvText, String.toList_ofList]
  exact Csv.readText_writeRecords hne

end RaceSkeletons
