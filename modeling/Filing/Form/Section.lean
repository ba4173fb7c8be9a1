import Filing.Form.Field

/-!
# Sections

A template is a list of sections. A static section has fields of its own; a dynamic one has a table,
whose rows all have the fields of its row template. The rows of a table are numbered separately in
the form and in the printed report, each from its own first row.
-/

namespace Filing

/-- Where the rows of a table begin in its two renderings. -/
structure RowOffsets where
  /-- The first row in the form. -/
  template : Nat := 0
  /-- The first row in the printed report. -/
  report : Nat := 0
deriving DecidableEq, Repr

/-- The numbers of the row with an ordinal, counted from 1, in the two renderings. -/
def RowOffsets.forRow (offsets : RowOffsets) (ordinal : Nat) : Nat × Nat :=
  (offsets.template + (ordinal - 1), offsets.report + (ordinal - 1))

/-- A table of rows. -/
structure Table where
  /-- The largest number of rows; 0 sets no bound. -/
  maxRows : Nat
  /-- The name under which rows are submitted. -/
  id : String
  /-- The path of the element that holds the rows. -/
  path : String
  /-- Where the rows begin. -/
  offsets : RowOffsets
  /-- The fields of each row, with paths inside the row. -/
  rowTemplate : List Field
deriving DecidableEq

/-- There are more rows than the table admits. -/
def Table.isExceededBy (t : Table) (count : Nat) : Bool := t.maxRows != 0 && t.maxRows < count

/-- What a section holds. -/
inductive Content where
  /-- Fields that occur once. -/
  | static (cells : List Field)
  /-- A table. -/
  | dynamic (table : Table)
deriving DecidableEq

/-- A section of a template. -/
structure Section where
  /-- The name of the section. -/
  id : String
  /-- What it holds. -/
  content : Content
deriving DecidableEq

namespace Section

/-- The table of a dynamic section. -/
def table? (s : Section) : Option Table :=
  match s.content with
  | .static _ => none
  | .dynamic t => some t

/-- The section has a table. -/
def isDynamic (s : Section) : Bool := s.table?.isSome

/-- The fields of the section, those of its row template if it is dynamic. -/
def fields (s : Section) : List Field :=
  match s.content with
  | .static cells => cells
  | .dynamic t => t.rowTemplate

end Section

end Filing
