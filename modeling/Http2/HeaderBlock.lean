import Http2.Text.Quoted
import Http2.Text.Utf8

/-!
# Header blocks

A header block is plain text: one record `name=value` per field, each ended by CR LF. The name ends
at the first equals sign. Reading never fails: a record without an equals sign is skipped, and the
last record may lack its line end. Writing refuses what could not be read back.
-/

namespace Http2

/-- One field of a header list. -/
structure Field where
  name : String
  value : String
  deriving DecidableEq, Repr

/-- Why a field cannot be written. Both carry the name of the field. -/
inductive FieldError where
  /-- The name holds an equals sign, CR or LF. -/
  | invalidName (name : String)
  /-- The value holds CR or LF. -/
  | invalidValue (name : String)
  deriving DecidableEq, Repr

/-- The text of a refused field. -/
def FieldError.message : FieldError → String
  | invalidName name => "header name " ++ Text.quoted name ++ " contains '=', CR or LF"
  | invalidValue name => "value of header " ++ Text.quoted name ++ " contains CR or LF"

/-- Carriage return. -/
def cr : UInt8 := 13

/-- Line feed. -/
def lf : UInt8 := 10

/-- The byte between name and value. -/
def equalsSign : UInt8 := 61

namespace Field

/-- What is wrong with a field, the name first. -/
def fault? (f : Field) : Option FieldError :=
  if f.name.toList.any fun c => c == '=' || c == '\r' || c == '\n' then
    some (.invalidName f.name)
  else if f.value.toList.any fun c => c == '\r' || c == '\n' then
    some (.invalidValue f.name)
  else
    none

/-- The record of a field, line end included. -/
def record (f : Field) : Bytes :=
  Utf8.encode f.name ++ equalsSign :: (Utf8.encode f.value ++ [cr, lf])

/-- The field of a record without its line end. -/
def ofRecord? (record : Bytes) : Option Field :=
  match record.dropWhile (· != equalsSign) with
  | [] => none
  | _ :: value =>
    some {
      name := Utf8.decode (record.takeWhile (· != equalsSign))
      value := Utf8.decode value }

/-- A field shown by its name and value. -/
def describe (f : Field) : String :=
  Text.describe "H2Header" [("name", Text.quoted f.name), ("value", Text.quoted f.value)]

end Field

namespace HeaderBlock

/-- A block read up to some byte. Records, and the bytes of the record under way, are kept newest
first. -/
structure Scan where
  records : List Bytes := []
  current : Bytes := []
  deriving DecidableEq, Repr

namespace Scan

/-- Takes one byte; an LF right after a CR ends the record. -/
def push (s : Scan) (byte : UInt8) : Scan :=
  match s.current with
  | last :: rest =>
    if byte = lf ∧ last = cr then { records := rest.reverse :: s.records, current := [] }
    else { s with current := byte :: s.current }
  | [] => { s with current := [byte] }

/-- All records in order, the one under way last. -/
def finish (s : Scan) : List Bytes :=
  (s.current.reverse :: s.records).reverse

end Scan

/-- The parts of a block between its line ends. -/
def records (block : Bytes) : List Bytes :=
  (block.foldl Scan.push {}).finish

/-- The fields of a block. -/
def decode (block : Bytes) : List Field :=
  (records block).filterMap Field.ofRecord?

/-- The block of a header list, or what is wrong with the first bad field. -/
def encode? (fields : List Field) : Except FieldError Bytes :=
  match fields.findSome? Field.fault? with
  | some fault => .error fault
  | none => .ok (fields.flatMap Field.record)

end HeaderBlock

end Http2
