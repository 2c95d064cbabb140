import Http2.HeaderBlock

/-!
# Requests

A request is a header list, optional data of the application, and whether a body follows. It is built
up field by field; the order of the fields is the order in which they were added.
-/

namespace Http2

/-- A request to be sent on a new stream. -/
structure Request (δ : Type) where
  fields : List Field := []
  userData : Option δ := none
  /-- Whether body bytes are pulled from the application after the headers. -/
  hasBody : Bool := true

namespace Request

variable {δ : Type}

/-- Adds one field at the end. -/
def addField (r : Request δ) (name value : String) : Request δ :=
  { r with fields := r.fields ++ [{ name, value }] }

/-- Adds fields at the end. -/
def addFields (r : Request δ) (fields : List Field) : Request δ :=
  { r with fields := r.fields ++ fields }

/-- Attaches data for the stream of the request. -/
def withUserData (r : Request δ) (value : δ) : Request δ :=
  { r with userData := some value }

/-- Makes the headers end the request. -/
def withoutBody (r : Request δ) : Request δ :=
  { r with hasBody := false }

/-- A request shown by its fields. -/
def describe (r : Request δ) : String :=
  Text.describe "Request" [
    ("headers", Text.listing (r.fields.map Field.describe)),
    ("user_data", Text.word r.userData.isSome),
    ("has_body", Text.word r.hasBody)]

end Request

end Http2
