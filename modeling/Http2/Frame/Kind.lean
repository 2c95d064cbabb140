import Http2.Bytes

/-!
# Frame kinds and flags

The kind of a frame is one byte on the wire. Ten codes have a name; every other code is an unknown
kind, which a receiver ignores. The same flag bit may mean different things on different kinds.
-/

namespace Http2

/-- The kind of a frame. -/
inductive FrameKind where
  | data
  | headers
  | priority
  | rstStream
  | settings
  | pushPromise
  | ping
  | goAway
  | windowUpdate
  | continuation
  | unknown (code : UInt8)
  deriving DecidableEq, Repr, Inhabited

namespace FrameKind

/-- The byte that stands for a kind on the wire. -/
def code : FrameKind → UInt8
  | data => 0
  | headers => 1
  | priority => 2
  | rstStream => 3
  | settings => 4
  | pushPromise => 5
  | ping => 6
  | goAway => 7
  | windowUpdate => 8
  | continuation => 9
  | unknown code => code

/-- The kind that a byte on the wire stands for. -/
def ofCode (code : UInt8) : FrameKind :=
  if code = 0 then data
  else if code = 1 then headers
  else if code = 2 then priority
  else if code = 3 then rstStream
  else if code = 4 then settings
  else if code = 5 then pushPromise
  else if code = 6 then ping
  else if code = 7 then goAway
  else if code = 8 then windowUpdate
  else if code = 9 then continuation
  else unknown code

/-- Kinds that only ever apply to the connection as a whole. -/
def isConnectionLevel : FrameKind → Bool
  | settings | ping | goAway => true
  | _ => false

/-- Kinds that open or continue a header block. -/
def carriesHeaderBlock : FrameKind → Bool
  | headers | pushPromise | continuation => true
  | _ => false

/-- Kinds whose payload may be padded. -/
def isPaddable : FrameKind → Bool
  | data | headers | pushPromise => true
  | _ => false

/-- Kinds that a receiver does not know and drops. -/
def isUnknown : FrameKind → Bool
  | unknown _ => true
  | _ => false

/-- The name of a kind, as it appears in messages. -/
def name : FrameKind → String
  | data => "Data"
  | headers => "Headers"
  | priority => "Priority"
  | rstStream => "RstStream"
  | settings => "Settings"
  | pushPromise => "PushPromise"
  | ping => "Ping"
  | goAway => "GoAway"
  | windowUpdate => "WindowUpdate"
  | continuation => "Continuation"
  | unknown code => "Unknown(" ++ toString code.toNat ++ ")"

/-- Every byte is the code of the kind read from it. -/
@[simp] theorem code_ofCode (c : UInt8) : (ofCode c).code = c := by
  unfold ofCode
  repeat' split
  all_goals simp_all [code]

end FrameKind

/-! ## Flag bits -/

namespace Flag

/-- Last frame of the stream in this direction (DATA and HEADERS only). -/
def endStream : UInt8 := 0x1

/-- Last frame of a header block. -/
def endHeaders : UInt8 := 0x4

/-- The payload starts with a pad length and ends with that much padding. -/
def padded : UInt8 := 0x8

/-- A HEADERS payload starts with five bytes of priority data. -/
def priority : UInt8 := 0x20

/-- Whether a flag byte shares a bit with a mask. -/
def has (flags mask : UInt8) : Bool :=
  flags &&& mask != 0

end Flag

end Http2
