import Http2.Frame.Kind

/-!
# Faults of the framing layer

A `FrameError` is fatal to the connection that received the frame. A `Frame.Misuse` is a request
that the frame API refuses: no frame with the asked-for shape exists.
-/

namespace Http2

/-- A fault in received frame bytes. -/
inductive FrameError where
  /-- Fewer bytes than a frame header. -/
  | tooShort (length : Nat)
  /-- The declared length is not the number of payload bytes. -/
  | lengthMismatch (declared actual : Nat)
  /-- The declared length is above the limit. -/
  | tooLarge (length limit : Nat)
  /-- The pad length is missing or larger than what follows it. -/
  | invalidPadding (kind : FrameKind)
  /-- Fewer bytes than the priority data that the flags announce. -/
  | invalidPriority (kind : FrameKind)
  /-- A frame that belongs to a stream came for stream 0. -/
  | streamZero (kind : FrameKind)
  deriving DecidableEq, Repr

/-- The text of a framing fault. -/
def FrameError.message : FrameError → String
  | tooShort length =>
    "frame region is " ++ toString length ++ " bytes, shorter than the 9-byte header"
  | lengthMismatch declared actual =>
    "frame declares " ++ toString declared ++ " payload bytes but carries " ++ toString actual
  | tooLarge length limit =>
    "frame of " ++ toString length ++ " bytes exceeds max frame size " ++ toString limit
  | invalidPadding kind => "invalid padding length in " ++ kind.name ++ " frame"
  | invalidPriority kind => kind.name ++ " frame with insufficient priority data"
  | streamZero kind => kind.name ++ " frame must not be sent on stream 0"

/-- A use of the frame API that no frame satisfies. -/
inductive Frame.Misuse where
  /-- A header whose length does not fit its three bytes. -/
  | headerLengthTooLarge
  /-- A payload whose length does not fit three bytes. -/
  | payloadTooLarge
  /-- A new length above the number of payload bytes. -/
  | beyondCapacity (length capacity : Nat)
  deriving DecidableEq, Repr

/-- The text of a refused use. -/
def Frame.Misuse.message : Frame.Misuse → String
  | headerLengthTooLarge => "frame length exceeds 24 bits"
  | payloadTooLarge => "payload does not fit a 24-bit length"
  | beyondCapacity length capacity =>
    "length " ++ toString length ++ " exceeds payload capacity " ++ toString capacity

end Http2
