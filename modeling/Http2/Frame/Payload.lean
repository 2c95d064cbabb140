import Http2.Frame.Basic

/-!
# Padding and priority data

DATA, HEADERS and PUSH_PROMISE payloads may carry padding: a pad length, the content, and that many
bytes of padding. A HEADERS payload may then start with five bytes of priority data. `unpadded` and
`fragment` strip them, in this order.
-/

namespace Http2.Frame

/-- The number of bytes of priority data: a stream dependency and a weight. -/
def prioritySize : Nat := 5

/-- The payload without pad length and padding. -/
def unpadded (f : Frame) : Except FrameError Bytes :=
  if f.kind.isPaddable && f.hasFlag Flag.padded then
    match f.payload with
    | [] => .error (.invalidPadding f.kind)
    | pad :: rest =>
      if pad.toNat ≤ rest.length then
        .ok (rest.take (rest.length - pad.toNat))
      else
        .error (.invalidPadding f.kind)
  else
    .ok f.payload

/-- The piece of a header block that the frame carries. -/
def fragment (f : Frame) : Except FrameError Bytes :=
  match f.unpadded with
  | .error fault => .error fault
  | .ok content =>
    if f.kind = .headers && f.hasFlag Flag.priority then
      if prioritySize ≤ content.length then
        .ok (content.drop prioritySize)
      else
        .error (.invalidPriority f.kind)
    else
      .ok content

end Http2.Frame
