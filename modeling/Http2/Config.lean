import Http2.Codec.Basic

/-!
# Configuration

The settings of a pool of workers. `fault?` finds the first setting, in a fixed order, with which no
pool can work.
-/

namespace Http2

/-- Why a configuration is refused. -/
inductive ConfigError where
  | noThreads
  | noConnectionCapacity
  | maxFrameSize (size : Nat)
  | noReadBuffer
  deriving DecidableEq, Repr

/-- The text of a refused configuration. -/
def ConfigError.message : ConfigError → String
  | noThreads => "at least one worker thread is required"
  | noConnectionCapacity => "connections_per_thread must be non-zero"
  | maxFrameSize size => "max_frame_size " ++ toString size ++ " is outside 1..=16777215"
  | noReadBuffer => "read_buffer_size must be non-zero"

/-- The settings of a pool. -/
structure Config where
  /-- The role that every connection plays. -/
  role : Role := .server
  threads : Nat := 1
  /-- How many connections one worker may have. -/
  connectionsPerThread : Nat := 1000
  /-- Largest payload accepted or produced. -/
  maxFrameSize : Nat := defaultMaxFrameSize
  /-- The size of the buffer that reads go through. -/
  readBufferSize : Nat := 8192
  /-- Longest wait for readiness, in milliseconds. -/
  pollTimeout : Nat := 10
  /-- How many readiness reports one wait may give. -/
  eventCapacity : Nat := 1000
  deriving DecidableEq, Repr

namespace Config

/-- What is wrong with a configuration. -/
def fault? (c : Config) : Option ConfigError :=
  if c.threads = 0 then some .noThreads
  else if c.connectionsPerThread = 0 then some .noConnectionCapacity
  else if c.maxFrameSize = 0 ∨ maxFrameLength < c.maxFrameSize then
    some (.maxFrameSize c.maxFrameSize)
  else if c.readBufferSize = 0 then some .noReadBuffer
  else none

/-- Readiness reports per wait, at least one. -/
def eventsPerPoll (c : Config) : Nat :=
  max c.eventCapacity 1

end Config

/-- A time in milliseconds with its unit: whole milliseconds below a second, otherwise seconds with
as many of three decimal places as are needed. -/
def durationText (milliseconds : Nat) : String :=
  if milliseconds = 0 then "0ns"
  else if milliseconds < 1000 then toString milliseconds ++ "ms"
  else
    let seconds := toString (milliseconds / 1000)
    let part := milliseconds % 1000
    if part = 0 then seconds ++ "s"
    else if part % 100 = 0 then seconds ++ "." ++ toString (part / 100) ++ "s"
    else
      let padding := if part < 10 then "00" else if part < 100 then "0" else ""
      let digits := if part % 10 = 0 then toString (part / 10) else toString part
      seconds ++ "." ++ padding ++ digits ++ "s"

/-- A configuration shown by its fields. -/
def Config.describe (c : Config) : String :=
  Text.describe "EngineConfig" [
    ("role", c.role.name),
    ("threads", toString c.threads),
    ("connections_per_thread", toString c.connectionsPerThread),
    ("max_frame_size", toString c.maxFrameSize),
    ("read_buffer_size", toString c.readBufferSize),
    ("poll_timeout", durationText c.pollTimeout),
    ("event_capacity", toString c.eventCapacity)]

end Http2
