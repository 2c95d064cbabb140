import Http2.Connection.Read

/-!
# Requests of a connection

`startRequest` opens a stream, attaches the application's data and queues the headers; if a body
follows, the stream joins the list of bodies in progress. `pullBodies` asks the application once for
each of them, in turn order, and queues what it got. A body leaves the list when it is finished or can
no longer be sent.
-/

namespace Http2.Connection

variable {δ σ : Type}

/-- Opens a stream for a request and queues its headers. Whatever step fails, the steps before it
stay done. -/
def startRequest (c : Connection δ σ) (request : Request δ) :
    Except SendError UInt32 × Connection δ σ :=
  match c.codec.openStream with
  | (.error fault, codec) => (.error fault, c.withCodec codec)
  | (.ok id, opened) =>
    let attached :=
      match request.userData with
      | none => (Except.ok (), opened)
      | some value => opened.setUserData id value
    match attached with
    | (.error fault, codec) => (.error fault, c.withCodec codec)
    | (.ok (), ready) =>
      match ready.pushHeaders id request.fields (!request.hasBody) with
      | (.error fault, codec) => (.error fault, c.withCodec codec)
      | (.ok (), queued) =>
        let c := c.withCodec queued
        (.ok id, if request.hasBody then { c with inProgress := c.inProgress ++ [id] } else c)

/-- Asks the application for the next piece of one body and queues it. -/
def pullBody (c : Connection δ σ) (buffer : Bytes) (id : UInt32) : Connection δ σ × Bytes :=
  let (reply, codec) := (c.handler.onDataNeeded c.endpoint.app id buffer).run c.codec
  let buffer := overlay buffer reply.stored
  let piece := buffer.take (min reply.chunk.written buffer.length)
  match codec.pushData id piece reply.chunk.finished with
  | (.error _, codec) => ({ c with endpoint := { codec, app := reply.app } }, buffer)
  | (.ok (), codec) =>
    let c := { c with endpoint := { codec, app := reply.app } }
    (if reply.chunk.finished then c else { c with inProgress := c.inProgress ++ [id] }, buffer)

/-- Asks once for each body in progress; those that go on keep their order. -/
def pullBodies (c : Connection δ σ) (buffer : Bytes) : Connection δ σ × Bytes :=
  c.inProgress.foldl (fun (c, buffer) id => c.pullBody buffer id)
    ({ c with inProgress := [] }, buffer)

end Http2.Connection
