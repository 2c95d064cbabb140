import Http2.Connection.Requests
import Http2.Proofs.Codec.Numbering
import Http2.Proofs.Codec.Pushing

/-!
# What a rejected request leaves behind

A request is rejected for one of three reasons (`Connection.Rejects`). Two of them leave the streams as
they are. The third, a header field that cannot be written, is found when the stream is registered
already: the stream stays, idle, and there is no way to get rid of it (`Codec.reserved`), so that rejected
requests pile up.
-/

namespace Http2

variable {δ σ : Type}

/-- A stream that was not registered adds one to the registry. -/
theorem Registry.size_put (r : Registry δ) {s : Stream δ} (free : r.contains s.id = false) :
    (r.put s).size = r.size + 1 := by
  have absent : r.entries.contains s.id = false := by simpa [contains, get?] using free
  simp only [size, put]
  rw [Std.ExtTreeMap.size_insert, absent, if_neg Bool.false_ne_true]

namespace Codec

variable {c : Codec δ} {fault : FieldError} {fields : List Field}

/-- The codec with the next stream registered, and nothing sent on it. -/
def reserved (c : Codec δ) (userData : Option δ) : Codec δ :=
  { c with
    nextStreamId := c.nextStreamId + 2
    streams := c.streams.put { id := c.nextStreamId, origin := .outbound, userData } }

/-- The reserved stream is idle, and holds the data of the request. -/
theorem stream?_reserved (c : Codec δ) (userData : Option δ) :
    (c.reserved userData).stream? c.nextStreamId =
      some { id := c.nextStreamId, origin := .outbound, userData } :=
  Registry.get?_put_self _ _

/-- The application's data joins the stream that was just opened. -/
theorem setUserData_reserved (c : Codec δ) (value : δ) :
    (c.reserved none).setUserData c.nextStreamId value = (.ok (), c.reserved (some value)) := by
  have found : (c.reserved none).streams.get? c.nextStreamId = _ := c.stream?_reserved none
  have replaced : (c.reserved none).streams.put
      { id := c.nextStreamId, origin := .outbound, userData := some value } =
        (c.reserved (some value)).streams := Registry.put_put _ rfl
  simp only [setUserData, found, putStream, replaced]
  rfl

/-- A field that may not be sent is refused, whatever the stream is. -/
theorem pushHeaders_of_wrong (wrong : HeaderBlock.FirstWrong fields fault) (id : UInt32) (last : Bool) :
    c.pushHeaders id fields last = (.error (.badField fault), c) := by
  rw [pushHeaders, HeaderBlock.encode?_eq_error.mpr wrong]

/-- An idle stream takes any header list that can be written. -/
theorem exists_pushHeaders {id : UInt32} {s : Stream δ} (found : c.stream? id = some s)
    (idle : s.state = .idle) (fits : ∀ f ∈ fields, f.NameFits ∧ f.ValueFits) (last : Bool) :
    ∃ queued, c.pushHeaders id fields last = (.ok (), queued) := by
  have accepted : s.state.send .headers (FrameKind.headers.endsStream (endFlag last)) =
      .accept (if FrameKind.headers.endsStream (endFlag last) then .halfClosedLocal else .opened) := by
    rw [idle]
    rfl
  rw [pushHeaders, HeaderBlock.encode?_eq_ok.mpr ⟨fits, rfl⟩]
  simp only [send, applySend_accepted found accepted]
  exact ⟨_, rfl⟩

/-- Neither a reset nor eviction removes a stream on which nothing was sent. -/
theorem reserved_stays (c : Codec δ) (userData : Option δ) :
    let c' := c.reserved userData
    (∀ code, c'.push c.nextStreamId (.reset code) =
      (.error (.illegalTransition c.nextStreamId .idle .rstStream), c')) ∧
      c'.evictClosed.2.stream? c.nextStreamId = c'.stream? c.nextStreamId := by
  intro c'
  have found : c'.stream? c.nextStreamId = _ := c.stream?_reserved userData
  refine ⟨fun code => push_of_denies
    (.illegal (fun _ member => absurd member List.not_mem_nil) found rfl), ?_⟩
  have kept : c'.evictClosed.2.stream? c.nextStreamId =
      (c'.stream? c.nextStreamId).filter fun s => !s.isClosed := Registry.get?_retain _ _ _
  rw [kept, found]
  rfl

end Codec

namespace Connection

variable {c c' : Connection δ σ} {request : Request δ} {fault : SendError}

/-- Why a request is rejected, and the connection then. -/
inductive Rejects (c : Connection δ σ) (request : Request δ) : SendError → Connection δ σ → Prop
  | exhausted (spent : maxStreamId < c.codec.nextStreamId) : Rejects c request .idsExhausted c
  /-- The peer has taken the identifier. -/
  | duplicate (left : ¬maxStreamId < c.codec.nextStreamId)
      (taken : c.codec.streams.contains c.codec.nextStreamId = true) :
      Rejects c request (.duplicateStream c.codec.nextStreamId)
        (c.withCodec { c.codec with nextStreamId := c.codec.nextStreamId + 2 })
  /-- The header list is only looked at when the stream is registered. -/
  | badField {fault : FieldError} (left : ¬maxStreamId < c.codec.nextStreamId)
      (free : c.codec.streams.contains c.codec.nextStreamId = false)
      (wrong : HeaderBlock.FirstWrong request.fields fault) :
      Rejects c request (.badField fault) (c.withCodec (c.codec.reserved request.userData))

/-- On a free identifier, only the header list decides. -/
theorem startRequest_of_free (left : ¬maxStreamId < c.codec.nextStreamId)
    (free : c.codec.streams.contains c.codec.nextStreamId = false) :
    c.startRequest request =
      let ready := c.codec.reserved request.userData
      match ready.pushHeaders c.codec.nextStreamId request.fields (!request.hasBody) with
      | (.error fault, codec) => (.error fault, c.withCodec codec)
      | (.ok (), queued) =>
        let c' := c.withCodec queued
        (.ok c.codec.nextStreamId,
          if request.hasBody then { c' with inProgress := c'.inProgress ++ [c.codec.nextStreamId] }
          else c') := by
  have opened : c.codec.openStream = (.ok c.codec.nextStreamId, c.codec.reserved none) :=
    Codec.openStream_free left free
  rw [startRequest, opened]
  cases attached : request.userData with
  | none => rfl
  | some value =>
    dsimp only
    rewrite [c.codec.setUserData_reserved value]
    rfl

/-- Every reason to reject a request rejects it, and leaves the connection that it names. -/
theorem startRequest_of_rejects (rejects : c.Rejects request fault c') :
    c.startRequest request = (.error fault, c') := by
  cases rejects with
  | exhausted spent =>
    rw [startRequest, Codec.openStream_spent spent]
    rfl
  | duplicate left taken => rw [startRequest, Codec.openStream_taken left taken]
  | badField left free wrong =>
    rw [startRequest_of_free left free]
    simp only [Codec.pushHeaders_of_wrong wrong]

/-- A request that is not rejected is started. -/
theorem rejects_or_started (c : Connection δ σ) (request : Request δ) :
    (∃ fault c', c.Rejects request fault c') ∨
      (c.startRequest request).1 = .ok c.codec.nextStreamId := by
  by_cases spent : maxStreamId < c.codec.nextStreamId
  · exact .inl ⟨_, _, .exhausted spent⟩
  · cases known : c.codec.streams.contains c.codec.nextStreamId with
    | true => exact .inl ⟨_, _, .duplicate spent known⟩
    | false =>
      cases written : HeaderBlock.encode? request.fields with
      | error fault =>
        exact .inl ⟨_, _, .badField spent known (HeaderBlock.encode?_eq_error.mp written)⟩
      | ok block =>
        have fits := (HeaderBlock.encode?_eq_ok.mp written).1
        obtain ⟨queued, pushed⟩ := Codec.exists_pushHeaders
          (c.codec.stream?_reserved request.userData) rfl fits (!request.hasBody)
        right
        rw [startRequest_of_free spent known]
        simp only [pushed]

/-- A request is rejected for one of the reasons and for no other. -/
theorem startRequest_eq_error :
    c.startRequest request = (.error fault, c') ↔ c.Rejects request fault c' := by
  refine ⟨fun failed => ?_, startRequest_of_rejects⟩
  rcases c.rejects_or_started request with ⟨fault', c'', rejects⟩ | started
  · rw [startRequest_of_rejects rejects] at failed
    cases failed
    exact rejects
  · rw [failed] at started
    cases started

/-! ## Many requests -/

/-- The connection after some requests. -/
def startAll (c : Connection δ σ) (requests : List (Request δ)) : Connection δ σ :=
  requests.foldl (fun c request => (c.startRequest request).2) c

/-- Every request with a bad field leaves one more stream, as long as identifiers last and the peer has
taken none of them. -/
theorem size_startAll {requests : List (Request δ)}
    (wrong : ∀ request ∈ requests, ∃ fault, HeaderBlock.FirstWrong request.fields fault)
    (room : c.codec.nextStreamId.toNat + 2 * requests.length ≤ 0x80000001)
    (unused : ∀ id, c.codec.nextStreamId ≤ id → c.codec.streams.contains id = false) :
    (c.startAll requests).codec.streams.size = c.codec.streams.size + requests.length := by
  induction requests generalizing c with
  | nil => rfl
  | cons request requests ih =>
    obtain ⟨⟨fault, bad⟩, wrong⟩ := List.forall_mem_cons.mp wrong
    rw [List.length_cons] at room
    have left : ¬maxStreamId < c.codec.nextStreamId := by
      rw [UInt32.lt_iff_toNat_lt, show maxStreamId.toNat = 0x7FFFFFFF from rfl]
      omega
    have free := unused _ UInt32.le_rfl
    have rejected := startRequest_of_rejects (.badField left free bad)
    have counter : (c.codec.nextStreamId + 2).toNat = c.codec.nextStreamId.toNat + 2 :=
      Codec.toNat_next left
    have grown : (c.codec.reserved request.userData).streams.size = c.codec.streams.size + 1 :=
      Registry.size_put _ free
    rw [startAll, List.foldl_cons, rejected, ← startAll, ih wrong, List.length_cons]
    · show (c.codec.reserved request.userData).streams.size + _ = _
      rw [grown]
      omega
    · show (c.codec.nextStreamId + 2).toNat + _ ≤ _
      rw [counter]
      omega
    · intro id later
      have past : c.codec.nextStreamId.toNat + 2 ≤ id.toNat := by
        rw [← counter]
        exact UInt32.le_iff_toNat_le.mp later
      have other : c.codec.nextStreamId ≠ id := by
        rintro rfl
        omega
      have kept : (c.codec.reserved request.userData).streams.get? id = c.codec.streams.get? id :=
        Registry.get?_put_of_ne _ other
      have before : c.codec.nextStreamId ≤ id := UInt32.le_iff_toNat_le.mpr (by omega)
      show ((c.codec.reserved request.userData).streams.get? id).isSome = false
      rw [kept]
      exact unused id before

end Connection

/-- A request is rejected if no identifier is left, if the peer has taken the next one, or if a field
cannot be written. In the last case the stream that was opened for it stays, idle and with the
application's data; it can neither be reset nor evicted. So every further request of this kind makes the
registry grow by one. Bodies in progress and the queue stay as they are, whatever the reason. -/
theorem rejected_requests_leave_streams (c : Connection δ σ) :
    (∀ request fault c', c.startRequest request = (.error fault, c') ↔ c.Rejects request fault c') ∧
    (∀ request fault c', c.startRequest request = (.error fault, c') →
      c'.inProgress = c.inProgress ∧ c'.sending = c.sending ∧ c'.codec.outbound = c.codec.outbound ∧
      c'.codec.writeSignal = c.codec.writeSignal ∧
      ∀ id s, c.codec.stream? id = some s → c'.codec.stream? id = some s) ∧
    (∀ userData, let stuck := c.codec.reserved userData
      (∀ code, stuck.push c.codec.nextStreamId (.reset code) =
        (.error (.illegalTransition c.codec.nextStreamId .idle .rstStream), stuck)) ∧
      stuck.evictClosed.2.stream? c.codec.nextStreamId =
        some { id := c.codec.nextStreamId, origin := .outbound, userData }) ∧
    ∀ requests : List (Request δ),
      (∀ request ∈ requests, ∃ fault, HeaderBlock.FirstWrong request.fields fault) →
      c.codec.nextStreamId.toNat + 2 * requests.length ≤ 0x80000001 →
      (∀ id, c.codec.nextStreamId ≤ id → c.codec.streams.contains id = false) →
      (c.startAll requests).codec.streams.size = c.codec.streams.size + requests.length := by
  refine ⟨fun _ _ _ => Connection.startRequest_eq_error, fun request fault c' failed => ?_,
    fun userData => ?_, fun requests => Connection.size_startAll⟩
  · cases Connection.startRequest_eq_error.mp failed with
    | exhausted | duplicate => exact ⟨rfl, rfl, rfl, rfl, fun _ _ found => found⟩
    | badField left free wrong =>
      refine ⟨rfl, rfl, rfl, rfl, fun id s found => ?_⟩
      have other : c.codec.nextStreamId ≠ id := by
        rintro rfl
        have known := Registry.contains_of_get? found
        rw [free] at known
        cases known
      exact (Registry.get?_put_of_ne _ other).trans found
  · have stays := c.codec.reserved_stays userData
    exact ⟨stays.1, stays.2.trans (c.codec.stream?_reserved userData)⟩

/-- Two requests with a bad header name leave two streams on a fresh client. -/
theorem rejected_requests_leave_streams_of_client :
    let client : Connection Unit Unit :=
      { id := ⟨0, 0⟩, socket := {}, endpoint := ⟨.create .client 16384, ()⟩
        handler := { onHeaders := fun _ _ _ _ => .done (), onBody := fun _ _ _ _ => .done () } }
    let bad : Request Unit := { fields := [⟨"a=b", "c"⟩] }
    HeaderBlock.FirstWrong bad.fields (.invalidName "a=b") ∧
      (client.startAll [bad, bad]).codec.streams.size = 2 := by
  intro client bad
  have wrong : HeaderBlock.FirstWrong bad.fields (.invalidName "a=b") :=
    HeaderBlock.encode?_eq_error.mp rfl
  have grows := (rejected_requests_leave_streams client).2.2.2 [bad, bad]
  refine ⟨wrong, grows (fun request member => ?_) (by decide) fun _ _ => rfl⟩
  obtain rfl : request = bad := by simpa using member
  exact ⟨_, wrong⟩

/-- A request whose first header name has an equals sign is rejected, and its stream is still there. -/
theorem rejected_request_leaves_stream :
    let client : Connection Unit Unit :=
      { id := ⟨0, 0⟩, socket := {}, endpoint := ⟨.create .client 16384, ()⟩
        handler := { onHeaders := fun _ _ _ _ => .done (), onBody := fun _ _ _ _ => .done () } }
    let rejected := client.startRequest { fields := [⟨"a=b", "c"⟩] }
    rejected.1 = .error (.badField (.invalidName "a=b")) ∧
      client.codec.streams.size = 0 ∧ client.codec.stream? 1 = none ∧
      rejected.2.codec.streams.size = 1 ∧
      rejected.2.codec.stream? 1 = some { id := 1, origin := .outbound } :=
  ⟨rfl, rfl, rfl, rfl, rfl⟩

end Http2
