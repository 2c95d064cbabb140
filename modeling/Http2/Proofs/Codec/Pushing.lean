import Http2.Proofs.Codec.Bounded

/-!
# Pushes do all or nothing

Header lists, body segments and resets are pushed in one way: the send table of the stream is asked once,
and then all frames are queued. `Codec.Denies` lists the reasons against a push, in the order in which
they are found, `Push.Spells` describes the frames of a push, and `Codec.Queues` what else it changes.
-/

namespace Http2

variable {δ : Type}

/-! ## Slices -/

namespace Bytes

variable {size : Nat}

/-- As many slices as the size goes into the length, rounded up, but at least one. -/
theorem length_slices (positive : 1 ≤ size) (bytes : Bytes) :
    (slices size bytes).length = max 1 ((bytes.length + size - 1) / size) := by
  induction bytes using slices.induct size with
  | case1 bytes short =>
    have few : (bytes.length + size - 1) / size < 2 := by
      rw [Nat.div_lt_iff_lt_mul positive]
      omega
    rw [slices, if_pos short, List.length_singleton]
    omega
  | case2 bytes long ih =>
    have onward : (bytes.length + size - 1) / size = (bytes.length - 1) / size + 1 := by
      rw [← Nat.add_div_right _ positive]
      congr 1
      omega
    have rest : bytes.length - size + size - 1 = bytes.length - 1 := by omega
    have some : 1 ≤ (bytes.length - 1) / size := by
      rw [Nat.le_div_iff_mul_le positive]
      omega
    rw [slices, if_neg long, List.length_cons, ih, List.length_drop, rest, onward]
    omega

/-- All slices but the last are full. -/
theorem length_of_mem_dropLast_slices {bytes slice : Bytes}
    (member : slice ∈ (slices size bytes).dropLast) : slice.length = size := by
  induction bytes using slices.induct size with
  | case1 bytes short =>
    rw [slices, if_pos short] at member
    cases member
  | case2 bytes long ih =>
    rw [slices, if_neg long, List.dropLast_cons_of_ne_nil (slices_ne_nil _ _)] at member
    rcases List.mem_cons.mp member with rfl | member
    · exact List.length_take_of_le (by omega)
    · exact ih member

end Bytes

/-- Frames that carry a payload between them, cut to a size. -/
structure Frame.Cuts (size : Nat) (payload : Bytes) (frames : List Frame) : Prop where
  whole : frames.flatMap Frame.payload = payload
  count : frames.length = max 1 ((payload.length + size - 1) / size)
  full : ∀ f ∈ frames.dropLast, f.length = size

/-- Slices cut a payload: they are whole, as few as there can be, and full but for the last. -/
theorem Frame.cuts_of_slices {size : Nat} {payload : Bytes} {frames : List Frame} (positive : 1 ≤ size)
    (same : frames.map Frame.payload = Bytes.slices size payload) : Frame.Cuts size payload frames where
  whole := by rw [List.flatMap_def, same, Bytes.flatten_slices]
  count := by rw [← Bytes.length_slices positive, ← same, List.length_map]
  full f member := by
    apply Bytes.length_of_mem_dropLast_slices
    rw [← same, ← List.map_dropLast]
    exact List.mem_map_of_mem member

/-! ## Pushes -/

/-- Something that this side sends on a stream. -/
inductive Push where
  | headers (fields : List Field) (last : Bool)
  | data (bytes : Bytes) (last : Bool)
  | reset (code : UInt32)
  deriving DecidableEq, Repr

namespace Push

/-- The header fields. -/
def fields : Push → List Field
  | headers fields _ => fields
  | data .. | reset _ => []

/-- The kind of frame that the send table is asked about. -/
def kind : Push → FrameKind
  | headers .. => .headers
  | data .. => .data
  | reset _ => .rstStream

/-- Whether the push ends this side of the stream. -/
def last : Push → Bool
  | headers _ last => last
  | data _ last => last
  | reset _ => false

/-- The flags that the send table is asked about. -/
def flags : Push → UInt8
  | headers _ last => Codec.endFlag last
  | data _ last => Codec.endFlag last
  | reset _ => 0

/-- The flags of a push end the stream exactly if the push does. -/
theorem endsStream_flags (p : Push) : p.kind.endsStream p.flags = p.last := by
  cases p with
  | headers _ last => exact Codec.endsStream_endFlag (.inl rfl) last
  | data _ last => exact Codec.endsStream_endFlag (.inr rfl) last
  | reset => rfl

/-- The send table knows no third answer to a push. -/
theorem send_cases (p : Push) (state : StreamState) :
    state.send p.kind p.last = .refuse ∨ ∃ next, state.send p.kind p.last = .accept next := by
  cases p <;> cases state <;> simp [StreamState.send, kind]

/-- The frames of a push on a stream. -/
inductive Spells (id : UInt32) (size : Nat) : Push → List Frame → Prop
  /-- HEADERS and CONTINUATIONs: the first may end the stream, the last ends the block. -/
  | headers {fields : List Field} {last : Bool} {frames : List Frame}
      (cuts : Frame.Cuts size (fields.flatMap Field.record) frames)
      (each : ∀ i f, frames[i]? = some f →
        f.stream = id ∧ f.kind = (if i = 0 then .headers else .continuation) ∧
        (f.hasFlag Flag.endStream ↔ i = 0 ∧ last) ∧
        (f.hasFlag Flag.endHeaders ↔ i + 1 = frames.length) ∧
        f.hasFlag Flag.padded = false ∧ f.hasFlag Flag.priority = false) :
      Spells id size (headers fields last) frames
  /-- DATA frames, the last of which may end the stream. -/
  | data {bytes : Bytes} {last : Bool} {frames : List Frame} (content : bytes ≠ [] ∨ last)
      (cuts : Frame.Cuts size bytes frames)
      (each : ∀ i f, frames[i]? = some f →
        f.stream = id ∧ f.kind = .data ∧ (f.hasFlag Flag.endStream ↔ i + 1 = frames.length ∧ last) ∧
        f.hasFlag Flag.endHeaders = false ∧ f.hasFlag Flag.padded = false) :
      Spells id size (data bytes last) frames
  | noData : Spells id size (data [] false) []
  | reset {code : UInt32} {f : Frame} (stream : f.stream = id) (kind : f.kind = .rstStream)
      (flags : f.flags = 0) (payload : f.payload = Bytes.ofUInt32 code) :
      Spells id size (reset code) [f]

end Push

namespace Codec

variable {c c' : Codec δ} {id : UInt32} {p : Push}

/-- Pushes on a stream. -/
def push (c : Codec δ) (id : UInt32) : Push → Except SendError Unit × Codec δ
  | .headers fields last => c.perform (.pushHeaders id fields last)
  | .data bytes last => c.perform (.pushData id bytes last)
  | .reset code => c.perform (.pushReset id code)

/-- Why a push fails: the header text comes before the stream. -/
inductive Denies (c : Codec δ) (id : UInt32) (p : Push) : SendError → Prop
  | field {fault : FieldError} (wrong : HeaderBlock.FirstWrong p.fields fault) :
      Denies c id p (.badField fault)
  | unknown (fits : ∀ f ∈ p.fields, f.NameFits ∧ f.ValueFits) (absent : c.stream? id = none) :
      Denies c id p (.unknownStream id)
  | illegal {s : Stream δ} (fits : ∀ f ∈ p.fields, f.NameFits ∧ f.ValueFits)
      (found : c.stream? id = some s) (refused : s.state.send p.kind p.last = .refuse) :
      Denies c id p (.illegalTransition id s.state p.kind)

/-- What a push that succeeds changes: the state of its stream, the end of the queue, and the signal. -/
structure Queues (c : Codec δ) (id : UInt32) (p : Push) (frames : List Frame) (c' : Codec δ) : Prop
    extends SameReceiver c c' where
  moved : ∃ s next, c.stream? id = some s ∧ s.state.send p.kind p.last = .accept next ∧
    c'.stream? id = some { s with state := next }
  others : ∀ other, other ≠ id → c'.stream? other = c.stream? other
  counter : c'.nextStreamId = c.nextStreamId
  queue : c'.outbound = c.outbound ++ frames
  signal : c'.writeSignal = true ↔ c.writeSignal = true ∨ frames ≠ []

/-! ## How a push goes -/

/-- The frames that a push queues. -/
def framesOf (c : Codec δ) (id : UInt32) : Push → List Frame
  | .headers fields last =>
    blockFrames id last (payloadPieces c.maxFrameSize (fields.flatMap Field.record))
  | .data bytes last =>
    if bytes.isEmpty && !last then [] else dataFrames id last (payloadPieces c.maxFrameSize bytes)
  | .reset code => [Frame.ofParts .rstStream 0 id (Bytes.ofUInt32 code)]

/-- Once the header text is found to be fine, only the send table is asked. -/
theorem push_of_fits (fits : ∀ f ∈ p.fields, f.NameFits ∧ f.ValueFits) :
    c.push id p = c.send id p.kind p.flags (c.framesOf id p) := by
  cases p with
  | headers fields last =>
    have written : HeaderBlock.encode? fields = .ok (fields.flatMap Field.record) :=
      HeaderBlock.encode?_eq_ok.mpr ⟨fits, rfl⟩
    rw [push, perform, pushHeaders, written]
    rfl
  | data bytes last =>
    by_cases empty : (bytes.isEmpty && !last) = true
    · have open' : last = false := by simp_all
      subst open'
      rw [framesOf, if_pos empty, send_nil, push, perform, pushData, if_pos empty]
      rfl
    · rw [push, perform, pushData, framesOf, if_neg empty, if_neg empty]
      rfl
  | reset code =>
    rfl

/-- A field that may not be sent is refused before the stream is looked at. -/
theorem push_of_wrong {fault : FieldError} (wrong : HeaderBlock.FirstWrong p.fields fault) :
    c.push id p = (.error (.badField fault), c) := by
  cases p with
  | headers fields last =>
    have written : HeaderBlock.encode? fields = .error fault := HeaderBlock.encode?_eq_error.mpr wrong
    simp only [push, perform, pushHeaders, written]
  | data | reset =>
    obtain ⟨front, f, back, split, -⟩ := wrong
    simp [Push.fields] at split

/-- A push that is denied changes nothing. -/
theorem push_of_denies {fault : SendError} (denies : c.Denies id p fault) :
    c.push id p = (.error fault, c) := by
  cases denies with
  | field wrong => exact push_of_wrong wrong
  | unknown fits absent => rw [push_of_fits fits, send, applySend_unknown absent]
  | illegal fits found refused =>
    rw [← p.endsStream_flags] at refused
    rw [push_of_fits fits, send, applySend_refused found refused]

/-- A push that the table accepts moves the stream and queues the frames of the push. -/
theorem push_of_accepted {s : Stream δ} {next : StreamState}
    (fits : ∀ f ∈ p.fields, f.NameFits ∧ f.ValueFits) (found : c.stream? id = some s)
    (accepted : s.state.send p.kind p.last = .accept next) :
    c.push id p = (.ok (), (c.putStream { s with state := next }).enqueue (c.framesOf id p)) := by
  rw [← p.endsStream_flags] at accepted
  rw [push_of_fits fits, send, applySend_accepted found accepted]

/-- A push is denied or the send table accepts it. -/
theorem denies_or_accepted (c : Codec δ) (id : UInt32) (p : Push) :
    (∃ fault, c.Denies id p fault) ∨ ∃ s next, (∀ f ∈ p.fields, f.NameFits ∧ f.ValueFits) ∧
      c.stream? id = some s ∧ s.state.send p.kind p.last = .accept next := by
  cases written : HeaderBlock.encode? p.fields with
  | error fault => exact .inl ⟨_, .field (HeaderBlock.encode?_eq_error.mp written)⟩
  | ok block =>
    have fits := (HeaderBlock.encode?_eq_ok.mp written).1
    cases found : c.stream? id with
    | none => exact .inl ⟨_, .unknown fits found⟩
    | some s =>
      rcases p.send_cases s.state with refused | ⟨next, accepted⟩
      · exact .inl ⟨_, .illegal fits found refused⟩
      · exact .inr ⟨s, next, fits, rfl, accepted⟩

/-! ## The frames of a push -/

/-- The frames of a header block carry its pieces, in order. -/
theorem map_payload_blockFrames (id : UInt32) (last : Bool) (pieces : List Bytes) :
    (blockFrames id last pieces).map Frame.payload = pieces := by
  apply List.ext_getElem?
  simp [blockFrames, Frame.ofParts, Function.comp_def]

/-- The frames of a body segment carry its pieces, in order. -/
theorem map_payload_dataFrames (id : UInt32) (last : Bool) (pieces : List Bytes) :
    (dataFrames id last pieces).map Frame.payload = pieces := by
  apply List.ext_getElem?
  simp [dataFrames, Frame.ofParts, Function.comp_def]

/-- The flags of a header frame. -/
theorem has_blockFlags (first final : Prop) [Decidable first] [Decidable final] (last : Bool) :
    let flags := (if first then endFlag last else 0) ||| if final then Flag.endHeaders else 0
    (Flag.has flags Flag.endStream ↔ first ∧ last) ∧ (Flag.has flags Flag.endHeaders ↔ final) ∧
      Flag.has flags Flag.padded = false ∧ Flag.has flags Flag.priority = false := by
  by_cases first <;> by_cases final <;> cases last <;> simp_all <;> decide

/-- The flags of a DATA frame. -/
theorem has_dataFlags (final : Prop) [Decidable final] (last : Bool) :
    let flags := if final then endFlag last else 0
    (Flag.has flags Flag.endStream ↔ final ∧ last) ∧ Flag.has flags Flag.endHeaders = false ∧
      Flag.has flags Flag.padded = false := by
  by_cases final <;> cases last <;> simp_all <;> decide

/-- The frames that a push queues spell it: kinds, flags, sizes and contents. -/
theorem spells_framesOf (valid : IsStreamId id) (positive : 1 ≤ c.maxFrameSize) :
    p.Spells id c.maxFrameSize (c.framesOf id p) := by
  cases p with
  | headers fields last =>
    rw [framesOf, payloadPieces_eq positive]
    refine .headers (Frame.cuts_of_slices positive (map_payload_blockFrames _ _ _)) fun i f here => ?_
    simp only [blockFrames, List.getElem?_mapIdx, Option.map_eq_some_iff] at here
    obtain ⟨piece, -, rfl⟩ := here
    rw [blockFrames, List.length_mapIdx]
    refine ⟨Frame.stream_ofParts valid, ?_, has_blockFlags _ _ last⟩
    split <;> exact Frame.kind_ofParts rfl
  | data bytes last =>
    rw [framesOf]
    by_cases empty : (bytes.isEmpty && !last) = true
    · obtain ⟨rfl, rfl⟩ : bytes = [] ∧ last = false := by simpa using empty
      exact .noData
    · have content : bytes ≠ [] ∨ last := by cases bytes <;> cases last <;> simp_all
      rw [if_neg empty, payloadPieces_eq positive]
      refine .data content (Frame.cuts_of_slices positive (map_payload_dataFrames _ _ _))
        fun i f here => ?_
      simp only [dataFrames, List.getElem?_mapIdx, Option.map_eq_some_iff] at here
      obtain ⟨piece, -, rfl⟩ := here
      rw [dataFrames, List.length_mapIdx]
      exact ⟨Frame.stream_ofParts valid, Frame.kind_ofParts rfl, has_dataFlags _ last⟩
  | reset code => exact .reset (Frame.stream_ofParts valid) (Frame.kind_ofParts rfl) rfl rfl

/-- What an accepted push leaves behind. -/
theorem queues_of_accepted {s : Stream δ} {next : StreamState} (found : c.stream? id = some s)
    (accepted : s.state.send p.kind p.last = .accept next) (frames : List Frame) :
    c.Queues id p frames ((c.putStream { s with state := next }).enqueue frames) where
  toSameReceiver := ⟨⟨rfl, rfl, rfl⟩, rfl⟩
  moved := by
    obtain rfl := Registry.id_of_get? found
    exact ⟨s, next, found, accepted, Registry.get?_put_of_id _ rfl⟩
  others other different := by
    obtain rfl := Registry.id_of_get? found
    exact Registry.get?_put_of_ne _ (Ne.symm different)
  counter := rfl
  queue := rfl
  signal := by simp [enqueue, putStream]

/-- Every stream of a reachable codec has an identifier that frames can carry. -/
theorem Reachable.numbered (reachable : c.Reachable) : c.Numbered := by
  have keeps : Leads.Keeps (fun _ : Op δ => True) Numbered := .numbered
  induction reachable with
  | create role maxFrameSize => exact numbered_create role maxFrameSize
  | perform _ op ih => exact keeps.perform op trivial ih
  | @process σ c before h app input ih =>
    have leads := Endpoint.leads_moments (e := ⟨c, app⟩) before.consistent h input
    exact leads.keeps keeps (fun _ _ _ _ _ => trivial) (.inl ih)

end Codec

/-- On every reachable codec, a push fails exactly if the header list has a field that cannot be written,
the stream is not registered or the send table refuses, and then nothing changes. Otherwise the frames of
the push are queued behind all others, and nothing else changes but the state of the stream and perhaps
the write signal. -/
theorem push_does_all_or_nothing {c : Codec δ} (reachable : c.Reachable) (id : UInt32) (p : Push) :
    (∀ fault, (c.push id p).1 = .error fault ↔ c.Denies id p fault) ∧
    (∀ fault, (c.push id p).1 = .error fault → (c.push id p).2 = c) ∧
    ((c.push id p).1 = .ok () →
      ∃ frames, p.Spells id c.maxFrameSize frames ∧ c.Queues id p frames (c.push id p).2) := by
  rcases c.denies_or_accepted id p with ⟨fault, denies⟩ | ⟨s, next, fits, found, accepted⟩
  · rw [Codec.push_of_denies denies]
    refine ⟨fun other => ⟨fun same => Except.error.inj same ▸ denies, fun denies' => ?_⟩, fun _ _ => rfl,
      nofun⟩
    have same := (Codec.push_of_denies denies).symm.trans (Codec.push_of_denies denies')
    exact (Prod.mk.inj same).1
  · have done := Codec.push_of_accepted fits found accepted
    have valid := reachable.numbered.valid id (Registry.contains_of_get? found)
    rw [done]
    refine ⟨fun fault => ⟨nofun, fun denies => ?_⟩, nofun, fun _ => ?_⟩
    · rw [Codec.push_of_denies denies] at done
      cases done
    · exact ⟨_, Codec.spells_framesOf valid reachable.bounded.positive,
        Codec.queues_of_accepted found accepted _⟩

/-- A client with a new stream: no body may come first, no header list with a bad name goes out, and a
request that does is cut into three frames. -/
theorem push_does_all_or_nothing_on_request :
    let c : Codec Unit := ((Codec.create .client 5).perform .openStream).2
    c.Reachable ∧ c.Denies 1 (.data [1] true) (.illegalTransition 1 .idle .data) ∧
      c.Denies 1 (.headers [⟨"a", "b"⟩, ⟨"c=", "d"⟩] true) (.badField (.invalidName "c=")) ∧
      ∃ frames, frames.length = 3 ∧ (Push.headers [⟨"path", "/abc"⟩] true).Spells 1 5 frames ∧
        c.Queues 1 (.headers [⟨"path", "/abc"⟩] true) frames
          (c.push 1 (.headers [⟨"path", "/abc"⟩] true)).2 := by
  intro c
  have reachable : c.Reachable := .perform (.create .client 5) .openStream
  have request := push_does_all_or_nothing reachable 1 (.headers [⟨"path", "/abc"⟩] true)
  obtain ⟨frames, spells, queues⟩ := request.2.2 rfl
  have count : frames.length = 3 := by
    cases spells with
    | headers cuts => exact cuts.count.trans (by decide +kernel)
  exact ⟨reachable, ((push_does_all_or_nothing reachable 1 _).1 _).mp rfl,
    ((push_does_all_or_nothing reachable 1 _).1 _).mp rfl, frames, count, spells, queues⟩

end Http2
