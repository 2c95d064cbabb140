import Http2.Proofs.Codec.Consistency

/-!
# Streams do not disturb each other

Take the frames of some streams out of everything that is received: an endpoint that is given only these
reports the same about these streams, in the same order, and ends with the same records of them. What
one stream could do to another is to interrupt its header block, so the frames must respect open blocks
(`Undisturbed`). `Outcome.transfer` says that then a frame looks at its own stream only, and changes
nothing else; `Excerpt` relates the two endpoints, and `excerpt_dispatchAll` goes through all frames.
-/

namespace Http2

variable {δ σ : Type}

/-- The stream that a callback is about. -/
def Callback.stream : Callback → UInt32
  | headers id _ _ => id
  | body id _ _ => id
  | error id _ => id

/-- Whether a frame is one of the chosen streams. Frames of the connection and of unknown kinds are of
no stream. -/
def Frame.isOf (keep : UInt32 → Bool) (f : Frame) : Bool :=
  !Endpoint.isIgnored f && keep f.stream

namespace Codec

variable {c c' d : Codec δ} {f : Frame} {callback : Option Callback} {fault : Option FrameError}
  {keep : UInt32 → Bool}

/-- No header block is open but one of the frame's stream, and then the frame is not ignored. -/
def Calm (c : Codec δ) (f : Frame) : Prop :=
  ∀ owner ∈ c.openBlock?, f.stream = owner ∧ Endpoint.isIgnored f = false

instance (c : Codec δ) (f : Frame) : Decidable (c.Calm f) :=
  Option.decidableForallMem c.openBlock?

/-- No header block is open when a frame of no stream comes. -/
theorem Calm.closed_of_ignored (calm : c.Calm f) (ignored : Endpoint.isIgnored f = true) :
    c.openBlock? = none :=
  Option.eq_none_iff_forall_not_mem.mpr fun owner opened => by
    rw [(calm owner opened).2] at ignored
    cases ignored

/-- A frame that interrupts no header block does not go astray. -/
theorem Calm.not_astray (calm : c.Calm f) : ¬Astray c f := by
  rintro ⟨-, -, owner, opened, elsewhere⟩
  exact elsewhere (calm owner opened).1

/-- A received frame stores its own stream, the same one on two codecs, or none. -/
inductive Stores (f : Frame) (c d c' d' : Codec δ) : Prop
  | nothing (here : d.streams = c.streams) (there : d'.streams = c'.streams)
  | stream (s : Stream δ) (owner : s.id = f.stream) (here : d.streams = c.streams.put s)
      (there : d'.streams = c'.streams.put s)

/-- What is stored under the frame's own stream is stored on both codecs. -/
theorem stores_put (c c' : Codec δ) {s : Stream δ} (owner : s.id = f.stream) :
    Stores f c ((c.noted f).putStream s) c' ((c'.noted f).putStream s) :=
  .stream s owner rfl rfl

/-- Whatever becomes of a fragment, it is stored on its stream and reported of it. -/
theorem stream_of_collects {s s' : Stream δ} (collects : s.Collects f s' callback) :
    s'.id = s.id ∧ ∀ told ∈ callback, told.stream = s.id := by
  refine ⟨collects.id_eq, fun told member => ?_⟩
  cases collects with
  | kept => cases member
  | delivered => cases member; rfl
  | overflowed => cases member; rfl

/-- A frame that interrupts no other stream's header block looks at its own stream only. -/
theorem Outcome.transfer (outcome : Outcome c f d callback fault) (calm : c.Calm f)
    (opened : c'.openBlock? = c.openBlock?)
    (same : c'.streams.inbound f.stream = c.streams.inbound f.stream) :
    ∃ d', Outcome c' f d' callback fault ∧ Stores f c d c' d' ∧
      ∀ told ∈ callback, told.stream = f.stream := by
  have judges (judged : c.Judges f) : c'.Judges f :=
    ⟨opened.trans judged.closed, judged.heeded, judged.stream, judged.kind⟩
  have verdict : c'.verdict f = c.verdict f := by rw [Codec.verdict, same, Codec.verdict]
  have here : (c.streams.inbound f.stream).id = f.stream := Registry.id_inbound _ _
  have silent : ∀ told ∈ (none : Option Callback), told.stream = f.stream := by simp
  cases outcome with
  | ignored closed ignored =>
    exact ⟨_, .ignored (opened.trans closed) ignored, .nothing rfl rfl, silent⟩
  | streamZero closed heeded zero =>
    exact ⟨_, .streamZero (opened.trans closed) heeded zero, .nothing rfl rfl, silent⟩
  | unmoved judged ignored =>
    refine ⟨_, .unmoved (judges judged) (verdict.trans ignored), ?_, silent⟩
    rw [same]
    exact stores_put c c' here
  | malformed judged accepted wrong =>
    refine ⟨_, .malformed (judges judged) (verdict.trans accepted) wrong, ?_, silent⟩
    rw [same]
    exact stores_put c c' here
  | rejected judged rejected =>
    refine ⟨_, .rejected (judges judged) (verdict.trans rejected), ?_, ?_⟩
    · rw [same]
      exact stores_put c c' here
    · rintro _ ⟨⟩
      rfl
  | moved judged accepted kind =>
    refine ⟨_, .moved (judges judged) (verdict.trans accepted) kind, ?_, silent⟩
    rw [same]
    exact stores_put c c' here
  | body judged accepted kind unpadded =>
    refine ⟨_, .body (judges judged) (verdict.trans accepted) kind unpadded, ?_, ?_⟩
    · rw [same]
      exact stores_put c c' here
    · rintro _ ⟨⟩
      rfl
  | opening judged accepted opens wellFormed collects =>
    obtain ⟨owner, told⟩ := stream_of_collects collects
    rw [Stream.id_opening, here] at owner told
    rw [← same] at collects
    exact ⟨_, .opening (judges judged) (verdict.trans accepted) opens wellFormed collects,
      stores_put c c' owner, told⟩
  | continuing waits kind stream collects =>
    obtain ⟨owner, told⟩ := stream_of_collects collects
    rw [Stream.id_continuing, here] at owner told
    rw [← same] at collects
    exact ⟨_, .continuing (opened.trans waits) kind stream collects, stores_put c c' owner, told⟩
  | stray closed kind stream =>
    refine ⟨_, .stray (opened.trans closed) kind stream, ?_, ?_⟩
    · rw [same]
      exact stores_put c c' here
    · rintro _ ⟨⟩
      rfl
  | interrupting waits other =>
    obtain ⟨rfl, -⟩ := calm _ waits
    refine ⟨_, .interrupting (opened.trans waits) other, ?_, ?_⟩
    · rw [same]
      exact stores_put c c' here
    · rintro _ ⟨⟩
      rfl

/-! ## Excerpts -/

/-- `c'` has the chosen streams of `c`, and no header block open on any other. -/
structure Excerpt (keep : UInt32 → Bool) (c c' : Codec δ) : Prop where
  consistent : c.Consistent
  consistent' : c'.Consistent
  same : ∀ id, keep id → c'.streams.get? id = c.streams.get? id
  others : ∀ id, keep id = false → ¬c'.Awaits id

namespace Excerpt

/-- A frame of a chosen stream meets the same stream on both codecs. -/
theorem inbound_eq (excerpt : Excerpt keep c c') {id : UInt32} (kept : keep id) :
    c'.streams.inbound id = c.streams.inbound id := by
  rw [Registry.inbound, Registry.inbound, excerpt.same id kept]

/-- The same header block is open on both, unless the one that is open on the first is left out. -/
theorem openBlock?_eq (excerpt : Excerpt keep c c')
    (calm : ∀ owner ∈ c.openBlock?, keep owner) : c'.openBlock? = c.openBlock? := by
  cases opened : c.openBlock? with
  | some owner =>
    have awaits := awaits_of_openBlock? opened
    rw [Awaits, ← excerpt.inbound_eq (calm owner opened)] at awaits
    exact excerpt.consistent'.openBlock?_eq awaits
  | none =>
    refine Option.eq_none_iff_forall_not_mem.mpr fun owner opened' => ?_
    have awaits := awaits_of_openBlock? opened'
    cases kept : keep owner with
    | false => exact excerpt.others owner kept awaits
    | true =>
      rw [Awaits, excerpt.inbound_eq kept] at awaits
      rw [excerpt.consistent.openBlock?_eq awaits] at opened
      cases opened

/-- What two codecs have in common does not depend on their assemblers. -/
theorem reassemble (excerpt : Excerpt keep c c') (a a' : Assembler) :
    Excerpt keep { c with assembler := a } { c' with assembler := a' } where
  consistent := excerpt.consistent.reassemble a
  consistent' := excerpt.consistent'.reassemble a'
  same := excerpt.same
  others := excerpt.others

/-- Both take a frame of a chosen stream. -/
theorem of_stores {d' : Codec δ} (excerpt : Excerpt keep c c') (kept : keep f.stream)
    (consistent : d.Consistent) (consistent' : d'.Consistent) (stores : Stores f c d c' d') :
    Excerpt keep d d' where
  consistent := consistent
  consistent' := consistent'
  same id chosen := by
    cases stores with
    | nothing here there => rw [here, there, excerpt.same id chosen]
    | stream s owner here there =>
      rw [here, there, Registry.get?_put, Registry.get?_put, excerpt.same id chosen]
  others id left := by
    cases stores with
    | nothing here there =>
      rw [Awaits, there]
      exact excerpt.others id left
    | stream s owner here there =>
      have elsewhere : s.id ≠ id := by
        rintro rfl
        rw [owner, kept] at left
        cases left
      rw [Awaits, there, Registry.inbound_put, if_neg elsewhere]
      exact excerpt.others id left

/-- The first takes a frame of a stream that is left out. -/
theorem of_skipped {d' : Codec δ} (excerpt : Excerpt keep c c') (left : keep f.stream = false)
    (consistent : d.Consistent) (stores : Stores f c d c d') : Excerpt keep d c' where
  consistent := consistent
  consistent' := excerpt.consistent'
  same id chosen := by
    cases stores with
    | nothing here there => rw [here, excerpt.same id chosen]
    | stream s owner here there =>
      have elsewhere : s.id ≠ id := by
        rintro rfl
        rw [owner, left] at chosen
        cases chosen
      rw [here, Registry.get?_put_of_ne _ elsewhere, excerpt.same id chosen]
  others := excerpt.others

end Excerpt

end Codec

namespace Endpoint

open Codec (Outcome Astray Calm)

variable {e e' : Endpoint δ (List Callback)} {f : Frame} {frames front back : List Frame}
  {keep : UInt32 → Bool}

/-- Two endpoints, of which the second is given only the frames of the chosen streams. -/
structure Excerpt (keep : UInt32 → Bool) (e e' : Endpoint δ (List Callback)) : Prop where
  codec : Codec.Excerpt keep e.codec e'.codec
  heard : e'.app = e.app.filter fun callback => keep callback.stream

/-- Fresh endpoints have nothing registered and nothing reported, so one is an excerpt of the other. -/
theorem excerpt_create (keep : UInt32 → Bool) (role : Role) (maxFrameSize : Nat) :
    let start : Endpoint δ (List Callback) := ⟨.create role maxFrameSize, []⟩
    Excerpt keep start start where
  codec := {
    consistent := Codec.consistent_create role maxFrameSize
    consistent' := Codec.consistent_create role maxFrameSize
    same := fun _ _ => rfl
    others := fun id _ => by simp [Codec.Awaits, Codec.create, Registry.inbound] }
  heard := rfl

theorem Excerpt.reassemble (excerpt : Excerpt keep e e') (a a' : Assembler) :
    Excerpt keep (e.withAssembler a) (e'.withAssembler a') :=
  ⟨excerpt.codec.reassemble a a', excerpt.heard⟩

theorem Excerpt.completing (excerpt : Excerpt keep e e') (f : Frame) :
    Excerpt keep (e.completing f) (e'.completing f) :=
  excerpt.reassemble _ _

/-- A frame of a chosen stream comes to both. -/
theorem excerpt_dispatch (excerpt : Excerpt keep e e') (calm : e.codec.Calm f)
    (kept : keep f.stream) :
    (e'.dispatch .recorder f).fault = (e.dispatch .recorder f).fault ∧
      Excerpt keep (e.dispatch .recorder f).endpoint (e'.dispatch .recorder f).endpoint := by
  have opened : e'.codec.openBlock? = e.codec.openBlock? :=
    excerpt.codec.openBlock?_eq fun owner here => by rwa [← (calm owner here).1]
  have calm' : e'.codec.Calm f := by rwa [Calm, opened]
  obtain ⟨d, callback, fault, outcome⟩ := excerpt.codec.consistent.exists_outcome f
  obtain ⟨d', outcome', stores, told⟩ :=
    outcome.transfer calm opened (excerpt.codec.inbound_eq kept)
  have taken := excerpt.codec.of_stores kept
    (Codec.consistent_outcome excerpt.codec.consistent outcome)
    (Codec.consistent_outcome excerpt.codec.consistent' outcome') stores
  rw [dispatch_of_outcome outcome calm.not_astray, dispatch_of_outcome outcome' calm'.not_astray,
    answer_recorder, answer_recorder]
  refine ⟨rfl, taken, ?_⟩
  have all : callback.toList.filter (fun callback => keep callback.stream) = callback.toList :=
    List.filter_eq_self.mpr fun callback member => by rwa [told callback (by simpa using member)]
  simp only [List.filter_append, all, excerpt.heard]

/-- A frame that is left out comes to the first. -/
theorem excerpt_dispatch_skipped (excerpt : Excerpt keep e e') (calm : e.codec.Calm f)
    (left : f.isOf keep = false) : Excerpt keep (e.dispatch .recorder f).endpoint e' := by
  cases ignored : isIgnored f with
  | true =>
    have closed := calm.closed_of_ignored ignored
    have consistent : (e.codec.noted f).Consistent :=
      Codec.consistent_outcome excerpt.codec.consistent (.ignored closed ignored)
    rw [dispatch_ignored closed ignored]
    exact ⟨{ consistent, consistent' := excerpt.codec.consistent',
             same := excerpt.codec.same, others := excerpt.codec.others }, excerpt.heard⟩
  | false =>
    have elsewhere : keep f.stream = false := by simpa [Frame.isOf, ignored] using left
    obtain ⟨d, callback, fault, outcome⟩ := excerpt.codec.consistent.exists_outcome f
    obtain ⟨d', -, stores, told⟩ := outcome.transfer calm rfl rfl
    rw [dispatch_of_outcome outcome calm.not_astray, answer_recorder]
    refine ⟨excerpt.codec.of_skipped elsewhere
      (Codec.consistent_outcome excerpt.codec.consistent outcome) stores, ?_⟩
    have none : callback.toList.filter (fun callback => keep callback.stream) = [] :=
      List.filter_eq_nil_iff.mpr fun callback member => by
        rw [told callback (by simpa using member), elsewhere]
        exact Bool.false_ne_true
    simp only [List.filter_append, none, List.append_nil, excerpt.heard]

/-- Frames of all streams come to the first, and those of the chosen streams to the second. -/
theorem excerpt_dispatchAll (excerpt : Excerpt keep e e')
    (fine : (e.dispatchAll .recorder frames).fault = none)
    (calm : ∀ front f back, frames = front ++ f :: back →
      (e.dispatchAll .recorder front).endpoint.codec.Calm f) :
    (e'.dispatchAll .recorder (frames.filter (·.isOf keep))).fault = none ∧
      Excerpt keep (e.dispatchAll .recorder frames).endpoint
        (e'.dispatchAll .recorder (frames.filter (·.isOf keep))).endpoint := by
  induction frames generalizing e e' with
  | nil => exact ⟨rfl, excerpt⟩
  | cons f frames ih =>
    have calmHere : (e.completing f).codec.Calm f := calm [] f frames rfl
    have first : ((e.completing f).dispatch .recorder f).fault = none := by
      cases failed : ((e.completing f).dispatch .recorder f).fault with
      | none => rfl
      | some fault =>
        rw [dispatchAll, Received.andThen_of_some failed, failed] at fine
        cases fine
    have calmLater : ∀ front g back, frames = front ++ g :: back →
        (((e.completing f).dispatch .recorder f).endpoint.dispatchAll .recorder
          front).endpoint.codec.Calm g := by
      intro front g back split
      have later := calm (f :: front) g back (by rw [split, List.cons_append])
      rwa [dispatchAll, Received.andThen_of_none first] at later
    rw [dispatchAll, Received.andThen_of_none first] at fine ⊢
    cases kept : f.isOf keep with
    | true =>
      have chosen : keep f.stream := (Bool.and_eq_true_iff.mp kept).2
      obtain ⟨same, taken⟩ := excerpt_dispatch (excerpt.completing f) calmHere chosen
      rw [List.filter_cons_of_pos kept, dispatchAll, Received.andThen_of_none (same.trans first)]
      exact ih taken fine calmLater
    | false =>
      have skipped := excerpt_dispatch_skipped
        (excerpt.reassemble (e.codec.assembler.emptied f) e'.codec.assembler) calmHere kept
      rw [List.filter_cons_of_neg (by rw [kept]; exact Bool.false_ne_true)]
      exact ih skipped fine calmLater

/-- Frames that cause no fault stream by stream cause none together. -/
theorem dispatchAll_fine (start : ∀ keep, Excerpt keep e e)
    (calm : ∀ front f back, frames = front ++ f :: back →
      (e.dispatchAll .recorder front).endpoint.codec.Calm f)
    (fine : ∀ id, (e.dispatchAll .recorder (frames.filter (·.isOf (· == id)))).fault = none) :
    (e.dispatchAll .recorder frames).fault = none := by
  cases failed : (e.dispatchAll .recorder frames).fault with
  | none => rfl
  | some fault =>
    -- the first frame that is a fault would be one on its stream alone
    obtain ⟨front, f, back, rfl, before, here⟩ := exists_of_fault failed
    have calmBefore : ∀ front' g back', front = front' ++ g :: back' →
        (e.dispatchAll .recorder front').endpoint.codec.Calm g := fun front' g back' split =>
      calm front' g (back' ++ f :: back) (by rw [split, List.append_assoc, List.cons_append])
    obtain ⟨fineBefore, excerpt⟩ := excerpt_dispatchAll (start (· == f.stream)) before calmBefore
    have calmHere : ((e.dispatchAll .recorder front).endpoint.completing f).codec.Calm f :=
      calm front f back rfl
    cases ignored : isIgnored f with
    | true =>
      rw [dispatch_ignored (calmHere.closed_of_ignored ignored) ignored] at here
      cases here
    | false =>
      have kept : f.isOf (· == f.stream) = true := by simp [Frame.isOf, ignored]
      have faulty := (excerpt_dispatch (excerpt.completing f) calmHere (by simp)).1.trans here
      have alone := fine f.stream
      rw [List.filter_append, List.filter_cons_of_pos kept, dispatchAll_append,
        Received.andThen_of_none fineBefore, dispatchAll, Received.andThen_of_some faulty,
        faulty] at alone
      cases alone

/-! ## What is received -/

/-- What a recorder makes of frames that are received one after the other. -/
def receives (e : Endpoint δ (List Callback)) (frames : List Frame) :
    Received δ (List Callback) :=
  e.process .recorder (frames.flatMap Frame.toBytes)

/-- While a header block is open, every frame that comes is one of its stream. -/
def Undisturbed (e : Endpoint δ (List Callback)) (frames : List Frame) : Prop :=
  ∀ front f back, frames = front ++ f :: back → (e.receives front).endpoint.codec.Calm f

/-- Frames are undisturbed if each of them is calm at the codec that the frames before it leave. -/
theorem undisturbed_iff {e : Endpoint δ (List Callback)} : e.Undisturbed frames ↔
    ∀ i (h : i < frames.length), (e.receives (frames.take i)).endpoint.codec.Calm frames[i] := by
  constructor
  · intro calm i h
    refine calm _ _ (frames.drop (i + 1)) ?_
    rw [← List.drop_eq_getElem_cons h, List.take_append_drop]
  · rintro calm front f back rfl
    simpa using calm front.length (by simp)

instance (e : Endpoint δ (List Callback)) (frames : List Frame) :
    Decidable (e.Undisturbed frames) :=
  decidable_of_iff _ undisturbed_iff.symm

/-- A recorder that is fed the bytes of frames dispatches those frames, one after the other. -/
theorem receives_eq (framed : e.codec.Framed) (fresh : e.codec.assembler.progress.buffer = [])
    (fits : ∀ f ∈ frames, f.length ≤ e.codec.maxFrameSize) :
    e.receives frames = e.dispatchAll .recorder frames :=
  process_eq_dispatchAll .recorder framed fits (by rw [fresh, List.nil_append])

end Endpoint

open Endpoint in
/-- Streams are independent. Take received frames that cause no fault, and of which none comes while a
header block of another stream is open. The frames of any set of streams alone yield the callbacks about
these streams, in their order, and leave the same records of them; with all streams chosen, what is left
out are the frames of the connection and of unknown kinds. Nor does the order of frames of different
streams matter: any other such order causes no fault and yields the same for each stream. -/
theorem streams_are_independent (role : Role) (maxFrameSize : Nat) (frames : List Frame) :
    let start : Endpoint δ (List Callback) := ⟨.create role maxFrameSize, []⟩
    (∀ f ∈ frames, f.length ≤ maxFrameLength) → (start.receives frames).fault = none →
      start.Undisturbed frames →
      (∀ keep : UInt32 → Bool,
        let whole := (start.receives frames).endpoint
        let excerpt := start.receives (frames.filter (·.isOf keep))
        excerpt.fault = none ∧
          excerpt.endpoint.app = whole.app.filter (fun callback => keep callback.stream) ∧
          ∀ id, keep id → excerpt.endpoint.codec.stream? id = whole.codec.stream? id) ∧
      ∀ frames', frames'.Perm frames → start.Undisturbed frames' →
        (∀ id, frames'.filter (·.isOf (· == id)) = frames.filter (·.isOf (· == id))) →
        let whole := (start.receives frames).endpoint
        let other := start.receives frames'
        other.fault = none ∧ ∀ id,
          other.endpoint.app.filter (·.stream == id) = whole.app.filter (·.stream == id) ∧
            other.endpoint.codec.stream? id = whole.codec.stream? id := by
  intro start wire fine calm
  have framed : start.codec.Framed := Codec.framed_create role maxFrameSize
  have fits : ∀ f ∈ frames, f.length ≤ start.codec.maxFrameSize :=
    fits_of_fine .recorder framed wire rfl fine
  have dispatched {gs : List Frame} (within : ∀ f ∈ gs, f ∈ frames) :
      start.receives gs = start.dispatchAll .recorder gs :=
    receives_eq framed rfl fun f member => fits f (within f member)
  have part {gs front back : List Frame} {f : Frame} (within : ∀ f ∈ gs, f ∈ frames)
      (split : gs = front ++ f :: back) : ∀ g ∈ front, g ∈ frames := fun g member =>
    within g (split ▸ List.mem_append_left _ member)
  have calm' {gs : List Frame} (within : ∀ f ∈ gs, f ∈ frames) (calm : start.Undisturbed gs)
      (front : List Frame) (f : Frame) (back : List Frame) (split : gs = front ++ f :: back) :
      (start.dispatchAll .recorder front).endpoint.codec.Calm f :=
    dispatched (part within split) ▸ calm front f back split
  have excerpt {gs : List Frame} (within : ∀ f ∈ gs, f ∈ frames) (calm : start.Undisturbed gs)
      (fine : (start.dispatchAll .recorder gs).fault = none) (keep : UInt32 → Bool) :=
    excerpt_dispatchAll (excerpt_create keep role maxFrameSize) fine (calm' within calm)
  have all : ∀ f ∈ frames, f ∈ frames := fun _ member => member
  rw [dispatched all] at fine ⊢
  refine ⟨fun keep => ?_, fun frames' perm calmOther same => ?_⟩
  · obtain ⟨fineExcerpt, related⟩ := excerpt all calm fine keep
    rw [dispatched fun f member => (List.mem_filter.mp member).1]
    exact ⟨fineExcerpt, related.heard, related.codec.same⟩
  · have within : ∀ f ∈ frames', f ∈ frames := fun f => perm.mem_iff.mp
    have fineOther : (start.dispatchAll .recorder frames').fault = none :=
      dispatchAll_fine (fun keep => excerpt_create keep role maxFrameSize) (calm' within calmOther)
        fun id => by
          rw [same id]
          exact (excerpt all calm fine (· == id)).1
    rw [dispatched within]
    refine ⟨fineOther, fun id => ?_⟩
    -- both have the run on the stream's own frames as their excerpt
    obtain ⟨-, related⟩ := excerpt all calm fine (· == id)
    obtain ⟨-, relatedOther⟩ := excerpt within calmOther fineOther (· == id)
    rw [same id] at relatedOther
    exact ⟨relatedOther.heard.symm.trans related.heard,
      (relatedOther.codec.same id (beq_self_eq_true id)).symm.trans
        (related.codec.same id (beq_self_eq_true id))⟩

/-- A server receives two requests at once, and the settings of the connection in between. -/
theorem streams_are_independent_of_second_request :
    let opening := Frame.ofParts .headers Flag.endHeaders 1 [97, 61, 98, 13, 10]
    let settings := Frame.ofParts .settings 0 1 []
    let second := Frame.ofParts .headers (Flag.endHeaders ||| Flag.endStream) 3 [99, 61, 13, 10]
    let ending := Frame.ofParts .data Flag.endStream 1 [120]
    let server : Endpoint Unit (List Callback) := ⟨.create .server 16384, []⟩
    let heard : List Callback := [.headers 1 [⟨"a", "b"⟩] false, .body 1 [120] true]
    (server.receives [opening, ending]).endpoint.app = heard ∧
      (server.receives [opening, settings, second, ending]).endpoint.app.filter (·.stream == 1) =
        heard ∧
      (server.receives [second, opening, settings, ending]).endpoint.app.filter (·.stream == 1) =
        heard := by
  intro opening settings second ending server heard
  have alone : (server.receives [opening, ending]).endpoint.app = heard := by decide +kernel
  have fine : (server.receives [opening, settings, second, ending]).fault = none := by
    decide +kernel
  have calm : server.Undisturbed [opening, settings, second, ending] := by decide +kernel
  obtain ⟨excerpts, orders⟩ := streams_are_independent .server 16384
    [opening, settings, second, ending] (by decide +kernel) fine calm
  have parts : Endpoint.isIgnored opening = false ∧ opening.stream = 1 ∧ Endpoint.isIgnored ending = false ∧
      ending.stream = 1 ∧ Endpoint.isIgnored second = false ∧ second.stream = 3 ∧
        Endpoint.isIgnored settings = true := by
    decide +kernel
  obtain ⟨heeded, first, heededLast, last, heededOther, other, ignored⟩ := parts
  have own : [opening, settings, second, ending].filter (·.isOf (· == 1)) = [opening, ending] := by
    simp [Frame.isOf, heeded, first, heededLast, last, heededOther, other, ignored]
  obtain ⟨-, told, -⟩ := excerpts (· == 1)
  rw [own] at told
  have together := told.symm.trans alone
  have swapped : [second, opening, settings, ending].Perm [opening, settings, second, ending] :=
    (List.Perm.swap opening second _).trans (.cons opening (.swap settings second _))
  have same (id : UInt32) : [second, opening, settings, ending].filter (·.isOf (· == id)) =
      [opening, settings, second, ending].filter (·.isOf (· == id)) := by
    by_cases owner : id = 1
    · simp [Frame.isOf, List.filter_cons, first, last, other, ignored, owner]
    · simp [Frame.isOf, List.filter_cons, first, last, ignored, Ne.symm owner]
  have calmOther : server.Undisturbed [second, opening, settings, ending] := by decide +kernel
  obtain ⟨-, each⟩ := orders _ swapped calmOther same
  exact ⟨alone, together, (each 1).1.trans together⟩

end Http2
