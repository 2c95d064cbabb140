import Http2.Config
import Http2.Proofs.Codec.Bounded
import Http2.Proofs.Codec.Faults

/-!
# The frame size at both ends

Two ends with the same frame size understand each other as long as resets fit: `Sized` frames are never
too large for a codec with a frame size of four or more, however their bytes are cut
(`sized_of_tooLarge`). With a smaller one, every reset is (`tooLarge_of_reset`).
-/

namespace Http2

variable {δ δ' σ τ : Type}

/-! ## Where frames end -/

namespace Frame

/-- No frame begins with the bytes of another. -/
theorem toBytes_append_inj {f g : Frame} (first : f.length ≤ maxFrameLength)
    (second : g.length ≤ maxFrameLength) {x y : Bytes} (same : f.toBytes ++ x = g.toBytes ++ y) :
    f = g ∧ x = y := by
  have lengths : f.length = g.length := by
    rw [← declaredLength_toBytes first x, same, declaredLength_toBytes second y]
  have sizes : f.toBytes.length = g.toBytes.length := by
    rw [length_toBytes, length_toBytes, lengths]
  obtain ⟨bytes, rest⟩ := List.append_inj same sizes
  refine ⟨?_, rest⟩
  rw [← ofRegion_toBytes f, bytes, ofRegion_toBytes g]

/-- If frames begin with other frames and at least one more header, then that is the header of the next
one. -/
theorem exists_next {front frames : List Frame} {rest : Bytes}
    (early : ∀ f ∈ front, f.length ≤ maxFrameLength) (all : ∀ f ∈ frames, f.length ≤ maxFrameLength)
    (spelled : front.flatMap toBytes ++ rest <+: frames.flatMap toBytes)
    (whole : frameHeaderSize ≤ rest.length) :
    ∃ f back, frames = front ++ f :: back ∧ declaredLength rest = f.length := by
  -- Both byte strings begin with the first frame of `front`, so it can be taken off both.
  induction front generalizing frames with
  | nil =>
    obtain ⟨more, spelled⟩ := spelled
    cases frames with
    | nil =>
      have empty : rest = [] := (List.append_eq_nil_iff.mp spelled).1
      rw [empty] at whole
      exact absurd whole (by decide)
    | cons f back =>
      refine ⟨f, back, rfl, ?_⟩
      rw [List.flatMap_nil, List.nil_append, List.flatMap_cons] at spelled
      rw [← declaredLength_append whole more, spelled,
        declaredLength_toBytes (all f List.mem_cons_self)]
  | cons g front ih =>
    obtain ⟨more, spelled⟩ := spelled
    rw [List.flatMap_cons, List.append_assoc, List.append_assoc] at spelled
    cases frames with
    | nil =>
      have empty := congrArg List.length spelled
      rw [List.length_append, length_toBytes, List.flatMap_nil, List.length_nil] at empty
      exact absurd empty (by simp [frameHeaderSize])
    | cons f back =>
      rw [List.flatMap_cons] at spelled
      obtain ⟨rfl, behind⟩ := toBytes_append_inj (early g List.mem_cons_self)
        (all f List.mem_cons_self) spelled
      obtain ⟨next, last, rfl, declared⟩ := ih (fun f member => early f (List.mem_cons_of_mem g member))
        (fun f member => all f (List.mem_cons_of_mem g member))
        ⟨more, (List.append_assoc _ _ _).trans behind⟩
      exact ⟨next, last, rfl, declared⟩

end Frame

/-! ## What a peer finds too large -/

namespace Endpoint

variable {h : Handler δ σ} {e : Endpoint δ σ} {f : Frame} {frames : List Frame} {size most : Nat}

/-- A codec accepts frames only up to its frame size. -/
theorem Passes.fits (passes : e.Passes h frames) : ∀ f ∈ frames, f.length ≤ e.codec.maxFrameSize := by
  induction frames generalizing e with
  | nil =>
    intro f member
    cases member
  | cons g frames ih =>
    obtain ⟨fits, -, rest⟩ := passes
    have same : ((e.completing g).dispatch h g).endpoint.codec.maxFrameSize = e.codec.maxFrameSize :=
      (sameFraming_dispatch h (e.completing g) g).maxFrameSize
    intro f member
    rcases List.mem_cons.mp member with rfl | member
    · exact fits
    · exact same ▸ ih rest f member

/-- No received frame changes the limit under which the next ones are read. -/
theorem maxFrameSize_dispatchAll (h : Handler δ σ) (e : Endpoint δ σ) (frames : List Frame) :
    (e.dispatchAll h frames).endpoint.codec.maxFrameSize = e.codec.maxFrameSize := by
  induction frames generalizing e with
  | nil => rfl
  | cons f frames ih =>
    have same : ((e.completing f).dispatch h f).endpoint.codec.maxFrameSize = e.codec.maxFrameSize :=
      (sameFraming_dispatch h (e.completing f) f).maxFrameSize
    rw [dispatchAll]
    cases failed : ((e.completing f).dispatch h f).fault with
    | none => rw [Received.andThen_of_none failed, ih, same]
    | some fault => rw [Received.andThen_of_some failed, same]

/-- Whatever comes before it, a frame that is found too large is one that was sent, and is too large. -/
theorem exists_of_tooLarge (reachable : e.codec.Reachable)
    (wire : ∀ f ∈ frames, f.length ≤ maxFrameLength) {chunks : List Bytes}
    (spelled : e.codec.assembler.progress.buffer ++ chunks.flatten <+: frames.flatMap Frame.toBytes)
    (failed : (e.processAll h chunks).fault = some (.tooLarge size most)) :
    ∃ f ∈ frames, size = f.length ∧ most = e.codec.maxFrameSize ∧ most < size := by
  have framed : e.codec.Framed := reachable.framed
  rw [processAll_eq h framed] at failed
  obtain ⟨front, rest, culprit, split, passes, stops⟩ :=
    stopsAt_of_process framed reachable.consistent failed
  have same : (e.dispatchAll h front).endpoint.codec.maxFrameSize = e.codec.maxFrameSize :=
    maxFrameSize_dispatchAll h e front
  cases stops with
  | tooLarge whole large =>
    rw [split] at spelled
    have early := fun f member => Nat.le_trans (passes.fits f member) framed.small
    obtain ⟨f, back, rfl, declared⟩ := Frame.exists_next early wire spelled whole
    exact ⟨f, List.mem_append_right front List.mem_cons_self, declared, same, large⟩
  | faulty spelled fits fatal => cases fatal

/-- Only a reset can be too large, and only for a frame size of less than four. -/
theorem sized_of_tooLarge (reachable : e.codec.Reachable)
    (sized : ∀ f ∈ frames, f.Sized e.codec.maxFrameSize) {chunks : List Bytes}
    (spelled : e.codec.assembler.progress.buffer ++ chunks.flatten <+: frames.flatMap Frame.toBytes)
    (failed : (e.processAll h chunks).fault = some (.tooLarge size most)) :
    size = 4 ∧ most = e.codec.maxFrameSize ∧ most < 4 ∧ ∃ f ∈ frames, f.kind = .rstStream := by
  have wire : ∀ f ∈ frames, f.length ≤ maxFrameLength := fun f member =>
    Nat.le_trans (sized f member).le (Nat.max_le.mpr ⟨reachable.framed.small, by decide⟩)
  obtain ⟨f, member, rfl, rfl, large⟩ := exists_of_tooLarge reachable wire spelled failed
  cases sized f member with
  | cut kind short => exact absurd short (Nat.not_le_of_lt large)
  | reset kind length =>
    rw [length] at large
    exact ⟨length, rfl, large, f, member, kind⟩

/-- A reset is too large for every frame size of less than four. -/
theorem tooLarge_of_reset (reachable : e.codec.Reachable) (h : Handler δ σ) (length : f.length = 4)
    (large : e.codec.maxFrameSize < 4) {input rest : Bytes}
    (spelled : e.codec.assembler.progress.buffer ++ input = f.toBytes ++ rest) :
    (e.process h input).fault = some (.tooLarge 4 e.codec.maxFrameSize) := by
  have declared : Frame.declaredLength (e.codec.assembler.progress.buffer ++ input) = 4 := by
    rw [spelled, Frame.declaredLength_toBytes (length ▸ by decide), length]
  have whole : frameHeaderSize ≤ (e.codec.assembler.progress.buffer ++ input).length := by
    rw [spelled, List.length_append, Frame.length_toBytes]
    omega
  have stops := Codec.StopsAt.tooLarge whole (by rwa [declared])
  rw [process_of_stopsAt reachable.framed h stops, declared]

end Endpoint

/-- Whatever is received and done, a queued frame that is no reset fits the configured frame size, and a
reset has four bytes. So a peer with the same frame size finds nothing too large that it gets of the
queued frames, in any order and cut in any way, unless the frame size is less than four and there is a
reset among them; and with such a frame size it refuses every reset. -/
theorem queued_frames_fit (config : Config) (valid : config.fault? = none) (h : Handler δ σ) (app : σ)
    (deeds : List (Deed δ σ)) :
    let start : Endpoint δ σ := ⟨.create config.role config.maxFrameSize, app⟩
    let queued := (start.history h deeds).flatMap Moment.queued
    (∀ f ∈ queued, f.Sized config.maxFrameSize) ∧
      ∀ (peer : Endpoint δ' τ) (h' : Handler δ' τ), peer.codec.Reachable →
        peer.codec.maxFrameSize = config.maxFrameSize →
        let held := peer.codec.assembler.progress.buffer
        (∀ (frames : List Frame) (chunks : List Bytes) size most, (∀ f ∈ frames, f ∈ queued) →
          held ++ chunks.flatten <+: frames.flatMap Frame.toBytes →
          (peer.processAll h' chunks).fault = some (.tooLarge size most) →
            size = 4 ∧ most = config.maxFrameSize ∧ most < 4 ∧ ∃ f ∈ frames, f.kind = .rstStream) ∧
          (config.maxFrameSize < 4 → ∀ f ∈ queued, f.kind = .rstStream → ∀ input rest,
            held ++ input = f.toBytes ++ rest →
              (peer.process h' input).fault = some (.tooLarge 4 config.maxFrameSize)) := by
  intro start queued
  have range : 1 ≤ config.maxFrameSize ∧ config.maxFrameSize ≤ maxFrameLength := by
    simp only [Config.fault?] at valid
    split at valid <;> try cases valid
    split at valid <;> try cases valid
    split at valid <;> try cases valid
    omega
  have same : start.codec.maxFrameSize = config.maxFrameSize := by
    show max 1 (min config.maxFrameSize maxFrameLength) = config.maxFrameSize
    omega
  have consistent : start.codec.Consistent := Codec.consistent_create _ _
  have sized : ∀ f ∈ queued, f.Sized config.maxFrameSize := fun f =>
    (Endpoint.leads_history consistent h deeds).sized_of_queued range.1 same
  refine ⟨sized, ?_⟩
  intro peer h' reachable equal held
  constructor
  · intro frames chunks size most among spelled failed
    rw [← equal] at sized ⊢
    exact Endpoint.sized_of_tooLarge reachable (fun f member => sized f (among f member)) spelled failed
  · intro small f member kind input rest spelled
    have length : f.length = 4 := by
      cases sized f member with
      | cut other => exact absurd kind other
      | reset _ length => exact length
    rw [← equal] at small ⊢
    exact Endpoint.tooLarge_of_reset reachable h' length small spelled

/-- A client with the smallest frame size that a reset fits, and a server that gets everything. -/
theorem queued_frames_fit_with_reset :
    let config : Config := { role := .client, maxFrameSize := 4 }
    let start : Endpoint Unit (List Callback) := ⟨.create config.role config.maxFrameSize, []⟩
    let request : List Callback → Script Unit (List Callback) := fun log =>
      .call .openStream fun _ => .call (.pushHeaders 1 [⟨"path", "/"⟩] false) fun _ =>
        .call (.pushData 1 [1, 2, 3, 4, 5] false) fun _ => .call (.pushReset 1 8) fun _ => .done log
    let queued := (start.history .recorder [.act request]).flatMap Moment.queued
    let peer : Endpoint Unit (List Callback) := ⟨.create .server config.maxFrameSize, []⟩
    config.fault? = none ∧ queued.map Frame.length = [4, 4, 4, 1, 4] ∧
      (∀ f ∈ queued, f.Sized config.maxFrameSize) ∧
      ∀ size most, (peer.processAll .recorder (queued.map Frame.toBytes)).fault ≠
        some (.tooLarge size most) := by
  intro config start request queued peer
  have valid : config.fault? = none := by decide
  obtain ⟨sized, received⟩ := queued_frames_fit config valid .recorder [] [.act request]
  refine ⟨valid, by decide +kernel, sized, fun size most failed => ?_⟩
  have spelled : (queued.map Frame.toBytes).flatten <+: queued.flatMap Frame.toBytes :=
    List.flatMap_def ▸ List.prefix_refl _
  obtain ⟨rfl, rfl, small, -⟩ := (received peer .recorder (.create .server 4) rfl).1 queued
    (queued.map Frame.toBytes) size most (fun f member => member) spelled failed
  exact absurd small (by decide)

/-- A client may be configured to cut payloads to one byte, and then resets a stream with a frame of
four, which the server refuses. -/
theorem reset_exceeds_small_limit :
    let config : Config := { role := .client, maxFrameSize := 1 }
    let start : Endpoint Unit (List Callback) := ⟨.create config.role config.maxFrameSize, []⟩
    let request : List Callback → Script Unit (List Callback) := fun log =>
      .call .openStream fun _ => .call (.pushHeaders 1 [] true) fun _ =>
        .call (.pushReset 1 8) fun _ => .done log
    let queued := (start.history .recorder [.act request]).flatMap Moment.queued
    let peer : Endpoint Unit (List Callback) := ⟨.create .server config.maxFrameSize, []⟩
    config.fault? = none ∧ queued.map Frame.length = [0, 4] ∧
      (peer.process .recorder (queued.flatMap Frame.toBytes)).fault = some (.tooLarge 4 1) := by
  decide +kernel

end Http2
