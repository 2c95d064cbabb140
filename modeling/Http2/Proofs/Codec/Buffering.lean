import Http2.Proofs.Codec.Aggregation
import Http2.Proofs.Codec.History

/-!
# What an open header block occupies

The check on the size of a header block counts payload bytes. It bounds the payload that a stream keeps,
and with it the number of kept frames that have a payload. A frame without payload is kept as well and
counts for nothing: `retained_le` has a term for such frames, and `flood` shows why it cannot go.
-/

namespace Http2

variable {δ σ : Type}

namespace Frame

/-- Whether a frame is nothing but its header. -/
def isHollow (f : Frame) : Bool :=
  f.payload.isEmpty

/-- The bytes that a list of frames occupies, headers included. -/
def wireSize (frames : List Frame) : Nat :=
  (frames.flatMap toBytes).length

/-- On the wire, every frame adds a header to the bytes of its payload. -/
theorem wireSize_eq (frames : List Frame) :
    wireSize frames = frameHeaderSize * frames.length + payloadSize frames := by
  induction frames with
  | nil => rfl
  | cons f rest ih =>
    rw [wireSize] at ih ⊢
    rw [List.flatMap_cons, List.length_append, length_toBytes, ih, List.length_cons, payloadSize,
      Nat.mul_succ]
    omega

/-- A frame that is not hollow has at least one byte of payload. -/
theorem length_le_payloadSize (frames : List Frame) :
    frames.length ≤ payloadSize frames + frames.countP isHollow := by
  induction frames with
  | nil => exact Nat.zero_le _
  | cons f rest ih =>
    rw [List.length_cons, payloadSize, List.countP_cons]
    by_cases hollow : f.isHollow
    · rw [if_pos hollow]
      omega
    · have filled : 0 < f.length := by
        rw [isHollow, List.isEmpty_iff] at hollow
        exact List.length_pos_iff.mpr hollow
      omega

/-- Frames of no payload do not count against a limit of payload bytes. -/
theorem payloadSize_eq_zero {frames : List Frame} (empty : ∀ f ∈ frames, f.length = 0) :
    payloadSize frames = 0 := by
  induction frames with
  | nil => rfl
  | cons f rest ih =>
    rw [payloadSize, empty f List.mem_cons_self, ih fun g later => empty g (List.mem_cons_of_mem f later)]

end Frame

/-! ## What the check bounds -/

/-- The frames that a stream keeps of an incomplete header block. -/
theorem Codec.Consistent.payloadSize_le {c : Codec δ} (consistent : c.Consistent) (id : UInt32) :
    Frame.payloadSize (c.streams.inbound id).fragments ≤ maxHeaderBlockSize := by
  by_cases awaits : c.Awaits id
  · obtain ⟨opening, continuations, fragments, block⟩ := consistent.gathered id awaits
    rw [fragments]
    exact block.small
  · rw [consistent.emptied id awaits]
    exact Nat.zero_le _

/-- The payload that a stream keeps of a header block is within the limit, so the frames with a
payload are at most as many as the limit has bytes. What the kept frames occupy is bounded by these and
the headers of those that have none. -/
theorem retained_le {c : Codec δ} (reachable : c.Reachable) (id : UInt32) :
    let kept := (c.streams.inbound id).fragments
    Frame.payloadSize kept ≤ maxHeaderBlockSize ∧
      kept.length ≤ maxHeaderBlockSize + kept.countP Frame.isHollow ∧
      Frame.wireSize kept ≤
        (frameHeaderSize + 1) * maxHeaderBlockSize + frameHeaderSize * kept.countP Frame.isHollow := by
  intro kept
  have payload : Frame.payloadSize kept ≤ maxHeaderBlockSize := reachable.consistent.payloadSize_le id
  have count : kept.length ≤ maxHeaderBlockSize + kept.countP Frame.isHollow :=
    Nat.le_trans (Frame.length_le_payloadSize kept) (Nat.add_le_add_right payload _)
  refine ⟨payload, count, ?_⟩
  calc Frame.wireSize kept
      = frameHeaderSize * kept.length + Frame.payloadSize kept := Frame.wireSize_eq kept
    _ ≤ frameHeaderSize * (maxHeaderBlockSize + kept.countP Frame.isHollow) + maxHeaderBlockSize :=
        Nat.add_le_add (Nat.mul_le_mul_left _ count) payload
    _ = (frameHeaderSize + 1) * maxHeaderBlockSize +
          frameHeaderSize * kept.countP Frame.isHollow := by
        rw [Nat.mul_add, Nat.add_mul, Nat.one_mul]
        omega

/-! ## Frames without payload -/

/-- The opening frame of a header block and CONTINUATIONs of it, all hollow, none of which ends it. -/
def flood (count : Nat) : List Frame :=
  .ofParts .headers 0 1 [] :: List.replicate count (.ofParts .continuation 0 1 [])

theorem length_of_mem_flood {count : Nat} {f : Frame} (member : f ∈ flood count) : f.length = 0 := by
  rw [flood, List.mem_cons, List.mem_replicate] at member
  rcases member with rfl | ⟨-, rfl⟩ <;> rfl

/-- However long the flood is, it carries no payload. -/
theorem payloadSize_flood (count : Nat) : Frame.payloadSize (flood count) = 0 :=
  Frame.payloadSize_eq_zero fun _ => length_of_mem_flood

/-- On the wire, the flood grows with every frame of it. -/
theorem wireSize_flood (count : Nat) :
    Frame.wireSize (flood count) = frameHeaderSize * (count + 1) := by
  rw [Frame.wireSize_eq, payloadSize_flood, flood, List.length_cons, List.length_replicate,
    Nat.add_zero]

/-- A fresh server keeps all frames of a flood, whatever its limits. -/
theorem Endpoint.process_flood (h : Handler δ σ) (app : σ) (limit count : Nat) :
    ∃ last, (⟨.create .server limit, app⟩ : Endpoint δ σ).process h
        ((flood count).flatMap Frame.toBytes) =
      { endpoint := ⟨(Codec.create .server limit).gathering 1 .opened (flood count) last, app⟩ } := by
  have continues : ∀ f ∈ List.replicate count (Frame.ofParts .continuation 0 1 []),
      f.kind = .continuation ∧ f.stream = (Frame.ofParts .headers 0 1 []).stream := by
    intro f member
    obtain rfl := (List.mem_replicate.mp member).2
    decide
  have unended : ∀ f ∈ flood count, f.hasFlag Flag.endHeaders = false := by
    intro f member
    rw [flood, List.mem_cons, List.mem_replicate] at member
    rcases member with rfl | ⟨-, rfl⟩ <;> rfl
  have accepted : ((Codec.create .server limit : Codec δ).streams.inbound
      (Frame.ofParts .headers 0 1 []).stream).state.transition .inbound
        (Frame.ofParts .headers 0 1 []).kind (Frame.ofParts .headers 0 1 []).flags =
          .accept .opened := by
    simp [Codec.create, Registry.inbound]
    decide
  have wellFormed : (Frame.ofParts .headers 0 1 []).fragment = .ok [] := by
    have unpadded : (Frame.ofParts .headers 0 1 []).hasFlag Flag.padded = false := by decide
    have weightless : (Frame.ofParts .headers 0 1 []).hasFlag Flag.priority = false := by decide
    simp [Frame.fragment, Frame.unpadded, unpadded, weightless]
    rfl
  have small : Frame.payloadSize (flood count) ≤ maxHeaderBlockSize := by
    rw [payloadSize_flood]
    exact Nat.zero_le _
  obtain ⟨last, -, gathered⟩ := Endpoint.dispatchAll_unended (c := .create .server limit) h app
    rfl (.inl rfl) (by decide) accepted wellFormed continues unended small
  refine ⟨last, ?_⟩
  rw [Endpoint.process_eq_dispatchAll h (Codec.framed_create .server limit)
    (fun f member => length_of_mem_flood member ▸ Nat.zero_le _) rfl]
  exact gathered

/-- A flood can be kept. -/
theorem exists_reachable_flood (limit count : Nat) :
    ∃ c : Codec Unit, c.Reachable ∧ c.maxFrameSize = (Codec.create .server limit : Codec Unit).maxFrameSize ∧
      (c.streams.inbound 1).fragments = flood count := by
  obtain ⟨last, kept⟩ := Endpoint.process_flood (.recorder : Handler Unit _) [] limit count
  refine ⟨(Codec.create .server limit).gathering 1 .opened (flood count) last, ?_, rfl, ?_⟩
  · have reachable := Codec.Reachable.process (.create .server limit) (.recorder : Handler Unit _) []
      ((flood count).flatMap Frame.toBytes)
    rwa [kept] at reachable
  · rw [Codec.inbound_gathering]

/-- Two hollow frames on a fresh server. -/
theorem retained_le_of_hollow_block :
    let c := ((⟨.create .server 16384, []⟩ : Endpoint Unit (List Callback)).process .recorder
      ((flood 1).flatMap Frame.toBytes)).endpoint.codec
    let kept := (c.streams.inbound 1).fragments
    c.Reachable ∧ Frame.wireSize kept = 18 ∧ kept.countP Frame.isHollow = 2 ∧
      Frame.wireSize kept ≤
        (frameHeaderSize + 1) * maxHeaderBlockSize + frameHeaderSize * kept.countP Frame.isHollow := by
  intro c kept
  have reachable : c.Reachable := .process (.create .server 16384) .recorder [] _
  exact ⟨reachable, by decide +kernel, by decide +kernel, (retained_le reachable 1).2.2⟩

/-- No bound on what a stream keeps depends on the limits of block and frame alone. -/
theorem not_exists_retained_bound :
    ¬∃ bound : Nat → Nat → Nat, ∀ c : Codec Unit, c.Reachable → ∀ id,
      Frame.wireSize (c.streams.inbound id).fragments ≤ bound maxHeaderBlockSize c.maxFrameSize := by
  rintro ⟨bound, bounded⟩
  let limit := (Codec.create .server 16384 : Codec Unit).maxFrameSize
  obtain ⟨c, reachable, size, fragments⟩ :=
    exists_reachable_flood 16384 (bound maxHeaderBlockSize limit)
  have kept := bounded c reachable 1
  rw [fragments, wireSize_flood, size] at kept
  have frameHeaderSize_pos : 0 < frameHeaderSize := by decide
  exact absurd (Nat.lt_of_lt_of_le (Nat.lt_succ_self _) (Nat.le_mul_of_pos_left _ frameHeaderSize_pos))
    (Nat.not_lt.mpr kept)

end Http2
