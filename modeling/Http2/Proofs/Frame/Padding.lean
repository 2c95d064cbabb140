import Http2.Frame.Payload

/-!
# What a payload carries

`Carries` and `Conveys` say where the content of a payload and a piece of a header block stand in it.
Stripping finds exactly these (`unpadded_eq_ok_iff`, `fragment_eq_ok_iff`), and it fails exactly where
there is nothing to find. `pad` and `wrap` put around a content what the flags of a frame announce, and
stripping takes it off again.
-/

namespace Http2.Frame

variable {f : Frame} {content piece : Bytes} {fault : FrameError}

/-! ## Padding -/

/-- The content of a payload: all of it, or what stands between a pad length and that many bytes of
padding. -/
inductive Carries (f : Frame) : Bytes → Prop
  | plain (plain : (f.kind.isPaddable && f.hasFlag Flag.padded) = false) : Carries f f.payload
  | padded {pad : UInt8} {content padding : Bytes}
      (padded : (f.kind.isPaddable && f.hasFlag Flag.padded) = true)
      (payload : f.payload = pad :: (content ++ padding)) (size : padding.length = pad.toNat) :
      Carries f content

/-- What stripping gives is what stands between pad length and padding. -/
theorem carries_of_unpadded (found : f.unpadded = .ok content) : f.Carries content := by
  unfold unpadded at found
  split at found
  · rename_i padded
    split at found
    · cases found
    · rename_i pad rest payload
      split at found
      · cases found
        let kept := rest.length - pad.toNat
        have joined : f.payload = pad :: (rest.take kept ++ rest.drop kept) := by
          rw [List.take_append_drop, payload]
        have size : (rest.drop kept).length = pad.toNat := by
          rw [List.length_drop]
          omega
        exact .padded padded joined size
      · cases found
  · rename_i plain
    cases found
    exact .plain (Bool.eq_false_iff.mpr plain)

/-- What stands between pad length and padding is what stripping gives. -/
theorem Carries.unpadded (carries : f.Carries content) : f.unpadded = .ok content := by
  cases carries with
  | plain plain => simp only [Frame.unpadded, plain, Bool.false_eq_true, if_false]
  | @padded pad _ padding padded payload size =>
    have fits : pad.toNat ≤ (content ++ padding).length := by
      rw [List.length_append]
      omega
    have cut : (content ++ padding).length - pad.toNat = content.length := by
      rw [List.length_append]
      omega
    simp only [Frame.unpadded, padded, payload, fits, cut, if_true, List.take_left]

/-- Stripping the padding finds the content. -/
theorem unpadded_eq_ok_iff : f.unpadded = .ok content ↔ f.Carries content :=
  ⟨carries_of_unpadded, Carries.unpadded⟩

/-- A payload has one content. -/
theorem Carries.eq {other : Bytes} (carries : f.Carries content) (also : f.Carries other) :
    content = other :=
  Except.ok.inj (carries.unpadded.symm.trans also.unpadded)

/-- Padding that does not fit is the only fault of stripping it. -/
theorem eq_invalidPadding (failed : f.unpadded = .error fault) : fault = .invalidPadding f.kind := by
  unfold Frame.unpadded at failed
  split at failed
  · split at failed
    · exact (Except.error.inj failed).symm
    · split at failed
      · cases failed
      · exact (Except.error.inj failed).symm
  · cases failed

/-- Stripping the padding fails where there is no content. -/
theorem unpadded_eq_error_iff :
    f.unpadded = .error fault ↔
      fault = .invalidPadding f.kind ∧ ¬∃ content, f.Carries content := by
  constructor
  · intro failed
    refine ⟨eq_invalidPadding failed, fun ⟨content, carries⟩ => ?_⟩
    rw [carries.unpadded] at failed
    cases failed
  · rintro ⟨rfl, missing⟩
    cases stripped : f.unpadded with
    | ok content => exact absurd ⟨content, carries_of_unpadded stripped⟩ missing
    | error fault => rw [eq_invalidPadding stripped]

/-! ## Priority data -/

/-- Whether priority data precedes the piece of a header block. -/
def isWeighted (f : Frame) : Bool :=
  f.kind = .headers && f.hasFlag Flag.priority

/-- The piece of a header block in a payload: its content, without the priority data if it has any. -/
inductive Conveys (f : Frame) : Bytes → Prop
  | plain {piece : Bytes} (carries : f.Carries piece) (plain : f.isWeighted = false) :
      Conveys f piece
  | weighted {priority piece : Bytes} (carries : f.Carries (priority ++ piece))
      (weighted : f.isWeighted = true) (size : priority.length = prioritySize) : Conveys f piece

/-- Of the content, a weighted frame leaves out the priority data, or has too little for it. -/
theorem fragment_eq_of_carries (carries : f.Carries content) :
    f.fragment =
      if f.isWeighted then
        if prioritySize ≤ content.length then .ok (content.drop prioritySize)
        else .error (.invalidPriority f.kind)
      else .ok content := by
  simp only [fragment, carries.unpadded]
  rfl

/-- Stripping padding and priority data finds the piece. -/
theorem fragment_eq_ok_iff : f.fragment = .ok piece ↔ f.Conveys piece := by
  constructor
  · intro found
    cases stripped : f.unpadded with
    | error fault =>
      simp only [fragment, stripped] at found
      cases found
    | ok content =>
      have carries := carries_of_unpadded stripped
      rw [fragment_eq_of_carries carries] at found
      split at found
      · rename_i weighted
        split at found
        · rename_i enough
          cases found
          have size : (content.take prioritySize).length = prioritySize :=
            List.length_take_of_le enough
          rw [← List.take_append_drop prioritySize content] at carries
          exact .weighted carries weighted size
        · cases found
      · rename_i plain
        cases found
        exact .plain carries (Bool.eq_false_iff.mpr plain)
  · intro conveys
    cases conveys with
    | plain carries plain =>
      rw [fragment_eq_of_carries carries, plain]
      rfl
    | @weighted priority _ carries weighted size =>
      have enough : prioritySize ≤ (priority ++ piece).length := by
        rw [List.length_append]
        omega
      rw [fragment_eq_of_carries carries, if_pos weighted, if_pos enough, ← size, List.drop_left]

/-- Stripping fails where there is no content, or too little of it for the priority data. -/
theorem fragment_eq_error_iff :
    f.fragment = .error fault ↔
      (fault = .invalidPadding f.kind ∧ ¬∃ content, f.Carries content) ∨
      (fault = .invalidPriority f.kind ∧ f.isWeighted = true ∧
        ∃ content, f.Carries content ∧ content.length < prioritySize) := by
  cases stripped : f.unpadded with
  | error padding =>
    obtain ⟨rfl, missing⟩ := unpadded_eq_error_iff.mp stripped
    simp only [fragment, stripped, Except.error.injEq]
    constructor
    · rintro rfl
      exact .inl ⟨rfl, missing⟩
    · rintro (⟨rfl, -⟩ | ⟨-, -, content, carries, -⟩)
      · rfl
      · exact absurd ⟨content, carries⟩ missing
  | ok content =>
    have carries := carries_of_unpadded stripped
    rw [fragment_eq_of_carries carries]
    constructor
    · intro failed
      split at failed
      · rename_i weighted
        split at failed
        · cases failed
        · exact .inr ⟨(Except.error.inj failed).symm, weighted, content, carries, by omega⟩
      · cases failed
    · rintro (⟨-, missing⟩ | ⟨rfl, weighted, other, also, short⟩)
      · exact absurd ⟨content, carries⟩ missing
      · obtain rfl := carries.eq also
        rw [if_pos weighted, if_neg (Nat.not_le_of_lt short)]

/-! ## Sizes -/

/-- The number of bytes in a payload around the piece of a header block: pad length, padding and
priority data. -/
def wrapping (f : Frame) : Nat :=
  (if f.kind.isPaddable && f.hasFlag Flag.padded then 1 + (f.payload.headD 0).toNat else 0) +
    if f.isWeighted then prioritySize else 0

/-- A pad length, 255 bytes of padding and five of priority data are the most there is around a piece. -/
theorem wrapping_le (f : Frame) : f.wrapping ≤ 261 := by
  have pad := (f.payload.headD 0).toNat_lt
  unfold wrapping prioritySize
  split <;> split <;> omega

/-- A payload is pad length, padding and content. -/
theorem Carries.length_eq (carries : f.Carries content) :
    f.length =
      (if f.kind.isPaddable && f.hasFlag Flag.padded then 1 + (f.payload.headD 0).toNat else 0) +
        content.length := by
  cases carries with
  | plain plain =>
    rw [if_neg (by rw [plain]; exact Bool.false_ne_true), Nat.zero_add]
    rfl
  | padded padded payload size =>
    rw [if_pos padded, length, payload, List.length_cons, List.length_append, List.headD_cons]
    omega

/-- A payload is the piece of a header block and what is around it. -/
theorem Conveys.length_eq (conveys : f.Conveys piece) : f.length = f.wrapping + piece.length := by
  unfold wrapping
  cases conveys with
  | plain carries plain =>
    rw [carries.length_eq, if_neg (c := f.isWeighted = true) (by rw [plain]; exact Bool.false_ne_true)]
    rfl
  | weighted carries weighted size =>
    rw [carries.length_eq, if_pos (c := f.isWeighted = true) weighted, List.length_append, size]
    omega

/-! ## Wrapping -/

/-- The frame with another content in its payload, padded if the flags say so. -/
def pad (f : Frame) (padding content : Bytes) : Frame :=
  let padded := UInt8.ofNat padding.length :: (content ++ padding)
  { f with payload := if f.kind.isPaddable && f.hasFlag Flag.padded then padded else content }

/-- The frame with another piece of a header block in its payload, behind priority data and padded if the
flags say so. -/
def wrap (f : Frame) (priority padding piece : Bytes) : Frame :=
  f.pad padding (if f.isWeighted then priority ++ piece else piece)

/-- Every number of padding bytes that fits the pad length is found again. -/
theorem carries_pad (f : Frame) {padding : Bytes} (short : padding.length ≤ 255) (content : Bytes) :
    (f.pad padding content).Carries content := by
  cases padded : f.kind.isPaddable && f.hasFlag Flag.padded with
  | false =>
    have payload : (f.pad padding content).payload = content := by
      simp only [pad, padded, Bool.false_eq_true, if_false]
    have plain := Carries.plain (f := f.pad padding content) padded
    rwa [payload] at plain
  | true =>
    have size : padding.length = (UInt8.ofNat padding.length).toNat := by
      rw [UInt8.toNat_ofNat']
      omega
    have payload : (f.pad padding content).payload =
        UInt8.ofNat padding.length :: (content ++ padding) := by
      simp only [pad, padded, if_true]
    exact .padded padded payload size

/-- A piece that is wrapped is the one that the frame conveys. -/
theorem conveys_wrap (f : Frame) {priority padding : Bytes} (weight : priority.length = prioritySize)
    (short : padding.length ≤ 255) (piece : Bytes) :
    (f.wrap priority padding piece).Conveys piece := by
  cases weighted : f.isWeighted with
  | false =>
    have carries : (f.wrap priority padding piece).Carries piece := by
      simpa only [wrap, weighted, Bool.false_eq_true, if_false] using f.carries_pad short piece
    exact .plain carries weighted
  | true =>
    have carries : (f.wrap priority padding piece).Carries (priority ++ piece) := by
      simpa only [wrap, weighted, if_true] using f.carries_pad short (priority ++ piece)
    exact .weighted carries weighted weight

/-! ## Exactness -/

/-- A pad length, a content, and as many bytes of padding. -/
def Encloses (payload content : Bytes) : Prop :=
  ∃ (pad : UInt8) (padding : Bytes),
    payload = [pad] ++ content ++ padding ∧ padding.length = pad.toNat

/-- Three kinds of frames may be padded. -/
theorem isPaddable_iff {kind : FrameKind} :
    kind.isPaddable = true ↔ kind = .data ∨ kind = .headers ∨ kind = .pushPromise := by
  cases kind <;> simp [FrameKind.isPaddable]

/-- Only HEADERS may have priority data, and only if the flag says so. -/
theorem isWeighted_iff :
    f.isWeighted = true ↔ f.kind = .headers ∧ f.hasFlag Flag.priority = true := by
  simp [isWeighted]

/-- A padded payload carries what its pad length and padding enclose. -/
theorem carries_iff_encloses (padded : (f.kind.isPaddable && f.hasFlag Flag.padded) = true) :
    f.Carries content ↔ Encloses f.payload content := by
  constructor
  · intro carries
    cases carries with
    | plain plain => exact absurd (padded.symm.trans plain) Bool.noConfusion
    | padded _ payload size => exact ⟨_, _, payload, size⟩
  · rintro ⟨pad, padding, payload, size⟩
    exact .padded padded payload size

/-- Without priority data, a piece of a header block is all of the content. -/
theorem fragment_of_unweighted (plain : f.isWeighted = false) : f.fragment = f.unpadded := by
  cases stripped : f.unpadded with
  | error fault => simp only [fragment, stripped]
  | ok content => simp [fragment_eq_of_carries (carries_of_unpadded stripped), plain]

/-- From a weighted frame a piece is read if its content has room for the priority data. -/
theorem fragment_eq_ok_of_weighted (weighted : f.isWeighted = true) :
    f.fragment = .ok piece ↔
      ∃ content, f.unpadded = .ok content ∧ prioritySize ≤ content.length ∧
        piece = content.drop prioritySize := by
  constructor
  · intro found
    cases fragment_eq_ok_iff.mp found with
    | plain _ plain => exact absurd (weighted.symm.trans plain) Bool.noConfusion
    | @weighted priority _ carries _ size =>
      refine ⟨priority ++ piece, carries.unpadded, ?_, ?_⟩
      · rw [List.length_append]
        omega
      · rw [← size, List.drop_left]
  · rintro ⟨content, stripped, enough, rfl⟩
    rw [fragment_eq_of_carries (carries_of_unpadded stripped), if_pos weighted, if_pos enough]

/-- The padding is looked at first. -/
theorem fragment_eq_error_of_weighted (weighted : f.isWeighted = true) :
    f.fragment = .error fault ↔ f.unpadded = .error fault ∨
      fault = .invalidPriority f.kind ∧
        ∃ content, f.unpadded = .ok content ∧ content.length < prioritySize := by
  rw [fragment_eq_error_iff, ← unpadded_eq_error_iff]
  simp only [weighted, true_and, unpadded_eq_ok_iff]

/-- Of a padded payload, stripping gives what it encloses, and it fails where it encloses nothing; any other
payload it gives as it is. Of a header block, it gives what the content has behind its priority data, and it
fails if the padding does or if there are too few bytes for that. So it undoes every wrapping. -/
theorem stripping_is_exact (f : Frame) :
    (if (f.kind = .data ∨ f.kind = .headers ∨ f.kind = .pushPromise) ∧
        f.hasFlag Flag.padded = true then
      (∀ content, f.unpadded = .ok content ↔ Encloses f.payload content) ∧
      (∀ fault, f.unpadded = .error fault ↔
        fault = .invalidPadding f.kind ∧ ¬∃ content, Encloses f.payload content)
    else f.unpadded = .ok f.payload) ∧
    (if f.kind = .headers ∧ f.hasFlag Flag.priority = true then
      (∀ piece, f.fragment = .ok piece ↔
        ∃ content, f.unpadded = .ok content ∧ 5 ≤ content.length ∧ piece = content.drop 5) ∧
      (∀ fault, f.fragment = .error fault ↔ f.unpadded = .error fault ∨
        fault = .invalidPriority f.kind ∧ ∃ content, f.unpadded = .ok content ∧ content.length < 5)
    else f.fragment = f.unpadded) ∧
    ∀ padding : Bytes, padding.length ≤ 255 →
      (∀ content, (f.pad padding content).unpadded = .ok content) ∧
      ∀ priority : Bytes, priority.length = 5 →
        ∀ piece, (f.wrap priority padding piece).fragment = .ok piece := by
  refine ⟨?padding, ?priority, fun padding short => ⟨fun content => ?_, fun priority weight piece => ?_⟩⟩
  case padding =>
    split
    · rename_i announced
      have padded : (f.kind.isPaddable && f.hasFlag Flag.padded) = true := by
        rw [isPaddable_iff.mpr announced.1, announced.2, Bool.and_true]
      simp only [unpadded_eq_ok_iff, unpadded_eq_error_iff, carries_iff_encloses padded, implies_true,
        and_self]
    · rename_i unannounced
      apply Carries.unpadded
      apply Carries.plain
      rw [← Bool.not_eq_true, Bool.and_eq_true, isPaddable_iff]
      exact unannounced
  case priority =>
    split
    · rename_i announced
      have weighted := isWeighted_iff.mpr announced
      exact ⟨fun piece => fragment_eq_ok_of_weighted weighted,
        fun fault => fragment_eq_error_of_weighted weighted⟩
    · rename_i unannounced
      apply fragment_of_unweighted
      rwa [← Bool.not_eq_true, isWeighted_iff]
  · exact (f.carries_pad short content).unpadded
  · exact fragment_eq_ok_iff.mpr (f.conveys_wrap weight short piece)

/-- A header block with both around it, and a pad length that is one too large. -/
theorem stripping_is_exact_on_padded_headers :
    let headers : Frame := { code := 1, flags := 0x28, word := 1, payload := [] }
    let wrapped : Frame := { headers with payload := [2, 0, 0, 0, 0, 15, 97, 61, 7, 7] }
    let overlong : Frame := { headers with payload := [3, 7, 7] }
    headers.wrap [0, 0, 0, 0, 15] [7, 7] [97, 61] = wrapped ∧ wrapped.fragment = .ok [97, 61] ∧
      wrapped.unpadded = .ok [0, 0, 0, 0, 15, 97, 61] ∧
      overlong.fragment = .error (.invalidPadding .headers) := by
  intro headers wrapped overlong
  have spelled : headers.wrap [0, 0, 0, 0, 15] [7, 7] [97, 61] = wrapped := by decide
  have padded : headers.pad [7, 7] [0, 0, 0, 0, 15, 97, 61] = wrapped := by decide
  obtain ⟨-, -, undone⟩ := stripping_is_exact headers
  obtain ⟨content, piece⟩ := undone [7, 7] (by decide)
  refine ⟨spelled, spelled ▸ piece [0, 0, 0, 0, 15] rfl [97, 61], padded ▸ content _, ?_⟩
  obtain ⟨stripped, weighed, -⟩ := stripping_is_exact overlong
  rw [if_pos (by decide)] at stripped weighed
  refine (weighed.2 _).mpr (.inl ((stripped.2 _).mpr ⟨by decide, ?_⟩))
  rintro ⟨content, pad, padding, payload, size⟩
  obtain ⟨rfl, rest⟩ := List.cons.inj payload
  have short := congrArg List.length rest
  simp [size] at short

end Http2.Frame
