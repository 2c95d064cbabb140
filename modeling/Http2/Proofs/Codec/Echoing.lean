import Http2.Proofs.Codec.Aggregation
import Http2.Proofs.Codec.Ordering
import Http2.Proofs.Codec.Pushing

/-!
# Sending received fields on

Reading a header block refuses nothing. A record ends at CR LF and only there, so a CR or an LF that stands
alone becomes part of a name or a value, and a field with one of them is not written again. That is all
that can go wrong: `Clean` blocks give fields that can be sent on, and other blocks do not. No equals sign
gets into a name, and ill-formed UTF-8 neither makes nor hides a CR or an LF.

In a run, a stream only holds the latest frames that have come (`Leads.recent`), so the fields that are
reported are those of the frames that came last.
-/

namespace Http2

variable {δ σ : Type}

/-! ## Fields that are read -/

namespace Field

/-- A name may be sent if it has no `=` and neither half of a line end. -/
theorem nameFits_iff_not_mem {f : Field} : f.NameFits ↔
    '=' ∉ f.name.toList ∧ '\r' ∉ f.name.toList ∧ '\n' ∉ f.name.toList := by
  constructor
  · intro fits
    exact ⟨fun sign => (fits _ sign).1 rfl, fun cr => (fits _ cr).2.1 rfl,
      fun lf => (fits _ lf).2.2 rfl⟩
  · rintro ⟨sign, cr, lf⟩ ch member
    refine ⟨?_, ?_, ?_⟩ <;> rintro rfl <;> contradiction

/-- A value may be sent if it has neither half of a line end. -/
theorem valueFits_iff_not_mem {f : Field} : f.ValueFits ↔
    '\r' ∉ f.value.toList ∧ '\n' ∉ f.value.toList := by
  constructor
  · intro fits
    exact ⟨fun cr => (fits _ cr).1 rfl, fun lf => (fits _ lf).2 rfl⟩
  · rintro ⟨cr, lf⟩ ch member
    refine ⟨?_, ?_⟩ <;> rintro rfl <;> contradiction

variable {record : Bytes} {f : Field}

/-- A field comes from a record with an equals sign, and the first one is behind its name. -/
theorem exists_split (read : ofRecord? record = some f) :
    ∃ name value, record = name ++ equalsSign :: value ∧ equalsSign ∉ name ∧
      f = { name := Utf8.decode name, value := Utf8.decode value } := by
  by_cases present : equalsSign ∈ record
  · obtain ⟨name, value, rfl, absent⟩ := List.eq_append_cons_of_mem present
    rw [ofRecord?_split absent, Option.some.injEq] at read
    exact ⟨name, value, rfl, absent, read.symm⟩
  · rw [ofRecord?_of_not_mem present] at read
    cases read

/-- A name is what comes before the first `=`, and decoding brings none into it. -/
theorem not_mem_name_of_read (read : ofRecord? record = some f) : '=' ∉ f.name.toList := by
  obtain ⟨name, value, -, absent, rfl⟩ := exists_split read
  exact mt (Utf8.mem_decode (by decide) name).mp absent

/-- What is read from a record can be written exactly if the record holds no CR and no LF. -/
theorem fits_of_read (read : ofRecord? record = some f) :
    f.NameFits ∧ f.ValueFits ↔ cr ∉ record ∧ lf ∉ record := by
  obtain ⟨name, value, rfl, absent, rfl⟩ := exists_split read
  have crOther : cr ≠ equalsSign := by decide
  have lfOther : lf ≠ equalsSign := by decide
  have sign : '=' ∉ (Utf8.decode name).toList := mt (Utf8.mem_decode (by decide) name).mp absent
  have alone (bytes : Bytes) : '\r' ∈ (Utf8.decode bytes).toList ↔ cr ∈ bytes :=
    Utf8.mem_decode (by decide) bytes
  have feed (bytes : Bytes) : '\n' ∈ (Utf8.decode bytes).toList ↔ lf ∈ bytes :=
    Utf8.mem_decode (by decide) bytes
  rw [nameFits_iff_not_mem, valueFits_iff_not_mem]
  simp only [sign, alone, feed, List.mem_append, List.mem_cons, crOther, lfOther, false_or, not_or,
    not_false_eq_true, true_and]
  constructor
  · rintro ⟨⟨nameCr, nameLf⟩, valueCr, valueLf⟩
    exact ⟨⟨nameCr, valueCr⟩, nameLf, valueLf⟩
  · rintro ⟨⟨nameCr, valueCr⟩, nameLf, valueLf⟩
    exact ⟨⟨nameCr, nameLf⟩, valueCr, valueLf⟩

end Field

namespace HeaderBlock

/-- No record that is read as a field holds a CR or an LF. -/
def Clean (block : Bytes) : Prop :=
  ∀ record ∈ records block, equalsSign ∈ record → cr ∉ record ∧ lf ∉ record

instance (block : Bytes) : Decidable (Clean block) :=
  inferInstanceAs (Decidable (∀ record ∈ records block, equalsSign ∈ record → cr ∉ record ∧ lf ∉ record))

/-- A block is clean if all fields that are read from it may be sent. -/
theorem clean_iff {block : Bytes} :
    Clean block ↔ ∀ f ∈ decode block, f.NameFits ∧ f.ValueFits := by
  constructor
  · intro clean f member
    obtain ⟨record, here, read⟩ := List.mem_filterMap.mp member
    obtain ⟨name, value, rfl, -⟩ := Field.exists_split read
    exact (Field.fits_of_read read).mpr (clean _ here (by simp))
  · intro fits record here present
    obtain ⟨name, value, rfl, absent⟩ := List.eq_append_cons_of_mem present
    have read := Field.ofRecord?_split absent value
    exact (Field.fits_of_read read).mp (fits _ (List.mem_filterMap.mpr ⟨_, here, read⟩))

/-- No name that is read has an `=`. -/
theorem not_mem_name_of_mem_decode {block : Bytes} {f : Field} (member : f ∈ decode block) :
    '=' ∉ f.name.toList := by
  obtain ⟨record, -, read⟩ := List.mem_filterMap.mp member
  exact Field.not_mem_name_of_read read

/-- Something is wrong with a header list exactly if not all of its fields can be written. -/
theorem exists_firstWrong {fields : List Field} :
    (∃ fault, FirstWrong fields fault) ↔ ¬∀ f ∈ fields, f.NameFits ∧ f.ValueFits := by
  rw [← exists_encode?]
  cases written : encode? fields with
  | error fault => simpa using ⟨fault, encode?_eq_error.mp written⟩
  | ok block =>
    simp only [Except.ok.injEq, exists_eq', not_true_eq_false, iff_false, not_exists]
    intro fault wrong
    rw [encode?_eq_error.mpr wrong] at written
    cases written

end HeaderBlock

/-! ## Echoes -/

namespace Codec

variable {c c' : Codec δ} {f : Frame} {id : UInt32} {fields : List Field} {last : Bool}

/-- What a received frame leaves of header blocks: a stream holds nothing, the frame alone, or the frame
behind those that it held before. -/
theorem Outcome.fragments {callback : Option Callback} {fault : Option FrameError}
    (consistent : c.Consistent) (outcome : Outcome c f c' callback fault) (id : UInt32) :
    (c'.streams.inbound id).fragments = [] ∨ (c'.streams.inbound id).fragments = [f] ∨
      (c'.streams.inbound id).fragments = (c.streams.inbound id).fragments ++ [f] := by
  -- All streams but the owner of an open block rest, so only what is stored matters.
  have rest (id : UInt32) (other : c.openBlock? ≠ some id) : (c.streams.inbound id).fragments = [] :=
    (consistent.rests other).emptied
  have closedRest (closed : c.openBlock? = none) (id : UInt32) :
      (c.streams.inbound id).fragments = [] :=
    (consistent.rests_of_closed closed id).emptied
  have stored {s : Stream δ} (others : ∀ id, s.id ≠ id → (c.streams.inbound id).fragments = [])
      (here : s.fragments = [] ∨ s.fragments = [f] ∨
        s.fragments = (c.streams.inbound s.id).fragments ++ [f]) :
      let streams := ((c.noted f).putStream s).streams
      (streams.inbound id).fragments = [] ∨ (streams.inbound id).fragments = [f] ∨
        (streams.inbound id).fragments = (c.streams.inbound id).fragments ++ [f] := by
    intro streams
    by_cases same : s.id = id
    · subst same
      rwa [show streams.inbound s.id = s from Registry.inbound_put_of_id _ rfl]
    · left
      rw [show streams.inbound id = c.streams.inbound id from
        (Registry.inbound_put _ _ _).trans (if_neg same)]
      exact others id same
  cases outcome with
  | ignored closed => exact .inl (closedRest closed id)
  | streamZero closed => exact .inl (closedRest closed id)
  | unmoved judged | malformed judged | moved judged | body judged =>
    exact stored (fun id _ => closedRest judged.closed id) (.inl (closedRest judged.closed _))
  | rejected judged => exact stored (fun id _ => closedRest judged.closed id) (.inl rfl)
  | stray closed => exact stored (fun id _ => closedRest closed id) (.inl rfl)
  | interrupting opened =>
    refine stored (fun id other => rest id ?_) (.inl rfl)
    rw [opened]
    exact fun same => other ((Registry.id_inbound _ _).trans (Option.some.inj same))
  | opening judged accepted opens wellFormed collects =>
    refine stored (fun id _ => closedRest judged.closed id) ?_
    cases collects with
    | kept => exact .inr (.inl rfl)
    | delivered | overflowed => exact .inl rfl
  | continuing opened kind stream collects =>
    have owner : _ = f.stream := collects.id_eq.trans (Registry.id_inbound _ _)
    refine stored (fun id other => rest id ?_) ?_
    · rw [opened, ← owner]
      exact fun same => other (Option.some.inj same)
    · rw [owner]
      cases collects with
      | kept => exact .inr (.inr rfl)
      | delivered | overflowed => exact .inl rfl

/-- The fields that are reported are those of a block that ends with the frame. -/
theorem Outcome.exists_block {fault : Option FrameError} (consistent : c.Consistent)
    (outcome : Outcome c f c' (some (.headers id fields last)) fault) :
    ∃ opening continuations block, HeaderFrames opening continuations ∧ opening.stream = id ∧
      (opening :: continuations = [f] ∨
        opening :: continuations = (c.streams.inbound f.stream).fragments ++ [f]) ∧
      joinFragments (opening :: continuations) = .ok block ∧ fields = HeaderBlock.decode block := by
  cases outcome with
  | opening judged accepted opens wellFormed collects =>
    cases collects with
    | delivered small ended joined =>
      have block : HeaderFrames f [] := ⟨opens, judged.stream, nofun, nofun, ended⟩
      exact ⟨f, [], _, block, (Registry.id_inbound _ _).symm, .inl rfl, joined, rfl⟩
  | continuing opened kind stream collects =>
    cases collects with
    | delivered small ended joined =>
      obtain ⟨opening, continuations, fragments, block⟩ := consistent.partialBlock opened
      have whole : HeaderFrames opening (continuations ++ [f]) := {
        opens := block.opens
        stream := block.stream ▸ block.nonzero
        continues g member := by
          rw [block.stream]
          rcases List.mem_append.mp member with member | member
          · exact block.continues g member
          · rw [List.mem_singleton.mp member]
            exact ⟨kind, rfl⟩
        unended := by
          rw [← List.cons_append, List.dropLast_concat]
          exact block.unended
        ended := by rwa [List.getLastD_concat] }
      have frames : opening :: (continuations ++ [f]) = (c.streams.inbound f.stream).fragments ++ [f] := by
        rw [fragments, List.cons_append]
      refine ⟨opening, continuations ++ [f], _, whole, ?_, .inr frames, frames ▸ joined, rfl⟩
      exact block.stream.trans (Registry.id_inbound _ _).symm

/-- A push is refused for its header text only if the text is wrong, and then always. -/
theorem push_eq_badField {p : Push} {fault : FieldError} :
    (c.push id p).1 = .error (.badField fault) ↔ HeaderBlock.FirstWrong p.fields fault := by
  constructor
  · intro refused
    rcases c.denies_or_accepted id p with ⟨other, denies⟩ | ⟨s, next, fits, found, accepted⟩
    · rw [push_of_denies denies] at refused
      cases refused
      cases denies with
      | field wrong => exact wrong
    · rw [push_of_accepted fits found accepted] at refused
      cases refused
  · intro wrong
    rw [push_of_wrong wrong]

end Codec

/-! ## Frames that have come -/

/-- The frame that comes, if the moment is one in which a frame does. -/
def Moment.arriving? (m : Moment δ) : Option Frame :=
  match m.occurrence with
  | .received f => some f
  | _ => none

/-- The frames that have come, in order. -/
def arrivals (log : List (Moment δ)) : List Frame :=
  log.filterMap Moment.arriving?

theorem arrivals_append (log log' : List (Moment δ)) :
    arrivals (log ++ log') = arrivals log ++ arrivals log' :=
  List.filterMap_append

/-- What a stream holds of a header block are the latest frames that have come. -/
theorem Codec.Leads.recent {c c' : Codec δ} {log : List (Moment δ)} {due : Option (Moment δ)}
    (leads : Leads c log due c') (consistent : c.Consistent)
    (empty : ∀ id, (c.streams.inbound id).fragments = []) (id : UInt32) :
    (c'.streams.inbound id).fragments <:+ arrivals log := by
  induction leads with
  | nil =>
    rw [empty]
    exact List.nil_suffix
  | @perform log c' before op ih =>
    have silent : arrivals (log ++ [⟨c', .performed op (c'.perform op).1⟩]) = arrivals log := by
      rw [arrivals_append]
      exact List.append_nil _
    rw [silent]
    by_cases evicts : op = .evictClosed
    · subst evicts
      rw [Codec.perform, inbound_evictClosed]
      split
      · exact List.nil_suffix
      · exact ih
    · rwa [(block_of_edits (edits_perform c' evicts) id).2]
  | @receive log c' c'' f _ _ before outcome ih =>
    have came : arrivals (log ++ [⟨c', .received f⟩]) = arrivals log ++ [f] := arrivals_append _ _
    rw [came]
    rcases outcome.fragments (before.consistent consistent) id with held | held | held <;> rw [held]
    · exact List.nil_suffix
    · exact List.suffix_append _ _
    · exact List.suffix_append_self_iff.mpr ih
  | fail before astray ih =>
    rw [failed, putStream, Registry.inbound_put]
    split
    · exact List.nil_suffix
    · exact ih
  | @call log c' m before ih =>
    obtain ⟨-, _, _, _, rfl⟩ := follows_of_due before
    rw [arrivals_append]
    exact (List.append_nil _).symm ▸ ih
  | reassemble before a ih => exact ih

/-- The handler that sends back the fields it receives, and records the answers. -/
def Handler.echo : Handler δ (List (Except SendError Unit)) where
  onHeaders := fun replies id fields _ =>
    .call (.pushHeaders id fields false) fun (reply : Except SendError Unit) =>
      .done (replies ++ [reply])
  onBody := fun replies _ _ _ => .done replies

/-- Fields that are read from a block have no equals sign in a name. They can be written exactly if no
record that became a field holds a CR or an LF, and then they are read back as they were. In every run the
fields that are reported are those of the frames that came last, from the one that opened a header block of
the stream to the one that ended it. To push them is refused for their text exactly if that block is not
clean, on whatever codec and stream. -/
theorem clean_fields_can_be_sent_on :
    (∀ block,
      (∀ f ∈ HeaderBlock.decode block, '=' ∉ f.name.toList) ∧
      ((∃ written, HeaderBlock.encode? (HeaderBlock.decode block) = .ok written) ↔
        HeaderBlock.Clean block) ∧
      ∀ written, HeaderBlock.encode? (HeaderBlock.decode block) = .ok written →
        HeaderBlock.decode written = HeaderBlock.decode block) ∧
    ∀ (role : Role) (maxFrameSize : Nat) (h : Handler δ σ) (app : σ) (deeds : List (Deed δ σ)),
      let start : Endpoint δ σ := ⟨.create role maxFrameSize, app⟩
      ∀ before m after, start.history h deeds = before ++ m :: after →
        ∀ id fields last, m.told? = some (.headers id fields last) →
          ∃ opening continuations block, opening :: continuations <:+ arrivals before ∧
            HeaderFrames opening continuations ∧ opening.stream = id ∧
            joinFragments (opening :: continuations) = .ok block ∧
            fields = HeaderBlock.decode block ∧
            ∀ (c : Codec δ) other final,
              (∃ fault, (c.push other (.headers fields final)).1 = .error (.badField fault)) ↔
                ¬HeaderBlock.Clean block := by
  constructor
  · intro block
    refine ⟨fun f member => HeaderBlock.not_mem_name_of_mem_decode member, ?_, ?_⟩
    · rw [HeaderBlock.exists_encode?, HeaderBlock.clean_iff]
    · intro written encoded
      exact HeaderBlock.decode_of_encode? encoded
  · intro role maxFrameSize h app deeds start before m after split id fields last told
    have consistent : start.codec.Consistent := Codec.consistent_create role maxFrameSize
    have leads := Endpoint.leads_history consistent h deeds
    cases leads.follows split with
    | @called earlier arrival c' f _ _ recently outcome =>
      cases told
      subst recently
      rw [List.append_assoc] at split
      have arrived := leads.upto_received split
      have held := arrived.recent consistent (fun _ => rfl) f.stream
      obtain ⟨opening, continuations, block, whole, stream, frames, joined, rfl⟩ :=
        outcome.exists_block (arrived.consistent consistent)
      refine ⟨opening, continuations, block, ?_, whole, stream, joined, rfl, fun c other final => ?_⟩
      · rw [arrivals_append]
        rcases frames with frames | frames <;> rw [frames]
        · exact List.suffix_append _ _
        · exact List.suffix_append_self_iff.mpr held
      · simp only [Codec.push_eq_badField]
        rw [HeaderBlock.clean_iff]
        exact HeaderBlock.exists_firstWrong
    | _ => cases told

/-- A server that is sent a block with a lone CR, but in a record that is skipped, and with a byte that is
no text. -/
theorem clean_fields_can_be_sent_on_past_skipped_record :
    let block : Bytes := [120, 13, 121, 13, 10, 98, 61, 99, 61, 255, 13, 10]
    let request := Frame.ofParts .headers Flag.endHeaders 1 block
    let server : Endpoint Unit (List (Except SendError Unit)) := ⟨.create .server 16384, []⟩
    HeaderBlock.Clean block ∧
      (∃ written, HeaderBlock.encode? (HeaderBlock.decode block) = .ok written ∧
        HeaderBlock.decode written = [⟨"b", "c=\ufffd"⟩]) ∧
      ∃ m ∈ server.history .echo [.receive request.toBytes],
        m.told? = some (.headers 1 (HeaderBlock.decode block) false) ∧
        ∀ final fault, (m.codec.push 1 (.headers (HeaderBlock.decode block) final)).1 ≠
          .error (.badField fault) := by
  intro block request server
  have clean : HeaderBlock.Clean block := by decide
  have read : HeaderBlock.decode block = [⟨"b", "c=\ufffd"⟩] := by decide
  have whole := clean_fields_can_be_sent_on (δ := Unit) (σ := List (Except SendError Unit))
  obtain ⟨-, encodes, reread⟩ := whole.1 block
  obtain ⟨written, encoded⟩ := encodes.mpr clean
  refine ⟨clean, ⟨written, encoded, (reread written encoded).trans read⟩, ?_⟩
  have reported : ∃ m ∈ server.history .echo [.receive request.toBytes],
      m.told? = some (.headers 1 (HeaderBlock.decode block) false) := by decide +kernel
  obtain ⟨m, member, told⟩ := reported
  refine ⟨m, member, told, fun final fault refused => ?_⟩
  obtain ⟨before, after, split⟩ := List.append_of_mem member
  obtain ⟨opening, continuations, carried, -, -, -, -, same, refuses⟩ :=
    whole.2 .server 16384 .echo [] [.receive request.toBytes] before m after split 1 _ false told
  have dirty : ¬HeaderBlock.Clean carried := (refuses m.codec 1 final).mp ⟨fault, refused⟩
  rw [HeaderBlock.clean_iff, ← same, ← HeaderBlock.clean_iff] at dirty
  exact dirty clean

/-- A lone CR in a name and a lone LF in a value are read as they came, and a handler that sends them back
is refused. -/
theorem lone_cr_and_lf_are_not_sent_on :
    let named : Bytes := [97, 13, 98, 61, 99, 13, 10]
    let valued : Bytes := [97, 61, 98, 10, 99, 13, 10]
    let request (block : Bytes) := (Frame.ofParts .headers Flag.endHeaders 1 block).toBytes
    let server : Endpoint Unit (List (Except SendError Unit)) := ⟨.create .server 16384, []⟩
    (HeaderBlock.decode named = [⟨"a\rb", "c"⟩] ∧
      HeaderBlock.encode? (HeaderBlock.decode named) = .error (.invalidName "a\rb") ∧
      (server.process .echo (request named)).endpoint.app =
        [.error (.badField (.invalidName "a\rb"))]) ∧
    HeaderBlock.decode valued = [⟨"a", "b\nc"⟩] ∧
      HeaderBlock.encode? (HeaderBlock.decode valued) = .error (.invalidValue "a") ∧
      (server.process .echo (request valued)).endpoint.app =
        [.error (.badField (.invalidValue "a"))] := by
  decide +kernel

end Http2
