import Http2.Proofs.Checked.Basic
import Http2.Proofs.HeaderBlock.Records

/-!
# Header blocks, with every access checked

`Checked.decode` looks for line ends and equals signs and cuts the block there, by position, until
nothing is left. `HeaderBlock.decode` takes the same block byte by byte; both find the same fields. A
field list is written into a buffer whose size is counted beforehand.
-/

namespace Http2

namespace Checked

/-- The position of the first CR LF. -/
def lineEnd? : Bytes → Option Nat
  | a :: b :: rest => if a = cr ∧ b = lf then some 0 else (lineEnd? (b :: rest)).map (· + 1)
  | _ => none

/-- The first record of a block, without its line end, and the bytes after it. -/
def cutRecord (block : Bytes) : Checked (Bytes × Bytes) :=
  match lineEnd? block with
  | some position =>
    return (← slice block 0 position, ← sliceFrom block (← add wordLimit position 2))
  | none => return (block, ← sliceFrom block block.length)

/-- The field of a record, if it has an equals sign. -/
def cutField (record : Bytes) : Checked (Option Field) :=
  match record.findIdx? (· == equalsSign) with
  | some position =>
    return some {
      name := Utf8.decode (← slice record 0 position)
      value := Utf8.decode (← sliceFrom record (← add wordLimit position 1)) }
  | none => return none

/-- The fields of a block. -/
def decode (block : Bytes) : Checked (List Field) :=
  if block = [] then return []
  else do
    let (record, rest) ← cutRecord block
    let field ← cutField record
    return field.toList ++ (← again rest.length block.length fun _ => decode rest)
termination_by block.length

/-- The bytes that a written field takes, counted in words with `limit` values. -/
def recordLength (limit : Nat) (f : Field) : Checked Nat := do
  let name ← add limit (Utf8.encode f.name).length 1
  let content ← add limit name (Utf8.encode f.value).length
  add limit content 2

/-- The bytes that a field takes in memory: its texts, and at least 24 bytes that refer to them. -/
def footprint (f : Field) : Nat :=
  24 + (Utf8.encode f.name).length + (Utf8.encode f.value).length

/-- The number of values of a word that counts bytes, on a machine that holds the fields. -/
def spaceOf (fields : List Field) : Nat :=
  max wordLimit (total (fields.map footprint) + 1)

/-- The bytes that the block of a field list takes. -/
def capacity (fields : List Field) : Checked Nat := do
  sum (spaceOf fields) (← fields.mapM (recordLength (spaceOf fields)))

/-- The block of a field list, or what is wrong with the first bad field. -/
def encode (fields : List Field) : Checked (Except FieldError Bytes) := do
  let _ ← capacity fields
  return HeaderBlock.encode? fields

end Checked

open HeaderBlock (Unended Cuts)

namespace Checked

/-- Where the search finds nothing, no two bytes are CR and LF. -/
theorem unended_of_lineEnd? {line : Bytes} (absent : lineEnd? line = none) : Unended line := by
  induction line with
  | nil => exact HeaderBlock.unended_nil
  | cons a line ih =>
    cases line with
    | nil => exact HeaderBlock.unended_singleton a
    | cons b rest =>
      rw [lineEnd?] at absent
      split at absent
      · cases absent
      · rename_i apart
        rw [Option.map_eq_none_iff] at absent
        exact HeaderBlock.unended_cons_cons.mpr ⟨apart, ih absent⟩

/-- The search finds the first CR LF: there is none in front of it. -/
theorem exists_of_lineEnd? {block : Bytes} {position : Nat} (found : lineEnd? block = some position) :
    ∃ front back, block = front ++ cr :: lf :: back ∧ front.length = position ∧ Unended front := by
  induction block generalizing position with
  | nil => cases found
  | cons a block ih =>
    cases block with
    | nil => cases found
    | cons b rest =>
      rw [lineEnd?] at found
      split at found
      · rename_i ends
        obtain ⟨rfl, rfl⟩ := ends
        cases found
        exact ⟨[], rest, rfl, rfl, HeaderBlock.unended_nil⟩
      · rename_i apart
        obtain ⟨later, foundLater, rfl⟩ := Option.map_eq_some_iff.mp found
        obtain ⟨front, back, split, rfl, unended⟩ := ih foundLater
        exact ⟨a :: front, back, by rw [split, List.cons_append], rfl, unended.longer apart split⟩

/-- The record in front of a CR LF is cut without a trap, and the two bytes after it are skipped. -/
theorem cutRecord_of_lineEnd {front back : Bytes}
    (fits : (front ++ cr :: lf :: back).length < wordLimit)
    (found : lineEnd? (front ++ cr :: lf :: back) = some front.length) :
    cutRecord (front ++ cr :: lf :: back) = pure (front, back) := by
  have size : (front ++ cr :: lf :: back).length = front.length + 2 + back.length := by
    simp
    omega
  rw [size] at fits
  have record : slice (front ++ cr :: lf :: back) 0 front.length = pure front := by
    rw [slice_eq (Nat.zero_le _) (by omega), List.take_left, List.drop_zero]
  have rest : sliceFrom (front ++ cr :: lf :: back) (front.length + 2) = pure back := by
    rw [sliceFrom_eq (by omega), List.drop_length_add_append]
    rfl
  simp only [cutRecord, found]
  rw [record, pure_bind, add_eq (by omega), pure_bind, rest, pure_bind]

/-- A block that fits a word is cut where it can be. -/
theorem exists_cutRecord {block : Bytes} (fits : block.length < wordLimit) :
    ∃ record rest, cutRecord block = pure (record, rest) ∧ Cuts block record rest := by
  cases found : lineEnd? block with
  | none =>
    refine ⟨block, [], ?_, .whole (unended_of_lineEnd? found)⟩
    simp only [cutRecord, found]
    rw [sliceFrom_eq (Nat.le_refl _), List.drop_length]
    rfl
  | some position =>
    obtain ⟨front, back, rfl, rfl, unended⟩ := exists_of_lineEnd? found
    exact ⟨front, back, cutRecord_of_lineEnd fits found, .ended unended back⟩

/-- The search finds the first `=`: the name in front of it has none. -/
theorem exists_of_findIdx? {record : Bytes} {position : Nat}
    (found : record.findIdx? (· == equalsSign) = some position) :
    ∃ name value, record = name ++ equalsSign :: value ∧ name.length = position ∧
      ∀ byte ∈ name, (byte != equalsSign) = true := by
  obtain ⟨inside, here, before⟩ := List.findIdx?_eq_some_iff_getElem.mp found
  refine ⟨record.take position, record.drop (position + 1), ?_, List.length_take_of_le
    (Nat.le_of_lt inside), ?_⟩
  · rw [← eq_of_beq here, ← List.drop_eq_getElem_cons inside, List.take_append_drop]
  · intro byte member
    obtain ⟨i, bound, rfl⟩ := List.mem_take_iff_getElem.mp member
    simpa using before i (Nat.lt_of_lt_of_le bound (Nat.min_le_left _ _))

/-- A record is cut at its first equals sign. -/
theorem cutField_eq {record : Bytes} (fits : record.length < wordLimit) :
    cutField record = pure (Field.ofRecord? record) := by
  unfold cutField Field.ofRecord?
  cases found : record.findIdx? (· == equalsSign) with
  | none =>
    have stops : ∀ byte ∈ record, (byte != equalsSign) = true := by
      simpa using List.findIdx?_eq_none_iff.mp found
    have dropped : (record ++ []).dropWhile (· != equalsSign) = [] :=
      List.dropWhile_append_of_pos stops
    rw [List.append_nil] at dropped
    rw [dropped]
  | some position =>
    obtain ⟨name, value, rfl, rfl, stops⟩ := exists_of_findIdx? found
    have size : (name ++ equalsSign :: value).length = name.length + 1 + value.length := by
      simp
      omega
    rw [size] at fits
    have front : slice (name ++ equalsSign :: value) 0 name.length = pure name := by
      rw [slice_eq (Nat.zero_le _) (by omega), List.take_left, List.drop_zero]
    have back : sliceFrom (name ++ equalsSign :: value) (name.length + 1) = pure value := by
      rw [sliceFrom_eq (by omega), List.drop_length_add_append]
      rfl
    rw [List.dropWhile_append_of_pos stops, List.takeWhile_append_of_pos stops]
    simp only [front, add_eq (show name.length + 1 < wordLimit by omega), back, pure_bind]
    simp

/-- One turn of the decoding loop: the record that is cut, then the fields of what is left. -/
theorem decode_of_cut {block record rest : Bytes} {fields : List Field} (some : block ≠ [])
    (fits : record.length < wordLimit) (cut : cutRecord block = pure (record, rest))
    (shorter : rest.length < block.length) (later : decode rest = pure fields) :
    decode block = pure ((Field.ofRecord? record).toList ++ fields) := by
  rw [decode, if_neg some, cut, pure_bind]
  simp only [cutField_eq fits, again_eq shorter, later, pure_bind]

/-- A block that fits a word is not read past its end. -/
theorem decode_eq {block : Bytes} (fits : block.length < wordLimit) :
    decode block = pure (HeaderBlock.decode block) := by
  have nothing : decode [] = pure [] := by rw [decode, if_pos rfl]
  induction size : block.length using Nat.strongRecOn generalizing block with
  | ind size ih =>
    subst size
    by_cases empty : block = []
    · rw [empty, nothing]
      rfl
    · obtain ⟨record, rest, cut, cuts⟩ := exists_cutRecord fits
      have shorter := cuts.length_lt empty
      have later := ih rest.length shorter (Nat.lt_trans shorter fits) rfl
      have inside := Nat.lt_of_le_of_lt cuts.length_record_le fits
      rw [decode_of_cut empty inside cut shorter later, cuts.decode_eq]

/-! ## Writing -/

/-- A record is name, `=`, value, CR and LF. -/
theorem length_record (f : Field) :
    f.record.length = (Utf8.encode f.name).length + 1 + (Utf8.encode f.value).length + 2 := by
  simp [Field.record]
  omega

/-- The length of a record is summed without overflow if the field fits the word. -/
theorem recordLength_eq {limit : Nat} {f : Field} (fits : footprint f < limit) :
    recordLength limit f = pure f.record.length := by
  simp only [footprint] at fits
  rw [recordLength, add_eq (by omega), pure_bind, add_eq (by omega), pure_bind, add_eq (by omega),
    length_record]

/-- A list takes more memory than its block, and each field takes no more than the list. -/
theorem footprint_bounds (fields : List Field) :
    (fields.flatMap Field.record).length ≤ total (fields.map footprint) ∧
      ∀ f ∈ fields, footprint f ≤ total (fields.map footprint) := by
  induction fields with
  | nil => simp
  | cons f fields ih =>
    have smaller : f.record.length ≤ footprint f := by
      rw [length_record, footprint]
      omega
    rw [List.flatMap_cons, List.length_append, List.map_cons, total]
    refine ⟨by omega, fun g member => ?_⟩
    rcases List.mem_cons.mp member with rfl | member
    · omega
    · exact Nat.le_add_left_of_le (ih.2 g member)

/-- The lengths of records add up to the length of the block. -/
theorem total_records (fields : List Field) :
    total (fields.map fun f => f.record.length) = (fields.flatMap Field.record).length := by
  induction fields with
  | nil => rfl
  | cons f fields ih =>
    rw [List.map_cons, total, ih, List.flatMap_cons, List.length_append]

/-- The size of a block can be counted on every machine that holds its fields. -/
theorem capacity_eq (fields : List Field) :
    capacity fields = pure (fields.flatMap Field.record).length := by
  obtain ⟨smaller, each⟩ := footprint_bounds fields
  have room : total (fields.map footprint) < spaceOf fields :=
    Nat.lt_of_lt_of_le (Nat.lt_succ_self _) (Nat.le_max_right _ _)
  have counted : fields.mapM (recordLength (spaceOf fields)) =
      pure (fields.map fun f => f.record.length) :=
    mapM_eq fun f member => recordLength_eq (Nat.lt_of_le_of_lt (each f member) room)
  have fits : total (fields.map fun f => f.record.length) < spaceOf fields := by
    rw [total_records]
    exact Nat.lt_of_le_of_lt smaller room
  rw [capacity, counted, pure_bind, sum_eq fits, total_records]

/-- Encoding traps nowhere: its capacity is exact and no sum overflows. -/
theorem encode_eq (fields : List Field) : encode fields = pure (HeaderBlock.encode? fields) := by
  rw [encode, capacity_eq, pure_bind]

end Checked

end Http2
