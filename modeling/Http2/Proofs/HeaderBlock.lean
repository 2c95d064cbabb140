import Http2.Proofs.HeaderBlock.Records
import Http2.Proofs.Text.Utf8

/-!
# Reading header blocks back

A field that can be written holds no CR and no LF, and no equals sign in its name. The line end behind
its record is therefore the first one, and the first equals sign is the one between name and value. A
block is read back field by field, and what follows it is read as if it stood alone.
-/

namespace Http2

namespace Field

/-- The record of a field without its line end. -/
def content (f : Field) : Bytes :=
  Utf8.encode f.name ++ equalsSign :: Utf8.encode f.value

/-- A record is its content and a line end. -/
theorem record_eq (f : Field) : f.record = f.content ++ [cr, lf] := by
  simp [record, content]

/-- The name can be written. -/
def NameFits (f : Field) : Prop :=
  ∀ ch ∈ f.name.toList, ch ≠ '=' ∧ ch ≠ '\r' ∧ ch ≠ '\n'

/-- The value can be written. -/
def ValueFits (f : Field) : Prop :=
  ∀ ch ∈ f.value.toList, ch ≠ '\r' ∧ ch ≠ '\n'

/-- What is wrong with a field; the value only counts if the name can be written. -/
inductive Wrong (f : Field) : FieldError → Prop
  | name (bad : ¬f.NameFits) : Wrong f (.invalidName f.name)
  | value (fine : f.NameFits) (bad : ¬f.ValueFits) : Wrong f (.invalidValue f.name)

/-- The check of a name looks for the three characters that it must not have. -/
theorem nameFits_iff {f : Field} :
    f.NameFits ↔ (f.name.toList.any fun c => c == '=' || c == '\r' || c == '\n') = false := by
  simp [NameFits, and_assoc]

/-- The check of a value looks for the two characters that it must not have. -/
theorem valueFits_iff {f : Field} :
    f.ValueFits ↔ (f.value.toList.any fun c => c == '\r' || c == '\n') = false := by
  simp [ValueFits]

/-- A name that does not fit is reported, whatever the value is. -/
theorem fault?_of_name {f : Field} (bad : ¬f.NameFits) : f.fault? = some (.invalidName f.name) := by
  rw [nameFits_iff, Bool.not_eq_false] at bad
  exact if_pos bad

/-- A value is reported by the name of its field, if the name fits. -/
theorem fault?_of_value {f : Field} (fine : f.NameFits) (bad : ¬f.ValueFits) :
    f.fault? = some (.invalidValue f.name) := by
  rw [nameFits_iff] at fine
  rw [valueFits_iff, Bool.not_eq_false] at bad
  rw [fault?, fine, bad, if_neg Bool.false_ne_true, if_pos rfl]

/-- A field that fits has no fault. -/
theorem fault?_of_fits {f : Field} (fine : f.NameFits ∧ f.ValueFits) : f.fault? = none := by
  rw [nameFits_iff, valueFits_iff] at fine
  rw [fault?, fine.1, fine.2, if_neg Bool.false_ne_true, if_neg Bool.false_ne_true]

/-- The fault that is found is the one that the field has. -/
theorem fault?_eq_some {f : Field} {fault : FieldError} : f.fault? = some fault ↔ f.Wrong fault := by
  by_cases name : f.NameFits
  · by_cases value : f.ValueFits
    · rw [fault?_of_fits ⟨name, value⟩]
      refine iff_of_false nofun fun wrong => ?_
      cases wrong with
      | name bad => exact bad name
      | value _ bad => exact bad value
    · rw [fault?_of_value name value, Option.some.injEq]
      refine ⟨fun same => same ▸ .value name value, fun wrong => ?_⟩
      cases wrong with
      | name bad => exact absurd name bad
      | value => rfl
  · rw [fault?_of_name name, Option.some.injEq]
    refine ⟨fun same => same ▸ .name name, fun wrong => ?_⟩
    cases wrong with
    | name => rfl
    | value fine => exact absurd fine name

/-- No fault is found exactly if name and value fit. -/
theorem fault?_eq_none {f : Field} : f.fault? = none ↔ f.NameFits ∧ f.ValueFits := by
  refine ⟨fun fine => ?_, fault?_of_fits⟩
  by_cases name : f.NameFits
  · by_cases value : f.ValueFits
    · exact ⟨name, value⟩
    · rw [fault?_of_value name value] at fine
      cases fine
  · rw [fault?_of_name name] at fine
    cases fine

/-- What a field that can be written does not hold. -/
theorem not_mem_of_fault? {f : Field} (fine : f.fault? = none) :
    equalsSign ∉ Utf8.encode f.name ∧ lf ∉ f.content := by
  obtain ⟨named, valued⟩ := fault?_eq_none.mp fine
  constructor
  · intro member
    exact (named '=' (Utf8.mem_of_mem_encode member (by decide))).1 rfl
  · intro member
    rcases List.mem_append.mp member with member | member
    · exact (named '\n' (Utf8.mem_of_mem_encode member (by decide))).2.2 rfl
    · rcases List.mem_cons.mp member with same | member
      · exact absurd same (by decide)
      · exact (valued '\n' (Utf8.mem_of_mem_encode member (by decide))).2 rfl

/-- A record is split at the equals sign behind the name. -/
theorem ofRecord?_content {f : Field} (fine : f.fault? = none) : ofRecord? f.content = some f := by
  rw [content, ofRecord?_split (not_mem_of_fault? fine).1, Utf8.decode_encode, Utf8.decode_encode]

end Field

namespace HeaderBlock

variable {fields : List Field}

/-- The line end of a record parts the field from all that follows. -/
theorem decode_record_append {f : Field} (fine : f.fault? = none) (rest : Bytes) :
    decode (f.record ++ rest) = f :: decode rest := by
  have unended : Unended f.content := unended_of_not_mem (Field.not_mem_of_fault? fine).2
  have whole : f.record ++ rest = f.content ++ cr :: lf :: rest := by
    rw [Field.record_eq, List.append_assoc]
    rfl
  rw [whole, decode_append_lineEnd, decode_of_unended unended, Field.ofRecord?_content fine]
  rfl

/-- In front of anything else, records of fields that fit are read as those fields. -/
theorem decode_records_append (fine : ∀ f ∈ fields, f.fault? = none) (rest : Bytes) :
    decode (fields.flatMap Field.record ++ rest) = fields ++ decode rest := by
  induction fields with
  | nil => rfl
  | cons f fields ih =>
    have first := fine f List.mem_cons_self
    have others := ih fun g member => fine g (List.mem_cons_of_mem f member)
    rw [List.flatMap_cons, List.append_assoc, decode_record_append first, others]
    rfl

/-- What is wrong with a header list: the first field that cannot be written. -/
def FirstWrong (fields : List Field) (fault : FieldError) : Prop :=
  ∃ front f back, fields = front ++ f :: back ∧ (∀ g ∈ front, g.NameFits ∧ g.ValueFits) ∧
    f.Wrong fault

/-- Encoding fails for the first field that does not fit, and for no other reason. -/
theorem encode?_eq_error {fields : List Field} {fault : FieldError} :
    encode? fields = .error fault ↔ FirstWrong fields fault := by
  have found : encode? fields = .error fault ↔ fields.findSome? Field.fault? = some fault := by
    rw [encode?]
    cases fields.findSome? Field.fault? <;> simp
  rw [found, List.findSome?_eq_some_iff]
  simp only [Field.fault?_eq_some, Field.fault?_eq_none]
  constructor
  · rintro ⟨front, f, back, split, wrong, fine⟩
    exact ⟨front, f, back, split, fine, wrong⟩
  · rintro ⟨front, f, back, split, fine, wrong⟩
    exact ⟨front, f, back, split, wrong, fine⟩

/-- Encoding succeeds if all fields fit, and gives their records in order. -/
theorem encode?_eq_ok {fields : List Field} {block : Bytes} :
    encode? fields = .ok block ↔
      (∀ f ∈ fields, f.NameFits ∧ f.ValueFits) ∧ block = fields.flatMap Field.record := by
  have found : encode? fields = .ok block ↔
      fields.findSome? Field.fault? = none ∧ block = fields.flatMap Field.record := by
    rw [encode?]
    cases fields.findSome? Field.fault? <;> simp [eq_comm]
  rw [found, List.findSome?_eq_none_iff]
  simp only [Field.fault?_eq_none]

/-- A list of fields can be encoded exactly if all of them fit. -/
theorem exists_encode? :
    (∃ block, encode? fields = .ok block) ↔ ∀ f ∈ fields, f.NameFits ∧ f.ValueFits := by
  constructor
  · rintro ⟨block, written⟩
    exact (encode?_eq_ok.mp written).1
  · intro fits
    exact ⟨_, encode?_eq_ok.mpr ⟨fits, rfl⟩⟩

/-- A written block is read back, and what follows it is read as if it stood alone. -/
theorem decode_append_of_encode? {block : Bytes} (written : encode? fields = .ok block)
    (rest : Bytes) : decode (block ++ rest) = fields ++ decode rest := by
  obtain ⟨fits, rfl⟩ := encode?_eq_ok.mp written
  apply decode_records_append
  intro f member
  exact Field.fault?_eq_none.mpr (fits f member)

/-- What was encoded is decoded as it was. -/
theorem decode_of_encode? {block : Bytes} (written : encode? fields = .ok block) :
    decode block = fields := by
  have alone := decode_append_of_encode? written []
  rwa [List.append_nil, show decode [] = [] from rfl, List.append_nil] at alone

/-- A header list can be written exactly if no name holds an equals sign, a CR or an LF and no value holds
a CR or an LF. Whatever bytes follow its block, the list is read back, and then what those bytes hold. So
no two lists have the same block. -/
theorem written_fields_are_read_back (fields : List Field) :
    ((∃ block, encode? fields = .ok block) ↔ ∀ f ∈ fields, f.NameFits ∧ f.ValueFits) ∧
      ∀ block, encode? fields = .ok block →
        (∀ rest, decode (block ++ rest) = fields ++ decode rest) ∧
        ∀ other, encode? other = .ok block → other = fields := by
  constructor
  · exact exists_encode?
  · intro block written
    constructor
    · exact decode_append_of_encode? written
    · intro other same
      exact (decode_of_encode? same).symm.trans (decode_of_encode? written)

/-- Equals signs in values, letters of two bytes, an empty name, and an LF right behind the block. -/
theorem written_fields_are_read_back_before_line_feed :
    let fields : List Field := [⟨"a", "x=ü"⟩, ⟨"", "=é="⟩]
    let block : Bytes := [97, 61, 120, 61, 195, 188, 13, 10, 61, 61, 195, 169, 61, 13, 10]
    encode? fields = .ok block ∧ decode (block ++ [10, 98, 61]) = fields ++ [⟨"\nb", ""⟩] := by
  intro fields block
  have written : encode? fields = .ok block := by decide
  have read := ((written_fields_are_read_back fields).2 block written).1 [10, 98, 61]
  exact ⟨written, read⟩

end HeaderBlock

end Http2
