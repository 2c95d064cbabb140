import Http2.HeaderBlock
import Mathlib.Data.List.Induction
import Mathlib.Data.List.TakeWhile
import Mathlib.Logic.Function.Iterate

/-!
# Header blocks, record by record

A line end parts a block in two that are read apart, whatever stands before it and behind it: no CR just
before it and no LF just behind it is drawn into the line end. All that is left to say is how a block
without a line end is read. `ReadsRecords` says both, and no two readers meet it. `Reader.round` is the
reader that cuts off one record after the other until nothing is left; it always comes to its end.
-/

namespace Http2

namespace Field

/-- A record without an equals sign is no field. -/
theorem ofRecord?_of_not_mem {record : Bytes} (absent : equalsSign ∉ record) :
    ofRecord? record = none := by
  have dropped : record.dropWhile (· != equalsSign) = [] := by
    rw [List.dropWhile_eq_nil_iff]
    rintro byte member
    rw [bne_iff_ne]
    rintro rfl
    exact absent member
  rw [ofRecord?, dropped]

/-- A record is split at its first equals sign, and both parts are read as text. -/
theorem ofRecord?_split {name : Bytes} (absent : equalsSign ∉ name) (value : Bytes) :
    ofRecord? (name ++ equalsSign :: value) =
      some { name := Utf8.decode name, value := Utf8.decode value } := by
  have stops : ∀ byte ∈ name, (byte != equalsSign) = true := by
    intro byte member
    rw [bne_iff_ne]
    rintro rfl
    exact absent member
  simp [ofRecord?, List.dropWhile_append_of_pos stops, List.takeWhile_append_of_pos stops]

end Field

namespace HeaderBlock

/-! ## Line ends -/

/-- No CR of the line is followed by an LF. -/
def Unended (line : Bytes) : Prop :=
  ¬[cr, lf] <:+: line

/-- A line without an LF has no line end. -/
theorem unended_of_not_mem {line : Bytes} (absent : lf ∉ line) : Unended line :=
  fun ended => absent (ended.subset (by simp))

theorem unended_nil : Unended [] :=
  unended_of_not_mem List.not_mem_nil

theorem unended_singleton (byte : UInt8) : Unended [byte] :=
  fun ended => absurd ended.length_le (Nat.not_succ_le_self 1)

/-- A line end of a longer line is at its front or further on. -/
theorem unended_cons_cons {a b : UInt8} {line : Bytes} :
    Unended (a :: b :: line) ↔ ¬(a = cr ∧ b = lf) ∧ Unended (b :: line) := by
  have front : [cr, lf] <+: a :: b :: line ↔ a = cr ∧ b = lf := by
    simp [List.cons_prefix_cons, eq_comm]
  rw [Unended, List.infix_cons_iff, front, not_or]
  rfl

/-- One more byte in front makes no line end, unless with the byte after it. -/
theorem Unended.longer {a b : UInt8} {front rest later : Bytes} (unended : Unended front)
    (apart : ¬(a = cr ∧ b = lf)) (split : b :: rest = front ++ later) : Unended (a :: front) := by
  cases front with
  | nil => exact unended_singleton a
  | cons c front =>
    obtain ⟨rfl, -⟩ := List.cons.inj split
    exact unended_cons_cons.mpr ⟨apart, unended⟩

namespace Scan

/-- Bytes without a line end all belong to the record under way. -/
theorem foldl_push_of_unended {line : Bytes} (unended : Unended line) (records : List Bytes) :
    line.foldl push { records } = { records, current := line.reverse } := by
  induction line using List.reverseRecOn with
  | nil => rfl
  | append_singleton line byte ih =>
    have front : Unended line := fun ended => unended (ended.trans (List.prefix_append _ _).isInfix)
    have pushed : push { records, current := line.reverse } byte =
        { records, current := byte :: line.reverse } := by
      rcases List.eq_nil_or_concat line with rfl | ⟨earlier, last, rfl⟩
      · rfl
      · have apart : ¬(byte = lf ∧ last = cr) := by
          rintro ⟨rfl, rfl⟩
          exact unended ⟨earlier, [], by simp⟩
        simp [push, apart]
    simp [ih front, pushed]

/-- Behind the records of a block stand those that were found before it. -/
def behind (earlier : List Bytes) (s : Scan) : Scan :=
  { s with records := s.records ++ earlier }

/-- What was found earlier has no part in taking in a byte. -/
theorem push_behind (earlier : List Bytes) (s : Scan) (byte : UInt8) :
    push (s.behind earlier) byte = (push s byte).behind earlier := by
  obtain ⟨records, current⟩ := s
  cases current with
  | nil => rfl
  | cons last current =>
    simp only [push, behind]
    split <;> rfl

/-- What was found earlier has no part in taking in many bytes. -/
theorem foldl_push_behind (block : Bytes) (earlier : List Bytes) (s : Scan) :
    block.foldl push (s.behind earlier) = (block.foldl push s).behind earlier := by
  induction block generalizing s with
  | nil => rfl
  | cons byte block ih => rw [List.foldl_cons, push_behind, ih, List.foldl_cons]

/-- The records found earlier come first in the end. -/
theorem finish_behind (earlier : List Bytes) (s : Scan) :
    (s.behind earlier).finish = earlier.reverse ++ s.finish := by
  simp [finish, behind]

/-- A CR never ends a record, so the LF behind it does: of a line end only the CR and the LF are lost,
whatever came before. -/
theorem foldl_push_lineEnd (s : Scan) :
    [cr, lf].foldl push s = behind s.finish.reverse {} := by
  have returned : push s cr = { s with current := cr :: s.current } := by
    obtain ⟨records, current⟩ := s
    cases current <;> rfl
  rw [List.foldl_cons, returned]
  simp [push, behind, finish]

end Scan

/-- A line without a line end is one record. -/
theorem records_of_unended {line : Bytes} (unended : Unended line) : records line = [line] := by
  simp [records, Scan.foldl_push_of_unended unended, Scan.finish]

/-- A line end parts the records before it from those behind it. -/
theorem records_append_lineEnd (front back : Bytes) :
    records (front ++ cr :: lf :: back) = records front ++ records back := by
  have whole : front ++ cr :: lf :: back = front ++ ([cr, lf] ++ back) := rfl
  rw [records, whole, List.foldl_append, List.foldl_append, Scan.foldl_push_lineEnd,
    Scan.foldl_push_behind, Scan.finish_behind, List.reverse_reverse]
  rfl

/-- A line end parts what is read before it from what is read behind it. -/
theorem decode_append_lineEnd (front back : Bytes) :
    decode (front ++ cr :: lf :: back) = decode front ++ decode back := by
  rw [decode, records_append_lineEnd, List.filterMap_append]
  rfl

/-- A line without a line end is read as one record. -/
theorem decode_of_unended {line : Bytes} (unended : Unended line) :
    decode line = (Field.ofRecord? line).toList := by
  rw [decode, records_of_unended unended]
  cases read : Field.ofRecord? line <;> simp [read]

/-! ## Cutting off a record -/

/-- The bytes before the first line end and those behind it. A block without a line end is one record. -/
def cut : Bytes → Bytes × Bytes
  | a :: b :: rest =>
    if a = cr ∧ b = lf then ([], rest) else (a :: (cut (b :: rest)).1, (cut (b :: rest)).2)
  | short => (short, [])

/-- How a block can be cut into a record and a rest. -/
inductive Cuts : Bytes → Bytes → Bytes → Prop
  | whole {line : Bytes} (unended : Unended line) : Cuts line line []
  | ended {front : Bytes} (unended : Unended front) (back : Bytes) :
      Cuts (front ++ cr :: lf :: back) front back

/-- A block is cut in one of the two ways. -/
theorem cuts_cut (block : Bytes) : Cuts block (cut block).1 (cut block).2 := by
  induction block using cut.induct with
  | case1 a b rest ends =>
    obtain ⟨rfl, rfl⟩ := ends
    exact .ended unended_nil rest
  | case2 a b rest apart ih =>
    rw [cut, if_neg apart]
    generalize remains : b :: rest = line at ih
    generalize (cut line).1 = record, (cut line).2 = later at ih ⊢
    cases ih with
    | whole unended =>
      subst remains
      exact .whole (unended_cons_cons.mpr ⟨apart, unended⟩)
    | ended unended => exact .ended (unended.longer apart remains) later
  | case3 short few =>
    match short with
    | [] => exact .whole unended_nil
    | [byte] => exact .whole (unended_singleton byte)
    | a :: b :: rest => exact absurd rfl (few a b rest)

variable {block record rest : Bytes}

/-- A cut leaves less than there was, so reading comes to an end. -/
theorem Cuts.length_lt (cuts : Cuts block record rest) (some : block ≠ []) :
    rest.length < block.length := by
  cases cuts with
  | whole => exact List.length_pos_iff.mpr some
  | ended =>
    simp only [List.length_append, List.length_cons]
    omega

/-- No record is longer than its block. -/
theorem Cuts.length_record_le (cuts : Cuts block record rest) : record.length ≤ block.length := by
  cases cuts with
  | whole => exact Nat.le_refl _
  | ended => exact (List.prefix_append _ _).length_le

/-- The fields of a block are that of its first record, if there is one, and those of the rest. -/
theorem Cuts.decode_eq (cuts : Cuts block record rest) :
    decode block = (Field.ofRecord? record).toList ++ decode rest := by
  cases cuts with
  | whole unended =>
    have nothing : decode [] = [] := rfl
    rw [decode_of_unended unended, nothing, List.append_nil]
  | ended unended => rw [decode_append_lineEnd, decode_of_unended unended]

/-! ## Readers of header blocks -/

/-- What a reader of header blocks has to do: a line end parts what is read before it from what is read
behind it; a record without an equals sign is skipped, any other is split at the first one. -/
structure ReadsRecords (read : Bytes → List Field) : Prop where
  lineEnd : ∀ front back, read (front ++ cr :: lf :: back) = read front ++ read back
  skipped : ∀ record, Unended record → equalsSign ∉ record → read record = []
  split : ∀ name value, Unended (name ++ equalsSign :: value) → equalsSign ∉ name →
    read (name ++ equalsSign :: value) = [{ name := Utf8.decode name, value := Utf8.decode value }]

/-- Decoding does what a reader of header blocks has to do. -/
theorem readsRecords_decode : ReadsRecords decode where
  lineEnd := decode_append_lineEnd
  skipped record unended absent := by
    rw [decode_of_unended unended, Field.ofRecord?_of_not_mem absent]
    rfl
  split name value unended absent := by
    rw [decode_of_unended unended, Field.ofRecord?_split absent]
    rfl

namespace ReadsRecords

variable {read read' : Bytes → List Field}

/-- Two readers agree on a single record: it is skipped by both or split at the same place. -/
theorem eq_of_unended (reads : ReadsRecords read) (reads' : ReadsRecords read') {line : Bytes}
    (unended : Unended line) : read line = read' line := by
  by_cases present : equalsSign ∈ line
  · obtain ⟨name, value, rfl, absent⟩ := List.eq_append_cons_of_mem present
    rw [reads.split name value unended absent, reads'.split name value unended absent]
  · rw [reads.skipped line unended present, reads'.skipped line unended present]

/-- Nothing is left open. -/
theorem unique (reads : ReadsRecords read) (reads' : ReadsRecords read') (block : Bytes) :
    read block = read' block := by
  induction size : block.length using Nat.strongRecOn generalizing block with
  | ind size ih =>
    subst size
    have cuts := cuts_cut block
    generalize (cut block).1 = record, (cut block).2 = rest at cuts
    cases cuts with
    | whole unended => exact reads.eq_of_unended reads' unended
    | ended unended =>
      have later : read rest = read' rest := ih rest.length (by simp; omega) rest rfl
      rw [reads.lineEnd, reads'.lineEnd, reads.eq_of_unended reads' unended, later]

end ReadsRecords

/-! ## Reading front to back -/

/-- A block that is being read: the bytes that are left, and the fields found before them. -/
structure Reader where
  rest : Bytes
  fields : List Field := []

namespace Reader

/-- One round of reading: the first record is cut off, and its field is added if it has one. -/
def round (r : Reader) : Reader where
  rest := (cut r.rest).2
  fields := r.fields ++ (Field.ofRecord? (cut r.rest).1).toList

/-- Every round shortens what is left, and no round changes what is found in all. -/
theorem exists_rounds (r : Reader) :
    ∃ rounds ≤ r.rest.length,
      round^[rounds] r = { rest := [], fields := r.fields ++ decode r.rest } ∧
      ∀ earlier < rounds, (round^[earlier] r).rest ≠ [] := by
  induction size : r.rest.length using Nat.strongRecOn generalizing r with
  | ind size ih =>
    subst size
    obtain ⟨rest, fields⟩ := r
    by_cases some : rest = []
    · subst some
      exact ⟨0, Nat.le_refl 0, by simp [show decode [] = [] from rfl], nofun⟩
    · have cuts := cuts_cut rest
      have shorter := cuts.length_lt some
      obtain ⟨rounds, few, ends, before⟩ := ih _ shorter (round { rest, fields }) rfl
      refine ⟨rounds + 1, Nat.lt_of_le_of_lt few shorter, ?_, ?_⟩
      · rw [Function.iterate_succ_apply, ends, cuts.decode_eq, ← List.append_assoc]
        rfl
      · rintro (_ | earlier) early
        · exact some
        · rw [Function.iterate_succ_apply]
          exact before earlier (Nat.lt_of_succ_lt_succ early)

end Reader

/-- A block is read as its line ends part it and as each record is split, and in no other way. Reading it
front to back, one record a round, comes to an end after at most one round for each byte. -/
theorem decode_is_determined :
    (∀ read, ReadsRecords read ↔ read = decode) ∧
      ∀ block, ∃ rounds ≤ block.length,
        Reader.round^[rounds] { rest := block } = { rest := [], fields := decode block } ∧
        ∀ earlier < rounds, (Reader.round^[earlier] { rest := block }).rest ≠ [] := by
  constructor
  · intro read
    constructor
    · intro reads
      funext block
      exact reads.unique readsRecords_decode block
    · rintro rfl
      exact readsRecords_decode
  · intro block
    exact Reader.exists_rounds { rest := block }

/-- A CR before the line end and an LF behind it stay where they are, and a record without an equals sign
is passed over. -/
example : decode [97, 61, 13, 13, 10, 10, 13, 10, 98, 61, 61] = [⟨"a", "\r"⟩, ⟨"b", "="⟩] := by
  decide

end HeaderBlock

end Http2
