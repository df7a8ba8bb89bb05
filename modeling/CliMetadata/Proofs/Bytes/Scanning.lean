import CliMetadata.Bytes.Cursor
import CliMetadata.Proofs.Bytes.Taking
import CliMetadata.Proofs.Except

/-!
# Scans and readers

A scan computes the place behind what it finds, and its sums, differences and parts of the data may
go wrong. A reader takes its bytes from the front of a list, where nothing of that kind can happen.
On a cursor that lies in its data each scan does what a reader does on the bytes behind the position:
it finds the same or fails for the same reason, leaves the same bytes, and the program does not end.
This is proved of the scans that are done at once, and carried over to chains of them.
-/

namespace CliMetadata

/-- The bytes behind the position. -/
def Cursor.behind (cursor : Cursor) : Bytes := cursor.data.drop cursor.position

namespace Scan

variable {α β : Type}

/-- What a scan does at a cursor, beside what a reader does on the bytes behind it. -/
inductive Mirrors (cursor : Cursor) :
    EStateM.Result Error Cursor α → EStateM.Result Error Bytes α → Prop
  /-- Both find the same, and leave the same bytes. -/
  | ok {value : α} {stop : Nat} (hle : cursor.position ≤ stop) (hstop : stop ≤ cursor.size) :
      Mirrors cursor (.ok value { cursor with position := stop })
        (.ok value (cursor.data.drop stop))
  /-- Both fail for the same reason, and leave the same bytes. -/
  | error {error : Error} {stop : Nat} (herror : error ≠ .aborted) (hle : cursor.position ≤ stop)
      (hstop : stop ≤ cursor.size) :
      Mirrors cursor (.error error { cursor with position := stop })
        (.error error (cursor.data.drop stop))
  /-- In data with more places than there are offsets, the scan may give up. -/
  | large {stop : Nat} {result : EStateM.Result Error Bytes α} (hsize : offsetLimit ≤ cursor.size)
      (hle : cursor.position ≤ stop) (hstop : stop ≤ cursor.size) :
      Mirrors cursor (.error .outOfBounds { cursor with position := stop }) result

/-- What is done from a place further on counts from the cursor. -/
lemma Mirrors.of_later {cursor : Cursor} {stop : Nat} {result : EStateM.Result Error Cursor α}
    {expected : EStateM.Result Error Bytes α}
    (h : Mirrors { cursor with position := stop } result expected) (hle : cursor.position ≤ stop) :
    Mirrors cursor result expected := by
  cases h with
  | ok hlater hstop => exact .ok (hle.trans hlater) hstop
  | error herror hlater hstop => exact .error herror (hle.trans hlater) hstop
  | large hsize hlater hstop => exact .large hsize (hle.trans hlater) hstop

/-- On every cursor that lies in its data the scan does what the reader does on the bytes behind. -/
def Follows (scan : Scan α) (reader : Reader α) : Prop :=
  ∀ cursor : Cursor, cursor.position ≤ cursor.size →
    Mirrors cursor (scan.run cursor) (reader.run cursor.behind)

/-! ## Chains -/

/-- A value without a scan is the value without a reader. -/
lemma follows_pure (value : α) : Follows (pure value) (pure value) :=
  fun _ hcursor => .ok (Nat.le_refl _) hcursor

/-- A scan that fails follows a reader that fails so. -/
lemma follows_throw {error : Error} (h : error ≠ .aborted) :
    Follows (throw error : Scan α) (throw error) :=
  fun _ hcursor => .error h (Nat.le_refl _) hcursor

/-- Scans that follow readers do so one after the other. -/
lemma Follows.bind {scan : Scan α} {reader : Reader α} {next : α → Scan β}
    {nextReader : α → Reader β} (h : Follows scan reader)
    (hnext : ∀ value, Follows (next value) (nextReader value)) :
    Follows (scan >>= next) (reader >>= nextReader) := by
  intro cursor hcursor
  have hfirst := h cursor hcursor
  show Mirrors cursor (EStateM.bind scan next cursor)
    (EStateM.bind reader nextReader cursor.behind)
  unfold EStateM.bind
  simp only [EStateM.run] at hfirst
  generalize scan cursor = found at hfirst ⊢
  generalize reader cursor.behind = expected at hfirst ⊢
  cases hfirst with
  -- The next scan starts where the first one stopped, which is no earlier than the cursor.
  | ok hle hstop => exact (hnext _ _ hstop).of_later hle
  | error herror hle hstop => exact .error herror hle hstop
  | large hsize hle hstop => exact .large hsize hle hstop

/-- What is made of a value does not matter to where the cursor goes. -/
lemma Mirrors.map {cursor : Cursor} {scan : Scan α} {reader : Reader α} {input : Bytes} (f : α → β)
    (h : Mirrors cursor (scan.run cursor) (reader.run input)) :
    Mirrors cursor ((f <$> scan).run cursor) ((f <$> reader).run input) := by
  show Mirrors cursor (EStateM.map f scan cursor) (EStateM.map f reader input)
  unfold EStateM.map
  simp only [EStateM.run] at h
  generalize scan cursor = found at h ⊢
  generalize reader input = expected at h ⊢
  cases h with
  | ok hle hstop => exact .ok hle hstop
  | error herror hle hstop => exact .error herror hle hstop
  | large hsize hle hstop => exact .large hsize hle hstop

/-- A function of the answer keeps scans and readers together. -/
lemma Follows.map {scan : Scan α} {reader : Reader α} (f : α → β) (h : Follows scan reader) :
    Follows (f <$> scan) (f <$> reader) :=
  fun cursor hcursor => (h cursor hcursor).map f

/-- A reader that a scan follows does not end the program either. -/
lemma Follows.on_ne_aborted {scan : Scan α} {reader : Reader α} (h : Follows scan reader)
    {data : Bytes} (hsize : data.length < offsetLimit) : reader.on data ≠ .error .aborted := by
  have hmirrors := h { data } (Nat.zero_le _)
  rw [Cursor.behind, List.drop_zero] at hmirrors
  rw [Reader.on]
  generalize scan.run { data } = found at hmirrors
  generalize reader.run data = expected at hmirrors ⊢
  cases hmirrors with
  | ok hle hstop => simp
  | error herror hle hstop => simpa using herror
  | large hlarge => exact absurd hlarge (Nat.not_le.mpr hsize)

/-! ## Bytes and numbers of fixed width -/

/-- Behind the cursor are the bytes up to the end of the data. -/
lemma length_behind (cursor : Cursor) : cursor.behind.length = cursor.size - cursor.position :=
  List.length_drop

/-- The bytes at the front of what is behind the position, and what is behind them. -/
lemma run_take (cursor : Cursor) (length : Nat) :
    (Reader.take length).run cursor.behind =
      if length ≤ cursor.size - cursor.position then
        .ok (cursor.behind.take length) (cursor.data.drop (cursor.position + length))
      else .error .outOfBounds cursor.behind := by
  show Reader.take length cursor.behind = _
  rw [Reader.take, Reader.splitExact_eq, length_behind]
  by_cases h : length ≤ cursor.size - cursor.position
  · rw [if_pos h, if_pos h, Cursor.behind, List.drop_drop]
  · rw [if_neg h, if_neg h]

/-- So many bytes are found if there are as many and the place behind them is an offset. -/
lemma bytesAhead_eq (cursor : Cursor) (length : Nat) :
    cursor.bytesAhead length =
      if cursor.position + length < offsetLimit ∧ cursor.position + length ≤ cursor.size then
        .ok (cursor.behind.take length, cursor.position + length)
      else .error .outOfBounds := by
  unfold Cursor.bytesAhead
  by_cases hsum : cursor.position + length < offsetLimit
  · simp only [checkedSum_of_lt hsum, hsum, true_and]
    by_cases hfits : cursor.position + length ≤ cursor.size
    · simp only [Bytes.part?_of_le (Nat.le_add_right _ _) hfits, Nat.add_sub_cancel_left, if_pos hfits]
      rfl
    · simp only [Bytes.part?_of_lt (Nat.lt_of_not_le hfits), if_neg hfits]
  · simp only [checkedSum_of_le (Nat.not_lt.mp hsum), hsum, false_and, if_false]

/-- A number is found as the bytes are that spell it. -/
lemma numberAhead_eq (cursor : Cursor) (width : Nat) :
    cursor.numberAhead width =
      (fun found => (LittleEndian.value found.1, found.2)) <$> cursor.bytesAhead width := by
  rw [bytesAhead_eq]
  unfold Cursor.numberAhead
  by_cases hsum : cursor.position + width < offsetLimit
  · simp only [checkedSum_of_lt hsum, hsum, true_and]
    by_cases hfits : cursor.position + width ≤ cursor.size
    · rw [if_neg (Nat.not_lt.mpr hfits), if_pos hfits,
        Bytes.part_of_le (Nat.le_add_right _ _) hfits, Nat.add_sub_cancel_left]
      rfl
    · rw [if_pos (Nat.lt_of_not_le hfits), if_neg hfits]
      rfl
  · simp only [checkedSum_of_le (Nat.not_lt.mp hsum), hsum, false_and, if_false]
    rfl

lemma number_eq (width : Nat) : number width = LittleEndian.value <$> bytes width := by
  funext cursor
  show attempt (Cursor.numberAhead width) cursor =
    EStateM.map LittleEndian.value (attempt (Cursor.bytesAhead width)) cursor
  unfold EStateM.map attempt
  rw [numberAhead_eq]
  cases cursor.bytesAhead width <;> rfl

/-- Bytes are scanned as they are read. -/
lemma follows_bytes (length : Nat) : Follows (bytes length) (Reader.take length) := by
  intro cursor hcursor
  rw [run_take]
  show Mirrors cursor (attempt (Cursor.bytesAhead length) cursor) _
  unfold attempt
  rw [bytesAhead_eq]
  by_cases hfits : length ≤ cursor.size - cursor.position
  · have hstop : cursor.position + length ≤ cursor.size := by omega
    rw [if_pos hfits]
    by_cases hsum : cursor.position + length < offsetLimit
    · rw [if_pos ⟨hsum, hstop⟩]
      exact .ok (Nat.le_add_right _ _) hstop
    · -- The bytes are there, so their end lies in the data and still is no offset.
      rw [if_neg fun h => hsum h.1]
      exact .large (by omega) (Nat.le_refl _) hcursor
  · rw [if_neg hfits, if_neg fun h => hfits (by omega)]
    exact .error (by decide) (Nat.le_refl _) hcursor

lemma follows_number (width : Nat) : Follows (number width) (Reader.number width) := by
  rw [number_eq]
  exact (follows_bytes width).map LittleEndian.value

/-- A byte is the number of one byte. -/
lemma byte_eq_number : Reader.byte = UInt8.ofNat <$> Reader.number 1 := by
  funext bytes
  cases bytes with
  | nil => rfl
  | cons first rest =>
    have hvalue : UInt8.ofNat (LittleEndian.value [first]) = first := by
      simp [LittleEndian.value]
    show EStateM.Result.ok first rest = .ok (UInt8.ofNat (LittleEndian.value [first])) rest
    rw [hvalue]

lemma follows_byte : Follows byte Reader.byte := by
  rw [byte_eq_number]
  exact (follows_number 1).map UInt8.ofNat

/-! ## Compressed numbers -/

lemma follows_compressedUInt : Follows compressedUInt Reader.compressedUInt := by
  refine follows_byte.bind fun first => ?_
  split
  · exact follows_pure _
  · split
    · exact follows_byte.bind fun second => follows_pure _
    · split
      · exact follows_byte.bind fun second => follows_byte.bind fun third =>
          follows_byte.bind fun fourth => follows_pure _
      · exact follows_throw (by simp)

lemma follows_compressedToken : Follows compressedToken Reader.compressedToken := by
  refine follows_compressedUInt.bind fun value => ?_
  split
  · exact follows_pure _
  · exact follows_throw (by simp)

variable (overflow : Overflow) {cursor : Cursor}

/-- A signed number fits its word, and the number of bytes in which it was found is an offset. -/
lemma signedOf_eq {width : Nat} (h : width < offsetLimit) (value : UInt32) :
    signedOf overflow width value =
      .ok (if value &&& 1 == 0 then ((value >>> 1).toNat : Int)
        else (value >>> 1).toNat - Reader.signBias width) := by
  -- Neither the half of a word nor the bias comes near the limits of a signed word.
  have hmagnitude : (value >>> 1).toNat < 2 ^ 31 := by
    have hlt := value.toNat_lt
    have hhalf : (value >>> 1).toNat = value.toNat / 2 := by
      rw [UInt32.toNat_shiftRight, Nat.shiftRight_eq_div_pow]
      rfl
    omega
  have hbias : 0 ≤ Reader.signBias width ∧ Reader.signBias width ≤ 2 ^ 28 := by
    unfold Reader.signBias
    split
    · decide
    · split <;> decide
  unfold signedOf
  rw [overflow.offset_natCast h, ok_bind]
  split
  · rfl
  · exact overflow.signed32_of_range (by omega) (by omega)

/-- Signed numbers are scanned as they are read, in data that offsets can address. -/
lemma mirrors_compressedInt (hcursor : cursor.position ≤ cursor.size)
    (hsize : cursor.size < offsetLimit) :
    Mirrors cursor ((compressedInt overflow).run cursor)
      (Reader.compressedInt.run cursor.behind) := by
  have hvalue := follows_compressedUInt cursor hcursor
  -- The places before and behind the unsigned number tell how many bytes it took.
  have hrun : (compressedInt overflow).run cursor =
      EStateM.bind compressedUInt (fun value => do
        let stop ← Cursor.position <$> get
        MonadExcept.ofExcept (signedOf overflow (stop - cursor.position) value)) cursor := rfl
  rw [hrun]
  unfold EStateM.bind
  simp only [EStateM.run] at hvalue
  generalize hscan : compressedUInt cursor = found at hvalue ⊢
  generalize hread : Reader.compressedUInt cursor.behind = expected at hvalue
  cases hvalue with
  | @ok value stop hle hstop =>
    have hwidth : cursor.behind.length = stop - cursor.position + (cursor.data.drop stop).length := by
      rw [length_behind, List.length_drop]
      show cursor.size - cursor.position = stop - cursor.position + (cursor.size - stop)
      omega
    have hlimit : stop - cursor.position < offsetLimit := by omega
    rw [Reader.compressedInt_of_run hread hwidth]
    have hsigned := signedOf_eq overflow hlimit value
    rw [Nat.cast_sub hle] at hsigned
    show Mirrors cursor ((MonadExcept.ofExcept (signedOf overflow (stop - cursor.position) value)
      : Scan Int).run { cursor with position := stop }) _
    rw [hsigned]
    exact .ok hle hstop
  | @error error stop herror hle hstop =>
    rw [Reader.compressedInt_of_error hread]
    exact .error herror hle hstop
  | large hlarge => exact absurd hlarge (Nat.not_le.mpr hsize)

/-! ## Texts -/

variable {overflow}

/-- Where a text is looked for are the bytes behind the position. -/
lemma part?_behind (hcursor : cursor.position ≤ cursor.size) :
    Bytes.part? cursor.data cursor.position cursor.size = some cursor.behind := by
  rw [Bytes.part?_of_le hcursor (Nat.le_refl _), ← length_behind, ← Cursor.behind, List.take_length]

/-- A text without a zero behind it is malformed. -/
lemma textAhead_of_nonzero (hcursor : cursor.position ≤ cursor.size)
    (h : ∀ b ∈ cursor.behind, b ≠ 0) :
    cursor.textAhead overflow = .error (.malformed (.unterminatedString cursor.position)) := by
  have hnone : cursor.behind.findIdx? (· == 0) = none :=
    List.findIdx?_eq_none_iff.mpr fun b hb => beq_eq_false_iff_ne.mpr (h b hb)
  unfold Cursor.textAhead
  simp only [part?_behind hcursor, Option.getD_some, hnone]

/-- The place behind a zero byte is an offset, as it lies in the data. -/
lemma textAhead_of_append_zero (hcursor : cursor.position ≤ cursor.size)
    (hsize : cursor.size < offsetLimit) {bytes others : Bytes} (h : ∀ b ∈ bytes, b ≠ 0)
    (hbehind : cursor.behind = bytes ++ 0 :: others) :
    cursor.textAhead overflow =
      match Utf8.decode? bytes with
      | none => .error (.malformed (.invalidUtf8 cursor.position))
      | some text => .ok (text, cursor.position + (bytes.length + 1)) := by
  have hlength : bytes.length < cursor.size - cursor.position := by
    rw [← length_behind, hbehind]
    simp
  have hpart : Bytes.part (bytes ++ 0 :: others) 0 bytes.length = .ok bytes := by
    rw [Bytes.part_of_le (Nat.zero_le _) (by simp)]
    simp
  -- Both sums are places up to the end of the data, so they are offsets.
  have hwidth : overflow.offset ((bytes.length : Int) + 1) = .ok (bytes.length + 1) := by
    rw [← Int.natCast_succ]
    exact overflow.offset_natCast (by omega)
  have hposition : overflow.offset ((cursor.position : Int) + ((bytes.length + 1 : Nat) : Int))
      = .ok (cursor.position + (bytes.length + 1)) := by
    rw [← Int.natCast_add]
    exact overflow.offset_natCast (by omega)
  unfold Cursor.textAhead
  simp only [part?_behind hcursor, Option.getD_some, hbehind, findIdx?_append_zero h, hpart, ok_bind]
  cases Utf8.decode? bytes with
  | none => rfl
  | some text =>
    show (do
      let width ← overflow.offset (bytes.length + 1)
      let position ← overflow.offset (cursor.position + width)
      pure (text, position)) = _
    rw [hwidth, ok_bind, hposition, ok_bind]
    rfl

lemma mirrors_text (hcursor : cursor.position ≤ cursor.size) (hsize : cursor.size < offsetLimit) :
    Mirrors cursor ((text overflow).run cursor)
      ((Reader.text cursor.position).run cursor.behind) := by
  show Mirrors cursor (attempt (Cursor.textAhead overflow) cursor) _
  unfold attempt
  rcases nonzero_or_append_zero cursor.behind with hnonzero | ⟨bytes, others, hbytes, hbehind⟩
  · rw [textAhead_of_nonzero hcursor hnonzero, Reader.text_of_nonzero hnonzero]
    exact .error (by simp) (Nat.le_refl _) hcursor
  -- What is left lies behind the zero byte, both for the reader and for the cursor.
  · have hothers : others = cursor.data.drop (cursor.position + (bytes.length + 1)) := by
      rw [← List.drop_drop, ← Cursor.behind, hbehind, List.drop_append]
      simp
    have hstop : cursor.position + (bytes.length + 1) ≤ cursor.size := by
      have hlength := length_behind cursor
      rw [hbehind, List.length_append, List.length_cons] at hlength
      omega
    rw [textAhead_of_append_zero hcursor hsize hbytes hbehind, hbehind,
      Reader.text_of_append_zero hbytes]
    cases Utf8.decode? bytes with
    | none =>
      rw [← hbehind]
      exact .error (by simp) (Nat.le_refl _) hcursor
    | some found =>
      rw [hothers]
      exact .ok (Nat.le_add_right _ _) hstop

end Scan
end CliMetadata
