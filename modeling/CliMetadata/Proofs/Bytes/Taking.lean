import CliMetadata.Proofs.Bytes.Compressed
import CliMetadata.Proofs.Bytes.Placement
import CliMetadata.Text.Utf8
import Mathlib.Data.List.TakeWhile

/-!
# Bytes that decide on a value

A reader that succeeds has taken some bytes at the front of its input. These alone decide on what it
finds, and what stands behind them is left. This holds of a chain of readers if it holds of each of
them.
-/

namespace CliMetadata
namespace Reader

variable {α β : Type}

/-- What is found comes from bytes at the front of the input that alone decide on it. -/
def IsLocal (reader : Reader α) : Prop :=
  ∀ ⦃input value rest⦄, reader.run input = .ok value rest →
    ∃ taken, input = taken ++ rest ∧ reader.Takes taken value

/-- A value looks at no byte. -/
lemma isLocal_pure (value : α) : (pure value : Reader α).IsLocal := by
  intro input found rest h
  obtain ⟨rfl, rfl⟩ := run_pure_eq_ok.mp h
  exact ⟨[], rfl, takes_pure value⟩

/-- A reader that always fails finds nothing. -/
lemma isLocal_throw (error : Error) : (throw error : Reader α).IsLocal := by
  intro input found rest h
  cases h

/-- Readers that look at no more than they take do so one after the other. -/
lemma IsLocal.bind {reader : Reader α} {next : α → Reader β} (h : reader.IsLocal)
    (hnext : ∀ value, (next value).IsLocal) : (reader >>= next).IsLocal := by
  intro input result rest hrun
  obtain ⟨value, between, hfirst, hsecond⟩ := run_bind_eq_ok.mp hrun
  obtain ⟨taken, rfl, htaken⟩ := h hfirst
  obtain ⟨others, rfl, hothers⟩ := hnext value hsecond
  exact ⟨taken ++ others, (List.append_assoc _ _ _).symm, htaken.bind hothers⟩

lemma IsLocal.map {reader : Reader α} (f : α → β) (h : reader.IsLocal) : (f <$> reader).IsLocal := by
  have hboth : (reader >>= fun value => pure (f value)).IsLocal :=
    h.bind fun value => isLocal_pure (f value)
  exact hboth

/-- Bytes are taken if there are enough of them. -/
lemma on_take (n : Nat) (bytes : Bytes) :
    (take n).on bytes = if n ≤ bytes.length then .ok (bytes.take n) else .error .outOfBounds := by
  rw [on, EStateM.run, take, splitExact_eq]
  by_cases h : n ≤ bytes.length
  · simp only [if_pos h]
  · simp only [if_neg h]

/-- The bytes that are taken stand in front of those that are left. -/
lemma eq_append_of_take {n : Nat} {input bytes rest : Bytes} (h : (take n).run input = .ok bytes rest) :
    input = bytes ++ rest ∧ bytes.length = n := by
  refine ⟨?_, ensures_take n h⟩
  rw [EStateM.run, take, splitExact_eq] at h
  by_cases hlong : n ≤ input.length
  · rw [if_pos hlong] at h
    obtain ⟨rfl, rfl⟩ := EStateM.Result.ok.inj h
    exact (List.take_append_drop n input).symm
  · rw [if_neg hlong] at h
    cases h

/-- Taking bytes looks at no other bytes. -/
lemma isLocal_take (n : Nat) : (take n).IsLocal := by
  intro input bytes rest h
  obtain ⟨hinput, rfl⟩ := eq_append_of_take h
  exact ⟨bytes, hinput, takes_take bytes⟩

/-- A number is read from its own bytes. -/
lemma isLocal_number (width : Nat) : (number width).IsLocal :=
  (isLocal_take width).map LittleEndian.value

/-- A byte is read from itself. -/
lemma isLocal_byte : byte.IsLocal := by
  intro input value rest h
  cases input with
  | nil => cases h
  | cons first others =>
    obtain ⟨rfl, rfl⟩ := EStateM.Result.ok.inj h
    exact ⟨[first], rfl, takes_byte first⟩

lemma isLocal_compressedUInt : compressedUInt.IsLocal := by
  refine isLocal_byte.bind fun first => ?_
  split
  · exact isLocal_pure _
  · split
    · exact isLocal_byte.bind fun second => isLocal_pure _
    · split
      · exact isLocal_byte.bind fun second => isLocal_byte.bind fun third =>
          isLocal_byte.bind fun fourth => isLocal_pure _
      · exact isLocal_throw _

lemma isLocal_compressedToken : compressedToken.IsLocal := by
  refine isLocal_compressedUInt.bind fun value => ?_
  split
  · exact isLocal_pure _
  · exact isLocal_throw _

lemma isLocal_compressedInt : compressedInt.IsLocal := by
  intro input number rest h
  obtain ⟨value, hvalue⟩ := exists_of_run_compressedInt h
  obtain ⟨taken, rfl, htaken⟩ := isLocal_compressedUInt hvalue
  have hnumber := compressedInt_of_run hvalue List.length_append
  obtain ⟨rfl, -⟩ := EStateM.Result.ok.inj (h.symm.trans hnumber)
  exact ⟨taken, rfl, fun behind => compressedInt_of_run (htaken behind) List.length_append⟩

/-! ## Texts -/

/-- The text up to the next zero byte, which is taken with it. Where it starts is only said if it can not
be read. -/
def text (start : Nat) : Reader String := fun bytes =>
  match bytes.dropWhile (· != 0) with
  | [] => .error (.malformed (.unterminatedString start)) bytes
  | _ :: rest =>
    match Utf8.decode? (bytes.takeWhile (· != 0)) with
    | none => .error (.malformed (.invalidUtf8 start)) bytes
    | some text => .ok text rest

variable {start : Nat} {bytes rest : Bytes}

/-- Without a zero byte there is no end. -/
lemma text_of_nonzero (h : ∀ b ∈ bytes, b ≠ 0) :
    (text start).run bytes = .error (.malformed (.unterminatedString start)) bytes := by
  have hnone : bytes.dropWhile (· != 0) = [] :=
    List.dropWhile_eq_nil_iff.mpr fun b hb => bne_iff_ne.mpr (h b hb)
  show text start bytes = _
  unfold text
  rw [hnone]

/-- A text ends in front of the first zero. -/
lemma text_of_append_zero (h : ∀ b ∈ bytes, b ≠ 0) :
    (text start).run (bytes ++ 0 :: rest) =
      match Utf8.decode? bytes with
      | none => .error (.malformed (.invalidUtf8 start)) (bytes ++ 0 :: rest)
      | some text => .ok text rest := by
  show text start (bytes ++ 0 :: rest) = _
  unfold text
  rw [dropWhile_append_zero h, takeWhile_append_zero h]

/-- A text is read from its own bytes and the zero behind them. -/
lemma isLocal_text (start : Nat) : (text start).IsLocal := by
  intro input value rest h
  rcases nonzero_or_append_zero input with hnonzero | ⟨bytes, others, hbytes, rfl⟩
  · rw [text_of_nonzero hnonzero] at h
    cases h
  · rw [text_of_append_zero hbytes] at h
    cases hdecode : Utf8.decode? bytes with
    | none =>
      simp only [hdecode] at h
      cases h
    | some found =>
      simp only [hdecode] at h
      obtain ⟨rfl, rfl⟩ := EStateM.Result.ok.inj h
      -- The zero byte is taken too, without which the text would not end there.
      refine ⟨bytes ++ [0], (List.append_cons bytes 0 others), fun behind => ?_⟩
      rw [← List.append_cons, text_of_append_zero hbytes]
      simp only [hdecode]

end Reader
end CliMetadata
