import CliMetadata.Bytes.Reader
import Mathlib.Tactic.Linarith

/-!
# Bytes that a reader takes

A reader takes some bytes if it reads a value from them whatever comes behind them, and leaves just
that. Readers that are run one after the other take the bytes of each, one after the other, so the
law of a format is put together from the laws of its parts.

What holds of every value that a reader gives, whatever the input was, is put together the same way.
-/

namespace CliMetadata
namespace Reader

variable {α β γ : Type}

/-- The reader reads `value` from `bytes`, whatever comes behind them, and leaves just that. -/
def Takes (reader : Reader α) (bytes : Bytes) (value : α) : Prop :=
  ∀ rest, reader.run (bytes ++ rest) = .ok value rest

/-! ## One after the other -/

/-- A reader that succeeds hands its value and what it leaves to the next one. -/
lemma bind_of_ok {reader : Reader α} {next : α → Reader β} {input rest : Bytes} {value : α}
    (h : reader.run input = .ok value rest) :
    (reader >>= next).run input = (next value).run rest := by
  rw [EStateM.run] at h
  show EStateM.bind reader next input = next value rest
  rw [EStateM.bind, h]

/-- A reader that fails leaves nothing to the next one. -/
lemma bind_of_error {reader : Reader α} {next : α → Reader β} {input rest : Bytes} {error : Error}
    (h : reader.run input = .error error rest) : (reader >>= next).run input = .error error rest := by
  rw [EStateM.run] at h
  show EStateM.bind reader next input = _
  rw [EStateM.bind, h]

/-- A value takes no bytes. -/
lemma takes_pure (value : α) : (pure value : Reader α).Takes [] value := by
  intro rest
  rfl

/-- What two readers take stands one behind the other. -/
lemma Takes.bind {reader : Reader α} {next : α → Reader β} {bytes others : Bytes} {value : α}
    {result : β} (h : reader.Takes bytes value) (hnext : (next value).Takes others result) :
    (reader >>= next).Takes (bytes ++ others) result := by
  intro rest
  rw [List.append_assoc, bind_of_ok (h (others ++ rest))]
  exact hnext rest

lemma Takes.map {reader : Reader α} {bytes : Bytes} {value : α} (f : α → β)
    (h : reader.Takes bytes value) : (f <$> reader).Takes bytes (f value) := by
  intro rest
  have hrest := h rest
  rw [EStateM.run] at hrest
  show EStateM.map f reader (bytes ++ rest) = .ok (f value) rest
  rw [EStateM.map, hrest]

/-- A reader whose value is only wrapped takes what it takes alone. -/
lemma Takes.bind_pure {reader : Reader α} {bytes : Bytes} {value : α} (f : α → β)
    (h : reader.Takes bytes value) :
    (reader >>= fun found => pure (f found)).Takes bytes (f value) := by
  have hboth : (reader >>= fun found => pure (f found)).Takes (bytes ++ []) (f value) :=
    h.bind (takes_pure (f value))
  rwa [List.append_nil] at hboth

/-- What is read does not depend on what comes behind. -/
lemma Takes.on_append {reader : Reader α} {bytes : Bytes} {value : α}
    (h : reader.Takes bytes value) (rest : Bytes) : reader.on (bytes ++ rest) = .ok value := by
  rw [on, h rest]

/-! ## Bytes and numbers of fixed width -/

/-- Bytes are taken as they are. -/
lemma takes_take (bytes : Bytes) : (take bytes.length).Takes bytes bytes := by
  intro rest
  simp [EStateM.run, take, splitExact_eq]

/-- A byte is taken as it is. -/
lemma takes_byte (b : UInt8) : byte.Takes [b] b := by
  intro rest
  rfl

/-- A byte that is read decides on what is read behind it. -/
lemma takes_byte_bind {next : UInt8 → Reader β} {b : UInt8} {bytes : Bytes} {result : β}
    (h : (next b).Takes bytes result) : (byte >>= next).Takes (b :: bytes) result :=
  (takes_byte b).bind h

lemma takes_number {width n : Nat} (h : n < 256 ^ width) :
    (number width).Takes (LittleEndian.encode width n) n := by
  have hwidth := takes_take (LittleEndian.encode width n)
  rw [LittleEndian.length_encode] at hwidth
  have hvalue := hwidth.map LittleEndian.value
  rw [LittleEndian.value_encode, Nat.pow_eq, Nat.mod_eq_of_lt h] at hvalue
  exact hvalue

lemma takes_word16 (word : UInt16) : word16.Takes (LittleEndian.of16 word) word := by
  have hnumber : (number 2).Takes (LittleEndian.of16 word) word.toNat :=
    takes_number word.toNat_lt
  have h := hnumber.map UInt16.ofNat
  rwa [UInt16.ofNat_toNat] at h

lemma takes_word32 (word : UInt32) : word32.Takes (LittleEndian.of32 word) word := by
  have hnumber : (number 4).Takes (LittleEndian.of32 word) word.toNat :=
    takes_number word.toNat_lt
  have h := hnumber.map UInt32.ofNat
  rwa [UInt32.ofNat_toNat] at h

lemma takes_word64 (word : UInt64) : word64.Takes (LittleEndian.of64 word) word := by
  have hnumber : (number 8).Takes (LittleEndian.of64 word) word.toNat :=
    takes_number word.toNat_lt
  have h := hnumber.map UInt64.ofNat
  rwa [UInt64.ofNat_toNat] at h

/-! ## Repetition -/

/-- A reader run once for each item takes the bytes of the items. -/
lemma takes_replicate {reader : Reader α} {encoded : List Bytes} {items : List α}
    (h : List.Forall₂ reader.Takes encoded items) :
    (replicate items.length reader).Takes encoded.flatten items := by
  induction h with
  | nil => exact takes_pure []
  | @cons bytes item encoded items hitem _ ih =>
    rw [List.flatten_cons]
    exact hitem.bind (ih.bind_pure (item :: ·))

/-! ## What holds of every value that is read -/

/-- A chain of readers succeeds if the first one does and the next one does on what that leaves. -/
lemma run_bind_eq_ok {reader : Reader α} {next : α → Reader β} {input rest : Bytes} {result : β} :
    (reader >>= next).run input = .ok result rest ↔
      ∃ value between, reader.run input = .ok value between ∧
        (next value).run between = .ok result rest := by
  constructor
  · intro h
    cases hfirst : reader.run input with
    | error error between =>
      -- A failure of the first reader is one of the chain.
      rw [EStateM.run] at hfirst
      change EStateM.bind reader next input = .ok result rest at h
      rw [EStateM.bind, hfirst] at h
      cases h
    | ok value between =>
      rw [bind_of_ok hfirst] at h
      exact ⟨value, between, rfl, h⟩
  · rintro ⟨value, between, hfirst, h⟩
    rwa [bind_of_ok hfirst]

/-- Whatever the reader reads, and from whatever bytes, it satisfies the predicate. -/
def Ensures (reader : Reader α) (P : α → Prop) : Prop :=
  ∀ ⦃input value rest⦄, reader.run input = .ok value rest → P value

lemma ensures_pure {P : α → Prop} {value : α} (h : P value) :
    (pure value : Reader α).Ensures P := by
  intro input found rest hfound
  obtain ⟨rfl, -⟩ : value = found ∧ input = rest := by
    simpa [pure, EStateM.pure, EStateM.run] using hfound
  exact h

/-- A reader that always fails ensures anything. -/
lemma ensures_throw (P : α → Prop) (error : Error) : (throw error : Reader α).Ensures P := by
  intro input value rest h
  cases h

/-- Nothing is read from malformed bytes, so anything is ensured. -/
lemma ensures_malformed (P : α → Prop) (defect : Defect) :
    (malformed defect : Reader α).Ensures P :=
  ensures_throw P _

/-- Bytes are taken in the number that was asked for. -/
lemma ensures_take (n : Nat) : (take n).Ensures fun bytes => bytes.length = n := by
  intro input value rest h
  rw [EStateM.run, take, splitExact_eq] at h
  by_cases hlong : n ≤ input.length
  · rw [if_pos hlong] at h
    obtain ⟨rfl, -⟩ : input.take n = value ∧ input.drop n = rest := by simpa using h
    rw [List.length_take, Nat.min_eq_left hlong]
  · rw [if_neg hlong] at h
    cases h

/-- What is ensured may be weakened. -/
lemma Ensures.mono {reader : Reader α} {P Q : α → Prop} (h : reader.Ensures P)
    (himp : ∀ value, P value → Q value) : reader.Ensures Q :=
  fun _ _ _ hread => himp _ (h hread)

/-- What the first of two readers ensures may be used for the second. -/
lemma Ensures.bind {reader : Reader α} {next : α → Reader β} {P : α → Prop} {Q : β → Prop}
    (h : reader.Ensures P) (hnext : ∀ value, P value → (next value).Ensures Q) :
    (reader >>= next).Ensures Q := by
  intro input result rest hread
  obtain ⟨value, between, hfirst, hsecond⟩ := run_bind_eq_ok.mp hread
  exact hnext value (h hfirst) hsecond

/-- Of the first of two readers nothing need be known. -/
lemma ensures_bind {reader : Reader α} {next : α → Reader β} {Q : β → Prop}
    (hnext : ∀ value, (next value).Ensures Q) : (reader >>= next).Ensures Q :=
  Ensures.bind (P := fun _ => True) (fun _ _ _ _ => trivial) fun value _ => hnext value

/-- A reader that finds something leaves something. -/
lemma run_of_on {reader : Reader α} {bytes : Bytes} {value : α} (h : reader.on bytes = .ok value) :
    ∃ rest, reader.run bytes = .ok value rest := by
  rw [Reader.on] at h
  cases hrun : reader.run bytes with
  | error error rest =>
    rw [hrun] at h
    cases h
  | ok found rest =>
    rw [hrun] at h
    obtain rfl : found = value := Except.ok.inj h
    exact ⟨rest, rfl⟩

lemma Ensures.on {reader : Reader α} {P : α → Prop} (h : reader.Ensures P) {bytes : Bytes}
    {value : α} (hread : reader.on bytes = .ok value) : P value := by
  obtain ⟨rest, hrun⟩ := run_of_on hread
  exact h hrun

/-- A reader run several times gives as many items, and ensures of each what it ensures alone. -/
lemma Ensures.replicate {reader : Reader α} {P : α → Prop} (h : reader.Ensures P) (count : Nat) :
    (replicate count reader).Ensures fun items =>
      items.length = count ∧ ∀ item ∈ items, P item := by
  induction count with
  | zero => exact ensures_pure ⟨rfl, by simp⟩
  | succ count ih =>
    refine h.bind fun first hfirst => ih.bind fun others hothers => ensures_pure ⟨?_, ?_⟩
    · rw [List.length_cons, hothers.1]
    · exact List.forall_mem_cons.mpr ⟨hfirst, hothers.2⟩

end Reader
end CliMetadata
