import CliMetadata.Proofs.Token
import CliMetadata.Signature.Decode
import CliMetadata.Signature.Encode

/-!
# Tokens and modifiers in signatures

The tokens of type definitions, references and specifications have a compressed form that gives them
back, and so do the modifiers in front of a type. Where modifiers end is seen from the byte behind
them.
-/

namespace CliMetadata

/-! ## Tokens -/

namespace Token

/-- The token of a type definition, reference or specification. -/
def NamesType (token : Token) : Prop :=
  token.isTable .typeDef ∨ token.isTable .typeRef ∨ token.isTable .typeSpec

instance (token : Token) : Decidable token.NamesType :=
  inferInstanceAs (Decidable (_ ∨ _ ∨ _))

/-- The row of a token above two bits for its table. -/
lemma toNat_row_or (token : Token) {tag : UInt32} (h : tag.toNat < 2 ^ 2) :
    ((token.row <<< 2) ||| tag).toNat = token.row.toNat * 2 ^ 2 + tag.toNat := by
  have hrow := token.toNat_row_lt
  have hshift : (token.row <<< 2).toNat = token.row.toNat * 2 ^ 2 := by
    rw [UInt32.toNat_shiftLeft, Nat.shiftLeft_eq]
    show token.row.toNat * 2 ^ 2 % 2 ^ 32 = token.row.toNat * 2 ^ 2
    omega
  rw [UInt32.toNat_or, hshift, high_or_low 2 _ h]

/-- The compressed form of a token whose table has a tag gives the token back. -/
lemma takes_tagged {token : Token} {table : TableId} {tag : UInt32} (htag : tag.toNat < 2 ^ 2)
    (htable : token.isTable table)
    (hbits : Reader.compressedTable? tag = some (UInt32.ofNat table.number <<< 24)) :
    Reader.compressedToken.Takes (compressUInt ((token.row <<< 2) ||| tag)) token := by
  set value := (token.row <<< 2) ||| tag with hdef
  have hrow := token.toNat_row_lt
  have hvalue : value.toNat = token.row.toNat * 2 ^ 2 + tag.toNat := token.toNat_row_or htag
  -- The tag is taken off the low two bits, and the row is what is left.
  have hlow : value &&& 3 = tag := by
    rw [← UInt32.toNat_inj, UInt32.toNat_and, hvalue]
    show (token.row.toNat * 2 ^ 2 + tag.toNat) &&& (2 ^ 2 - 1) = tag.toNat
    rw [Nat.and_two_pow_sub_one_eq_mod]
    omega
  have hhigh : value >>> 2 = token.row := by
    rw [← UInt32.toNat_inj, UInt32.toNat_shiftRight, Nat.shiftRight_eq_div_pow, hvalue]
    show (token.row.toNat * 2 ^ 2 + tag.toNat) / 2 ^ 2 = token.row.toNat
    omega
  have hmask : token.row &&& rowMask = token.row := by
    rw [← UInt32.toNat_inj, toNat_and_rowMask, Nat.mod_eq_of_lt hrow]
  have htoken : (⟨(UInt32.ofNat table.number <<< 24) ||| (value >>> 2)⟩ : Token) = token := by
    rw [hhigh, ← hmask]
    exact ofParts_row htable
  have hlimit : value.toNat < compressedLimit := by
    rw [hvalue, compressedLimit]
    omega
  have hread := Reader.takes_compressedUInt hlimit
  rw [← List.append_nil (compressUInt value)]
  refine hread.bind ?_
  rw [hlow, hbits]
  show (pure _ : Reader Token).Takes [] token
  rw [htoken]
  exact Reader.takes_pure token

/-- The token of a type is written, and the reader of tokens finds it again. -/
lemma exists_encodeType {token : Token} (h : token.NamesType) :
    ∃ bytes, token.encodeType = .ok bytes ∧ Reader.compressedToken.Takes bytes token := by
  have hzero : token.row <<< 2 = (token.row <<< 2) ||| 0 := by simp
  -- The tables are tried in the order of their tags. Tag zero leaves no trace in the number.
  unfold encodeType typeNumber
  by_cases hdef : token.isTable .typeDef
  · refine ⟨compressUInt ((token.row <<< 2) ||| 0), ?_, takes_tagged (by decide) hdef rfl⟩
    rw [if_pos hdef, ← hzero]
    rfl
  · rw [if_neg hdef]
    by_cases href : token.isTable .typeRef
    · exact ⟨_, by rw [if_pos href]; rfl, takes_tagged (by decide) href rfl⟩
    · have hspec : token.isTable .typeSpec := by
        rcases h with h | h | h
        · exact absurd h hdef
        · exact absurd h href
        · exact h
      exact ⟨_, by rw [if_neg href, if_pos hspec]; rfl, takes_tagged (by decide) hspec rfl⟩

end Token

/-! ## Modifiers -/

namespace Modifier

/-- A byte that stands in front of a modifier. -/
def Announces (b : UInt8) : Prop := b = requiredByte ∨ b = optionalByte

instance (b : UInt8) : Decidable (Announces b) := inferInstanceAs (Decidable (_ ∨ _))

/-- No modifier stands at the front. -/
def NoneAt (bytes : Bytes) : Prop := ∀ b ∈ bytes.head?, ¬ Announces b

/-- The byte in front of a modifier. -/
def lead (modifier : Modifier) : UInt8 :=
  if modifier.required then requiredByte else optionalByte

/-- A modifier is written, and its byte and token give it back. -/
lemma exists_encode {modifier : Modifier} (h : modifier.token.NamesType) :
    ∃ bytes, modifier.encode = .ok (modifier.lead :: bytes) ∧
      Reader.compressedToken.Takes bytes modifier.token := by
  obtain ⟨bytes, hbytes, htakes⟩ := Token.exists_encodeType h
  refine ⟨bytes, ?_, htakes⟩
  rw [encode, hbytes]
  rfl

/-- Modifiers are written one after the other. -/
lemma encodeAll_cons {modifier : Modifier} {modifiers : List Modifier} {bytes others : Bytes}
    (h : modifier.encode = .ok bytes) (hothers : encodeAll modifiers = .ok others) :
    encodeAll (modifier :: modifiers) = .ok (bytes ++ others) := by
  rw [encodeAll] at hothers ⊢
  rw [List.mapM_cons, h]
  cases hrest : modifiers.mapM encode with
  | error error =>
    rw [hrest] at hothers
    exact absurd hothers (by simp [bind, Except.bind])
  | ok encoded =>
    rw [hrest] at hothers
    obtain rfl : encoded.flatten = others := Except.ok.inj hothers
    rfl

lemma lead_announces (modifier : Modifier) : Announces modifier.lead := by
  unfold lead
  cases modifier.required
  · exact Or.inr rfl
  · exact Or.inl rfl

lemma lead_eq_required (modifier : Modifier) :
    (modifier.lead == requiredByte) = modifier.required := by
  unfold lead
  cases modifier.required <;> rfl

/-- Nothing is read where no modifier stands. -/
lemma readUpTo_none {rest : Bytes} (h : NoneAt rest) (count : Nat) :
    (readUpTo count).run rest = .ok [] rest := by
  cases count with
  | zero => rfl
  | succ count =>
    cases rest with
    | nil => rfl
    | cons b rest =>
      have hb : ¬ Announces b := h b rfl
      have hne : (b == requiredByte || b == optionalByte) = false := by
        simpa [Announces] using hb
      have hpeek : Reader.peek?.run (b :: rest) = .ok (some b) (b :: rest) := rfl
      rw [readUpTo, Reader.bind_of_ok hpeek]
      simp only [hne]
      rfl

/-- The first of some modifiers is read before the others. -/
lemma readUpTo_cons {modifier : Modifier} {modifiers : List Modifier} {bytes input rest : Bytes}
    {count : Nat} (h : Reader.compressedToken.Takes bytes modifier.token)
    (hothers : (readUpTo count).run input = .ok modifiers rest) :
    (readUpTo (count + 1)).run (modifier.lead :: bytes ++ input)
      = .ok (modifier :: modifiers) rest := by
  have hpeek : Reader.peek?.run (modifier.lead :: bytes ++ input)
      = .ok (some modifier.lead) (modifier.lead :: bytes ++ input) := rfl
  have hbyte : Reader.byte.run (modifier.lead :: bytes ++ input)
      = .ok modifier.lead (bytes ++ input) := rfl
  have hlead : (modifier.lead == requiredByte || modifier.lead == optionalByte) = true := by
    simpa [Announces] using modifier.lead_announces
  rw [readUpTo, Reader.bind_of_ok hpeek]
  simp only [hlead, if_true]
  rw [Reader.bind_of_ok hbyte, Reader.bind_of_ok (h input), Reader.bind_of_ok hothers,
    modifier.lead_eq_required]
  rfl

/-- Modifiers are written, and the reader finds them again if none stands behind them. Nothing else
is written in front of them. -/
lemma exists_encodeAll {modifiers : List Modifier}
    (h : ∀ modifier ∈ modifiers, modifier.token.NamesType) :
    ∃ bytes, encodeAll modifiers = .ok bytes ∧ (∀ b ∈ bytes.head?, Announces b) ∧
      ∀ rest, NoneAt rest → readAll.run (bytes ++ rest) = .ok modifiers rest := by
  -- The reader counts down from the length of its input, so the induction is for every count that
  -- is large enough.
  suffices hcount : ∃ bytes, encodeAll modifiers = .ok bytes ∧ (∀ b ∈ bytes.head?, Announces b) ∧
      modifiers.length ≤ bytes.length ∧
      ∀ count rest, modifiers.length ≤ count → NoneAt rest →
        (readUpTo count).run (bytes ++ rest) = .ok modifiers rest by
    obtain ⟨bytes, hbytes, hhead, hlength, hread⟩ := hcount
    refine ⟨bytes, hbytes, hhead, fun rest hrest => ?_⟩
    refine hread (bytes ++ rest).length rest ?_ hrest
    rw [List.length_append]
    omega
  induction modifiers with
  | nil =>
    exact ⟨[], rfl, by simp, Nat.le_refl 0, fun count rest _ hrest => readUpTo_none hrest count⟩
  | cons modifier modifiers ih =>
    obtain ⟨first, hfirst, htakes⟩ := exists_encode (h modifier List.mem_cons_self)
    obtain ⟨others, hothers, _, hlength, hread⟩ :=
      ih fun other hother => h other (List.mem_cons_of_mem modifier hother)
    refine ⟨_, encodeAll_cons hfirst hothers, ?_, ?_, fun count rest hcount hrest => ?_⟩
    · intro b hb
      obtain rfl : modifier.lead = b := by simpa using hb
      exact modifier.lead_announces
    · simp only [List.length_cons, List.length_append]
      omega
    · rw [List.length_cons] at hcount
      obtain ⟨count, rfl⟩ : ∃ fewer, count = fewer + 1 := ⟨count - 1, by omega⟩
      rw [List.append_assoc]
      exact readUpTo_cons htakes (hread count rest (by omega) hrest)

end Modifier
end CliMetadata
