/-!
# UTF-8 text

Strict decoding, which refuses ill-formed bytes, and lossy decoding, which puts one replacement
character for each maximal ill-formed part. Both walk the bytes with the same step.
-/

namespace CliMetadata.Utf8

/-- The bytes of a character. -/
def encodeChar (c : Char) : List UInt8 :=
  String.utf8EncodeChar c

/-- The bytes of a text. -/
def encode (text : String) : List UInt8 :=
  text.toList.flatMap encodeChar

/-- A byte that can only follow another one. -/
def isContinuation (byte : UInt8) : Bool :=
  0x80 ≤ byte && byte ≤ 0xBF

/-- The bytes allowed after a first byte of a form with at least three bytes: they keep out
overlong forms, surrogates and numbers above the last character. -/
def secondByteRange (first : UInt8) : UInt8 × UInt8 :=
  if first == 0xE0 then (0xA0, 0xBF)
  else if first == 0xED then (0x80, 0x9F)
  else if first == 0xF0 then (0x90, 0xBF)
  else if first == 0xF4 then (0x80, 0x8F)
  else (0x80, 0xBF)

/-- The low six bits of a continuation byte. -/
def payload (byte : UInt8) : Nat :=
  byte.toNat % 64

/-- What stands at the head of some bytes: a character, or nothing when they are ill formed, and how
many bytes after the first belong to it. -/
def step (first : UInt8) (rest : List UInt8) : Option Char × Nat :=
  if first < 0x80 then (some (Char.ofNat first.toNat), 0)
  else if 0xC2 ≤ first && first ≤ 0xDF then
    match rest with
    | b :: _ =>
      if isContinuation b then (some (Char.ofNat (first.toNat % 32 * 64 + payload b)), 1)
      else (none, 0)
    | [] => (none, 0)
  else if 0xE0 ≤ first && first ≤ 0xF4 then
    let range := secondByteRange first
    match rest with
    | b :: rest =>
      if range.1 ≤ b && b ≤ range.2 then
        match rest with
        | c :: rest =>
          if isContinuation c then
            if first ≤ 0xEF then
              (some (Char.ofNat ((first.toNat % 16 * 64 + payload b) * 64 + payload c)), 2)
            else
              match rest with
              | d :: _ =>
                if isContinuation d then
                  (some (Char.ofNat
                    (((first.toNat % 8 * 64 + payload b) * 64 + payload c) * 64 + payload d)), 3)
                else (none, 2)
              | [] => (none, 2)
          else (none, 1)
        | [] => (none, 1)
      else (none, 0)
    | [] => (none, 0)
  else (none, 0)

/-- The characters of well-formed bytes, nothing for ill-formed ones. -/
def decodeChars? : List UInt8 → Option (List Char)
  | [] => some []
  | first :: rest =>
    match step first rest with
    | (some c, width) => (decodeChars? (rest.drop width)).map (c :: ·)
    | (none, _) => none
termination_by bytes => bytes.length
decreasing_by simp only [List.length_drop, List.length_cons]; omega

/-- The text of well-formed bytes, nothing for ill-formed ones. -/
def decode? (bytes : List UInt8) : Option String :=
  (decodeChars? bytes).map String.ofList

/-- The characters of any bytes, ill-formed parts replaced. -/
def decodeCharsLossy : List UInt8 → List Char
  | [] => []
  | first :: rest =>
    match step first rest with
    | (some c, width) => c :: decodeCharsLossy (rest.drop width)
    | (none, width) => '\uFFFD' :: decodeCharsLossy (rest.drop width)
termination_by bytes => bytes.length
decreasing_by all_goals simp only [List.length_drop, List.length_cons]; omega

/-- The text of any bytes, ill-formed parts replaced. -/
def decodeLossy (bytes : List UInt8) : String :=
  String.ofList (decodeCharsLossy bytes)

end CliMetadata.Utf8
