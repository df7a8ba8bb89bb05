import CliMetadata.Image.Root
import CliMetadata.Proofs.Bytes.Placement
import CliMetadata.Proofs.Bytes.Reading
import CliMetadata.Proofs.Except
import CliMetadata.Proofs.Text.Utf8
import Mathlib.Data.List.Perm.Subperm

/-!
# Reading a root that was written

The root of an image that was written gives back the version and the headers of the streams, and each
header tells where the content of its stream lies.
-/

namespace CliMetadata

/-! ## Stream headers -/

namespace StreamHeader

lemma length_encode (header : StreamHeader) : header.encode.length = header.encodedLength := by
  have hword : ∀ word : UInt32, (LittleEndian.of32 word).length = 4 := fun word =>
    LittleEndian.length_encode 4 word.toNat
  rw [encode, encodedLength, nameLength, List.length_append, List.length_append, hword, hword,
    length_padTo4, List.length_append, Utf8.length_encode]
  rfl

/-- A header takes more than nine bytes. -/
lemma nine_le_encodedLength (header : StreamHeader) : 9 ≤ header.encodedLength := by
  have hle := le_roundUp4 (header.name.utf8ByteSize + 1)
  rw [encodedLength, nameLength]
  omega

/-- The names of streams have no zeros and end within the limit. -/
lemma name_spec : ∀ name ∈ names, '\x00' ∉ name.toList ∧ name.utf8ByteSize < nameLimit := by
  decide

/-- A header with a name of a stream is read back. -/
lemma decode_encode {header : StreamHeader} (h : header.name ∈ names) (rest : Bytes) :
    decode (header.encode ++ rest) = .ok header := by
  obtain ⟨hzero, hlimit⟩ := name_spec header.name h
  rw [← Utf8.length_encode] at hlimit
  have hword : ∀ word : UInt32, (LittleEndian.of32 word).length = 4 := fun word =>
    LittleEndian.length_encode 4 word.toNat
  -- The padding starts with the zero byte behind the name, so the name ends there whatever follows.
  obtain ⟨more, hmore⟩ : ∃ more, header.encode ++ rest = LittleEndian.of32 header.offset ++
      (LittleEndian.of32 header.size ++ (Utf8.encode header.name ++ 0 :: more)) := by
    obtain ⟨zeros, hzeros⟩ := prefix_padTo4 (Utf8.encode header.name ++ [0])
    refine ⟨zeros ++ rest, ?_⟩
    rw [encode, ← hzeros]
    simp only [List.append_assoc]
    rfl
  have hlength : 9 ≤ (header.encode ++ rest).length := by
    rw [List.length_append, length_encode]
    exact Nat.le_add_right_of_le header.nine_le_encodedLength
  have hoffset : Reader.word32.on (header.encode ++ rest) = .ok header.offset := by
    rw [hmore]
    exact (Reader.takes_word32 header.offset).on_append _
  have hdrop4 : (header.encode ++ rest).drop 4 = LittleEndian.of32 header.size ++
      (Utf8.encode header.name ++ 0 :: more) := by
    rw [hmore, List.drop_left' (hword _)]
  have hsize : Reader.word32.on ((header.encode ++ rest).drop 4) = .ok header.size := by
    rw [hdrop4]
    exact (Reader.takes_word32 header.size).on_append _
  have hfield : ((header.encode ++ rest).drop 8).take nameLimit
      = Utf8.encode header.name ++ 0 :: more.take (nameLimit - 1 - (Utf8.encode header.name).length)
      := by
    have hdrop8 : (header.encode ++ rest).drop 8 = ((header.encode ++ rest).drop 4).drop 4 := by
      rw [List.drop_drop]
    obtain ⟨left, hleft⟩ : ∃ left, nameLimit - (Utf8.encode header.name).length = left + 1 :=
      ⟨nameLimit - (Utf8.encode header.name).length - 1, by omega⟩
    rw [hdrop8, hdrop4, List.drop_left' (hword _), List.take_append,
      List.take_of_length_le (Nat.le_of_lt hlimit), hleft, List.take_succ_cons]
    congr 3
    omega
  have hname : (((header.encode ++ rest).drop 8).take nameLimit).takeWhile (· != 0)
      = Utf8.encode header.name := by
    rw [hfield]
    exact Utf8.takeWhile_encode hzero _
  have hends : (Utf8.encode header.name).length
      ≠ (((header.encode ++ rest).drop 8).take nameLimit).length := by
    rw [hfield]
    simp
  -- All checks of the reader are settled, and it gives the header.
  have hlong : ¬ (header.encode ++ rest).length < 9 := Nat.not_lt.mpr hlength
  have hknown : ¬ header.name ∉ names := not_not.mpr h
  simp only [decode, if_neg hlong, hname, if_neg hends, Utf8.decodeLossy_encode, if_neg hknown,
    hoffset, hsize, ok_bind]
  rfl

end StreamHeader

/-! ## Streams in their places -/

namespace Root

/-- The header has the name of the stream and tells where its padded content lies in the image. -/
structure Places (image : Bytes) (stream : String × Bytes) (header : StreamHeader) : Prop where
  name_eq : header.name = stream.1
  stop_le : header.stop ≤ image.length
  content_eq : header.content image = padTo4 stream.2

/-- The first of some streams that are written behind a front has the offset at which that ends, and the
others are written behind it. -/
lemma placeStreams_cons {image front : Bytes} {stream : String × Bytes}
    {streams : List (String × Bytes)}
    (himage : image = front ++ (stream :: streams).flatMap fun stream => padTo4 stream.2)
    (hsmall : image.length < 2 ^ 32) :
    ∃ header, placeStreams (stream :: streams) front.length
        = header :: placeStreams streams (front ++ padTo4 stream.2).length ∧
      header.name = stream.1 ∧ header.offset.toNat = front.length ∧
      header.size.toNat = (padTo4 stream.2).length := by
  have hlength : front.length + roundUp4 stream.2.length ≤ image.length := by
    rw [himage, List.flatMap_cons, List.length_append, List.length_append, length_padTo4]
    omega
  refine ⟨⟨UInt32.ofNat front.length, UInt32.ofNat (roundUp4 stream.2.length), stream.1⟩, ?_, rfl,
    ?_, ?_⟩
  · rw [List.length_append, length_padTo4]
    rfl
  · show (UInt32.ofNat front.length).toNat = front.length
    rw [UInt32.toNat_ofNat', Nat.mod_eq_of_lt (by omega)]
  · show (UInt32.ofNat (roundUp4 stream.2.length)).toNat = (padTo4 stream.2).length
    rw [length_padTo4, UInt32.toNat_ofNat', Nat.mod_eq_of_lt (by omega)]

/-- Streams that are written one after the other lie where their headers say. -/
lemma places_placeStreams {image front : Bytes} {streams : List (String × Bytes)}
    (himage : image = front ++ streams.flatMap fun stream => padTo4 stream.2)
    (hsmall : image.length < 2 ^ 32) :
    List.Forall₂ (Places image) streams (placeStreams streams front.length) := by
  induction streams generalizing front with
  | nil => exact List.Forall₂.nil
  | cons stream streams ih =>
    obtain ⟨header, hheaders, hname, hoffset, hsize⟩ := placeStreams_cons himage hsmall
    rw [List.flatMap_cons] at himage
    have hothers := ih (himage.trans (List.append_assoc _ _ _).symm)
    rw [hheaders]
    refine List.Forall₂.cons ⟨hname, ?_, ?_⟩ hothers
    · rw [StreamHeader.stop, hoffset, hsize, himage]
      simp only [List.length_append]
      omega
    · rw [StreamHeader.content, hoffset, hsize, himage, List.drop_left, List.take_left]

lemma map_name_placeStreams (streams : List (String × Bytes)) (offset : Nat) :
    (placeStreams streams offset).map (·.name) = streams.map (·.1) := by
  induction streams generalizing offset with
  | nil => rfl
  | cons stream streams ih => rw [placeStreams, List.map_cons, ih, List.map_cons]

/-- How long the headers are depends on the names only. -/
lemma encodedLength_placeStreams (streams : List (String × Bytes)) (offset other : Nat) :
    (placeStreams streams offset).map StreamHeader.encodedLength
      = (placeStreams streams other).map StreamHeader.encodedLength := by
  induction streams generalizing offset other with
  | nil => rfl
  | cons stream streams ih =>
    simp only [placeStreams, List.map_cons]
    rw [ih _ (other + roundUp4 stream.2.length)]
    rfl

lemma length_placeStreams (streams : List (String × Bytes)) (offset : Nat) :
    (placeStreams streams offset).length = streams.length := by
  induction streams generalizing offset with
  | nil => rfl
  | cons stream streams ih => rw [placeStreams, List.length_cons, ih, List.length_cons]

lemma length_directory (headers : List StreamHeader) :
    (headers.flatMap StreamHeader.encode).length
      = (headers.map StreamHeader.encodedLength).foldr (· + ·) 0 := by
  induction headers with
  | nil => rfl
  | cons header headers ih =>
    rw [List.flatMap_cons, List.length_append, ih, header.length_encode]
    rfl

lemma mul_nine_le_directory (headers : List StreamHeader) :
    headers.length * 9 ≤ (headers.flatMap StreamHeader.encode).length := by
  induction headers with
  | nil => exact Nat.le_refl 0
  | cons header headers ih =>
    have hheader := header.nine_le_encodedLength
    rw [List.flatMap_cons, List.length_append, header.length_encode, List.length_cons]
    omega

/-! ## The parts of an image -/

/-- The fields of a root in front of its version. -/
def fixedPart (versionLength : UInt32) : Bytes :=
  LittleEndian.of32 magic ++ (LittleEndian.of16 1 ++ (LittleEndian.of16 1 ++ (LittleEndian.of32 0 ++
    LittleEndian.of32 versionLength)))

/-- The version of an image with the zeros behind it. -/
def versionField (version : String) : Bytes := padTo4 (Utf8.encode version ++ [0])

/-- The headers of an image, which count where the streams behind them lie. -/
def directory (version : String) (streams : List (String × Bytes)) : List StreamHeader :=
  placeStreams streams (16 + (versionField version).length + 4 +
    ((placeStreams streams 0).map StreamHeader.encodedLength).foldr (· + ·) 0)

/-- The part of an image in front of the streams. -/
def head (version : String) (streams : List (String × Bytes)) : Bytes :=
  fixedPart (UInt32.ofNat (versionField version).length) ++ (versionField version ++
    (LittleEndian.of16 0 ++ (LittleEndian.of16 (UInt16.ofNat streams.length) ++
      (directory version streams).flatMap StreamHeader.encode)))

lemma writeImage_eq (version : String) (streams : List (String × Bytes)) :
    writeImage version streams
      = head version streams ++ streams.flatMap fun stream => padTo4 stream.2 := by
  simp only [writeImage, head, fixedPart, List.append_assoc]
  rfl

lemma length_head (version : String) (streams : List (String × Bytes)) :
    (head version streams).length = 16 + (versionField version).length + 4 +
      ((directory version streams).flatMap StreamHeader.encode).length := by
  have hfixed : (fixedPart (UInt32.ofNat (versionField version).length)).length = 16 := rfl
  have hword : ∀ word : UInt16, (LittleEndian.of16 word).length = 2 := fun word =>
    LittleEndian.length_encode 2 word.toNat
  rw [head]
  simp only [List.length_append, hfixed, hword]
  omega

/-- The first stream lies just behind the head. -/
lemma directory_eq (version : String) (streams : List (String × Bytes)) :
    directory version streams = placeStreams streams (head version streams).length := by
  have hlength : ((directory version streams).flatMap StreamHeader.encode).length
      = ((placeStreams streams 0).map StreamHeader.encodedLength).foldr (· + ·) 0 := by
    rw [length_directory, directory, encodedLength_placeStreams _ _ 0]
  rw [length_head, hlength, directory]

/-! ## Reading the directory -/

/-- The headers that stand one after the other are read, if their names differ and their streams lie
in the image. -/
lemma readStreams_encode {data front rest : Bytes} {headers before : List StreamHeader}
    (hdata : data = front ++ (headers.flatMap StreamHeader.encode ++ rest))
    (hnames : ∀ header ∈ headers, header.name ∈ StreamHeader.names)
    (hnodup : ((before ++ headers).map (·.name)).Nodup)
    (hstop : ∀ header ∈ headers, header.stop ≤ data.length) (hsmall : data.length < 2 ^ 32) :
    readStreams data headers.length front.length before = .ok (before ++ headers) := by
  -- The headers that were read before go into the induction, since the reader refuses a name it
  -- has seen.
  induction headers generalizing front before with
  | nil => rw [List.append_nil]; rfl
  | cons header headers ih =>
    have hdrop : data.drop front.length
        = header.encode ++ (headers.flatMap StreamHeader.encode ++ rest) := by
      rw [hdata, List.drop_left, List.flatMap_cons, List.append_assoc]
    have hheader := StreamHeader.decode_encode (hnames header List.mem_cons_self)
      (headers.flatMap StreamHeader.encode ++ rest)
    have hfront : ¬ data.length < front.length := by
      rw [hdata, List.length_append]
      omega
    have hend := hstop header List.mem_cons_self
    have hfits : ¬ header.stop ≥ UInt32.size := by
      rw [UInt32.size]
      omega
    -- All names differ, so none of the headers before has this one.
    have hnew : before.any (·.name == header.name) = false := by
      rw [List.any_eq_false]
      intro other hother hequal
      rw [List.map_append, List.map_cons] at hnodup
      refine (List.nodup_append.mp hnodup).2.2 other.name (List.mem_map_of_mem hother)
        header.name List.mem_cons_self ?_
      exact beq_iff_eq.mp hequal
    have hrest : data = (front ++ header.encode) ++ (headers.flatMap StreamHeader.encode ++ rest) := by
      rw [hdata, List.flatMap_cons]
      simp only [List.append_assoc]
    have hdistinct : (((before ++ [header]) ++ headers).map (·.name)).Nodup := by
      rwa [List.append_assoc]
    have hothers := ih hrest
      (fun other hother => hnames other (List.mem_cons_of_mem header hother)) hdistinct
      (fun other hother => hstop other (List.mem_cons_of_mem header hother))
    rw [List.length_append, header.length_encode, List.append_assoc] at hothers
    simp only [List.length_cons, readStreams, if_neg hfront, hdrop, hheader, ok_bind, if_neg hfits,
      if_neg (Nat.not_lt.mpr hend), hnew]
    exact hothers

/-- The root gives what its fields and its directory say. -/
lemma decode_of_fields {image field rest : Bytes} {versionLength : UInt32} {streamCount : UInt16}
    {headers : List StreamHeader} {version : String}
    (himage : image = fixedPart versionLength ++ (field ++ (LittleEndian.of16 0 ++
      (LittleEndian.of16 streamCount ++ rest))))
    (hfield : field.length = versionLength.toNat)
    (hversion : Utf8.decodeLossy (field.takeWhile (· != 0)) = version)
    (hcount : streamCount.toNat ≠ 0 ∧ streamCount.toNat ≤ maxStreams)
    (hlong : streamCount.toNat * 9 ≤ image.length)
    (hheaders : readStreams image streamCount.toNat (16 + versionLength.toNat + 4) []
      = .ok headers) :
    decode image = .ok ⟨magic, 1, 1, 0, versionLength, version, 0, streamCount, headers⟩ := by
  have hword : ∀ word : UInt16, (LittleEndian.of16 word).length = 2 := fun word =>
    LittleEndian.length_encode 2 word.toNat
  have hsize : image.length = 16 + versionLength.toNat + 4 + rest.length := by
    have hfixed : (fixedPart versionLength).length = 16 := rfl
    rw [himage]
    simp only [List.length_append, hfixed, hfield, hword]
    omega
  -- The fixed part, the version and the two numbers behind it, each at its offset.
  have hdrop4 : image.drop 4 = LittleEndian.of16 1 ++ image.drop 6 := by rw [himage]; rfl
  have hdrop6 : image.drop 6 = LittleEndian.of16 1 ++ image.drop 8 := by rw [himage]; rfl
  have hdrop8 : image.drop 8 = LittleEndian.of32 0 ++ image.drop 12 := by rw [himage]; rfl
  have hdrop12 : image.drop 12 = LittleEndian.of32 versionLength ++ image.drop 16 := by
    rw [himage]; rfl
  have hdrop16 : image.drop 16 = field ++ (LittleEndian.of16 0 ++
      (LittleEndian.of16 streamCount ++ rest)) := by rw [himage]; rfl
  have hflags : image.drop (16 + versionLength.toNat) = LittleEndian.of16 0 ++
      (LittleEndian.of16 streamCount ++ rest) := by
    rw [← List.drop_drop, hdrop16, List.drop_left' hfield]
  have hstreamCount : image.drop (16 + versionLength.toNat + 2)
      = LittleEndian.of16 streamCount ++ rest := by
    rw [← List.drop_drop, hflags, List.drop_left' (hword 0)]
  have hmagic : Reader.word32.on image = .ok magic := by
    rw [himage, fixedPart, List.append_assoc]
    exact (Reader.takes_word32 magic).on_append _
  have hmajor : Reader.word16.on (image.drop 4) = .ok 1 := by
    rw [hdrop4]
    exact (Reader.takes_word16 1).on_append _
  have hminor : Reader.word16.on (image.drop 6) = .ok 1 := by
    rw [hdrop6]
    exact (Reader.takes_word16 1).on_append _
  have hreserved : Reader.word32.on (image.drop 8) = .ok 0 := by
    rw [hdrop8]
    exact (Reader.takes_word32 0).on_append _
  have hversionLength : Reader.word32.on (image.drop 12) = .ok versionLength := by
    rw [hdrop12]
    exact (Reader.takes_word32 versionLength).on_append _
  have hflagWord : Reader.word16.on (image.drop (16 + versionLength.toNat)) = .ok 0 := by
    rw [hflags]
    exact (Reader.takes_word16 0).on_append _
  have hcountWord : Reader.word16.on (image.drop (16 + versionLength.toNat + 2))
      = .ok streamCount := by
    rw [hstreamCount]
    exact (Reader.takes_word16 streamCount).on_append _
  have htaken : (image.drop 16).take versionLength.toNat = field := by
    rw [hdrop16, ← hfield, List.take_left]
  have hlarge : ¬ image.length < 20 := by omega
  have hends : ¬ image.length < 16 + versionLength.toNat + 4 := by omega
  have hallowed : ¬ (streamCount.toNat = 0 ∨ maxStreams < streamCount.toNat ∨
      image.length < streamCount.toNat * 9) := by omega
  simp only [decode, if_neg hlarge, hmagic, ne_eq, not_true_eq_false, if_false, hversionLength,
    if_neg hends, hflagWord, hcountWord, if_neg hallowed, hheaders, hmajor, hminor, hreserved,
    htaken, hversion, ok_bind]
  rfl

/-- The number of streams is small, as their names differ. -/
lemma length_le_maxStreams {streams : List (String × Bytes)}
    (hnames : ∀ stream ∈ streams, stream.1 ∈ StreamHeader.names)
    (hnodup : (streams.map (·.1)).Nodup) : streams.length ≤ maxStreams := by
  have hsub : streams.map (·.1) ⊆ StreamHeader.names := by
    intro name hname
    obtain ⟨stream, hstream, rfl⟩ := List.mem_map.mp hname
    exact hnames stream hstream
  have hle := (hnodup.subperm hsub).length_le
  rwa [List.length_map] at hle

/-- The root of an image that is written. -/
def written (version : String) (streams : List (String × Bytes)) : Root where
  signature := magic
  majorVersion := 1
  minorVersion := 1
  reserved := 0
  versionLength := UInt32.ofNat (versionField version).length
  version := version
  flags := 0
  streamCount := UInt16.ofNat streams.length
  streams := directory version streams

/-- The headers in the directory tell where the streams lie. -/
lemma places_directory {version : String} {streams : List (String × Bytes)} {image : Bytes}
    (himage : writeImage version streams = image) (hsmall : image.length < 2 ^ 32) :
    List.Forall₂ (Places image) streams (directory version streams) := by
  rw [writeImage_eq] at himage
  rw [directory_eq]
  exact places_placeStreams himage.symm hsmall

/-- The version field is as long as its word says, as the image is small. -/
lemma toNat_versionLength {version : String} {streams : List (String × Bytes)} {image : Bytes}
    (himage : writeImage version streams = image) (hsmall : image.length < 2 ^ 32) :
    (UInt32.ofNat (versionField version).length).toNat = (versionField version).length := by
  have hlength := length_head version streams
  have hle : (head version streams).length ≤ image.length := by
    rw [← himage, writeImage_eq, List.length_append]
    exact Nat.le_add_right _ _
  rw [UInt32.toNat_ofNat', Nat.mod_eq_of_lt (by omega)]

/-- The version is what stands in its field in front of the first zero byte. -/
lemma decodeLossy_versionField {version : String} (h : '\x00' ∉ version.toList) :
    Utf8.decodeLossy ((versionField version).takeWhile (· != 0)) = version := by
  obtain ⟨zeros, hzeros⟩ := prefix_padTo4 (Utf8.encode version ++ [0])
  have htext : versionField version = Utf8.encode version ++ 0 :: zeros := by
    rw [versionField, ← hzeros, List.append_assoc]
    rfl
  rw [htext, Utf8.takeWhile_encode h, Utf8.decodeLossy_encode]

/-- The directory stands behind the version and two numbers of two bytes. -/
lemma length_beforeDirectory {field : Bytes} {versionLength : UInt32} {streamCount : UInt16}
    (hfield : field.length = versionLength.toNat) :
    (fixedPart versionLength ++ (field ++ (LittleEndian.of16 0 ++
      LittleEndian.of16 streamCount))).length = 16 + versionLength.toNat + 4 := by
  have hfixed : (fixedPart versionLength).length = 16 := rfl
  have hword : ∀ word : UInt16, (LittleEndian.of16 word).length = 2 := fun word =>
    LittleEndian.length_encode 2 word.toNat
  simp only [List.length_append, hfixed, hword, hfield]
  omega

/-- The root of an image is read as it was written. -/
lemma decode_writeImage_eq {version : String} {streams : List (String × Bytes)} {image : Bytes}
    (himage : writeImage version streams = image) (hversion : '\x00' ∉ version.toList)
    (hnames : ∀ stream ∈ streams, stream.1 ∈ StreamHeader.names)
    (hnodup : (streams.map (·.1)).Nodup) (hne : streams ≠ []) (hsmall : image.length < 2 ^ 32) :
    decode image = .ok (written version streams) := by
  set field := versionField version with hfield
  set headers := directory version streams with hheaders
  have hplaces := places_directory himage hsmall
  have hfieldLength : field.length = (UInt32.ofNat field.length).toNat :=
    (toNat_versionLength himage hsmall).symm
  rw [writeImage_eq] at himage
  have hheadLength : (head version streams).length ≤ image.length := by
    rw [← himage, List.length_append]
    exact Nat.le_add_right _ _
  have hlength := length_head version streams
  rw [← hfield, ← hheaders] at hlength
  -- There are no more streams than there are names, so their number fits its two bytes.
  have hmax : streams.length ≤ 6 := length_le_maxStreams hnames hnodup
  have hcount : (UInt16.ofNat streams.length).toNat = streams.length := by
    rw [UInt16.toNat_ofNat', Nat.mod_eq_of_lt (by omega)]
  have hpos : 0 < streams.length := List.length_pos_iff.mpr hne
  have hheadersLength : headers.length = streams.length := length_placeStreams streams _
  have hsplit : image = (fixedPart (UInt32.ofNat field.length) ++ (field ++ (LittleEndian.of16 0 ++
      LittleEndian.of16 (UInt16.ofNat streams.length)))) ++
        (headers.flatMap StreamHeader.encode ++ streams.flatMap fun stream => padTo4 stream.2) := by
    rw [← himage, head]
    simp only [List.append_assoc, hfield, hheaders]
  have hread : readStreams image headers.length
      (fixedPart (UInt32.ofNat field.length) ++ (field ++ (LittleEndian.of16 0 ++
        LittleEndian.of16 (UInt16.ofNat streams.length)))).length [] = .ok headers := by
    -- What the directory says of a stream is what `Places` says of it.
    refine readStreams_encode hsplit ?_ ?_ ?_ hsmall
    · intro header hheader
      obtain ⟨stream, hstream, hplace⟩ := exists_left_of_mem hplaces header hheader
      rw [hplace.name_eq]
      exact hnames stream hstream
    · rw [List.nil_append, hheaders, directory, map_name_placeStreams]
      exact hnodup
    · intro header hheader
      obtain ⟨_, _, hplace⟩ := exists_left_of_mem hplaces header hheader
      exact hplace.stop_le
  have hlong : streams.length * 9 ≤ image.length := by
    have hdirectory := mul_nine_le_directory headers
    omega
  rw [length_beforeDirectory hfieldLength, hheadersLength, ← hcount] at hread
  rw [← hcount] at hlong
  simp only [List.append_assoc] at hsplit
  refine decode_of_fields hsplit hfieldLength (decodeLossy_versionField hversion) ⟨?_, ?_⟩ hlong hread
  · rw [hcount]
    exact Nat.ne_of_gt hpos
  · rw [hcount]
    exact hmax

/-- The root of an image that was written has the version, and headers that tell where the content
of each stream lies. -/
lemma decode_writeImage {version : String} {streams : List (String × Bytes)} {image : Bytes}
    (himage : writeImage version streams = image) (hversion : '\x00' ∉ version.toList)
    (hnames : ∀ stream ∈ streams, stream.1 ∈ StreamHeader.names)
    (hnodup : (streams.map (·.1)).Nodup) (hne : streams ≠ []) (hsmall : image.length < 2 ^ 32) :
    ∃ root, decode image = .ok root ∧ root.version = version ∧
      List.Forall₂ (Places image) streams root.streams :=
  ⟨written version streams, decode_writeImage_eq himage hversion hnames hnodup hne hsmall, rfl,
    places_directory himage hsmall⟩

/-! ## What is read from any bytes -/

/-- A root that is read has the version in front of the first zero byte of its field, and the headers
that stand behind that. -/
lemma decode_eq_ok {data : Bytes} {root : Root} (h : decode data = .ok root) :
    root.version
        = Utf8.decodeLossy (((data.drop 16).take root.versionLength.toNat).takeWhile (· != 0)) ∧
      readStreams data root.streamCount.toNat (16 + root.versionLength.toNat + 4) []
        = .ok root.streams := by
  unfold decode at h
  simp only at h
  obtain ⟨_, h⟩ := guarded_eq_ok.mp h
  obtain ⟨signature, _, h⟩ := bind_eq_ok.mp h
  obtain ⟨_, h⟩ := guarded_eq_ok.mp h
  obtain ⟨versionLength, _, h⟩ := bind_eq_ok.mp h
  obtain ⟨_, h⟩ := guarded_eq_ok.mp h
  obtain ⟨flags, _, h⟩ := bind_eq_ok.mp h
  obtain ⟨streamCount, _, h⟩ := bind_eq_ok.mp h
  obtain ⟨_, h⟩ := guarded_eq_ok.mp h
  obtain ⟨streams, hstreams, h⟩ := bind_eq_ok.mp h
  obtain ⟨majorVersion, _, h⟩ := bind_eq_ok.mp h
  obtain ⟨minorVersion, _, h⟩ := bind_eq_ok.mp h
  obtain ⟨reserved, _, h⟩ := bind_eq_ok.mp h
  obtain rfl := pure_eq_ok.mp h
  exact ⟨rfl, hstreams⟩

/-- The version of a root ends before the first zero byte. -/
lemma zero_notMem_version {image : Bytes} {root : Root} (h : decode image = .ok root) :
    '\x00' ∉ root.version.toList := by
  rw [(decode_eq_ok h).1, Utf8.decodeLossy, String.toList_ofList]
  exact Utf8.zero_notMem_decodeCharsLossy Utf8.ne_zero_of_mem_takeWhile

end Root
end CliMetadata
