import CliMetadata.Proofs.Image.Root

/-!
# Streams within an image

The directory of an image that was written tells where its streams lie: side by side behind the
directory itself, up to the end of the image. Of an image from anywhere, a root is only read if none of
its streams reaches beyond the bytes.
-/

namespace CliMetadata
namespace Root

/-! ## Streams side by side -/

/-- The streams follow each other without a gap, from one offset up to another, and each of them starts
at a multiple of four. -/
def Adjoin (start : Nat) : List StreamHeader → Nat → Prop
  | [], stop => start = stop
  | header :: headers, stop =>
    header.offset.toNat = start ∧ start % 4 = 0 ∧ Adjoin header.stop headers stop

/-- The number of bytes in front of the streams of a root. -/
def headLength (root : Root) : Nat :=
  16 + root.versionLength.toNat + 4 + (root.streams.map StreamHeader.encodedLength).foldr (· + ·) 0

/-- Streams that are written behind a front take all that comes behind it. -/
lemma adjoin_placeStreams {image front : Bytes} {streams : List (String × Bytes)}
    (himage : image = front ++ streams.flatMap fun stream => padTo4 stream.2)
    (hfront : front.length % 4 = 0) (hsmall : image.length < 2 ^ 32) :
    Adjoin front.length (placeStreams streams front.length) image.length := by
  induction streams generalizing front with
  | nil =>
    show front.length = image.length
    rw [himage, List.flatMap_nil, List.append_nil]
  | cons stream streams ih =>
    obtain ⟨header, hheaders, -, hoffset, hsize⟩ := placeStreams_cons himage hsmall
    -- The content is padded, so the next stream starts where this one stops, and again on a
    -- multiple of four.
    have hstop : (front ++ padTo4 stream.2).length = header.stop := by
      rw [StreamHeader.stop, hoffset, hsize, List.length_append]
    have hnext : (front ++ padTo4 stream.2).length % 4 = 0 := by
      have hpadded := length_padTo4_mod stream.2
      rw [List.length_append]
      omega
    rw [List.flatMap_cons] at himage
    have hothers := ih (himage.trans (List.append_assoc _ _ _).symm) hnext
    rw [hheaders]
    refine ⟨hoffset, hfront, ?_⟩
    rw [← hstop]
    exact hothers

/-- Every header takes a number of bytes that is a multiple of four, and so do all of them. -/
lemma directory_mod (headers : List StreamHeader) :
    (headers.map StreamHeader.encodedLength).foldr (· + ·) 0 % 4 = 0 := by
  induction headers with
  | nil => rfl
  | cons header headers ih =>
    have hname : header.nameLength % 4 = 0 := by
      rw [StreamHeader.nameLength, roundUp4]
      omega
    rw [List.map_cons, List.foldr_cons, StreamHeader.encodedLength]
    omega

/-- The head of an image is as long as its root says, which is a multiple of four. -/
lemma headLength_written {version : String} {streams : List (String × Bytes)} {image : Bytes}
    (himage : writeImage version streams = image) (hsmall : image.length < 2 ^ 32) :
    (head version streams).length = (written version streams).headLength ∧
      (head version streams).length % 4 = 0 := by
  have hlength := length_head version streams
  have hdirectory := directory_mod (directory version streams)
  have hversion : (versionField version).length % 4 = 0 := length_padTo4_mod _
  rw [length_directory] at hlength
  refine ⟨?_, by omega⟩
  rw [headLength, written, toNat_versionLength himage hsmall]
  exact hlength

/-- The streams of an image that is written lie side by side behind its head. -/
lemma adjoin_directory {version : String} {streams : List (String × Bytes)} {image : Bytes}
    (himage : writeImage version streams = image) (hsmall : image.length < 2 ^ 32) :
    Adjoin (written version streams).headLength (written version streams).streams image.length := by
  obtain ⟨hhead, haligned⟩ := headLength_written himage hsmall
  show Adjoin _ (directory version streams) _
  rw [writeImage_eq] at himage
  rw [← hhead, directory_eq]
  exact adjoin_placeStreams himage.symm haligned hsmall

/-! ## Streams inside the bytes -/

/-- Headers are read one after the other, and none is taken of which the stream reaches too far. -/
lemma stop_le_of_readStreams {data : Bytes} {count offset : Nat}
    {before headers : List StreamHeader} (h : readStreams data count offset before = .ok headers)
    (hbefore : ∀ header ∈ before, header.stop ≤ data.length) :
    ∀ header ∈ headers, header.stop ≤ data.length := by
  -- The induction is on the number of headers to come, for any headers that were read before.
  induction count generalizing offset before with
  | zero =>
    obtain rfl := Except.ok.inj h
    exact hbefore
  | succ count ih =>
    unfold readStreams at h
    obtain ⟨-, h⟩ := guarded_eq_ok.mp h
    obtain ⟨header, -, h⟩ := bind_eq_ok.mp h
    obtain ⟨-, h⟩ := guarded_eq_ok.mp h
    obtain ⟨hstop, h⟩ := guarded_eq_ok.mp h
    obtain ⟨-, h⟩ := guarded_eq_ok.mp h
    apply ih h
    rw [List.forall_mem_append]
    refine ⟨hbefore, ?_⟩
    intro new hnew
    rw [List.mem_singleton.mp hnew]
    exact Nat.not_lt.mp hstop

/-! ## Images -/

/-- The version and the streams can be written: no zero ends the version early, the streams have names
of their own among those that there are, and offsets fit their words. -/
structure IsWritable (version : String) (streams : List (String × Bytes)) : Prop where
  zero_notMem : '\x00' ∉ version.toList
  ne_nil : streams ≠ []
  names : ∀ stream ∈ streams, stream.1 ∈ StreamHeader.names
  distinct : (streams.map (·.1)).Nodup
  small : (writeImage version streams).length < 2 ^ 32

/-- **The directory of an image is faithful.** From an image that is written, with whatever version and
streams, a root is read that has the version and in their order the headers of the streams, each with
the place of the padded content; the streams lie side by side at multiples of four, from the end of the
directory to that of the image. And whatever bytes a root is read from, its streams lie within them. -/
theorem directory_faithful :
    (∀ version streams, IsWritable version streams →
      ∃ root, decode (writeImage version streams) = .ok root ∧ root.version = version ∧
        List.Forall₂ (Places (writeImage version streams)) streams root.streams ∧
        Adjoin root.headLength root.streams (writeImage version streams).length) ∧
    ∀ data root, decode data = .ok root → ∀ header ∈ root.streams, header.stop ≤ data.length := by
  constructor
  · intro version streams h
    refine ⟨written version streams, ?_, rfl, ?_, ?_⟩
    · exact decode_writeImage_eq rfl h.zero_notMem h.names h.distinct h.ne_nil h.small
    · exact places_directory rfl h.small
    · exact adjoin_directory rfl h.small
  · intro data root h
    exact stop_le_of_readStreams (decode_eq_ok h).2 (by simp)

/-- Three streams, of which one is empty and one is not padded. -/
def sampleStreams : List (String × Bytes) :=
  [("#~", [1, 2, 3, 4]), ("#GUID", []), ("#Strings", [0, 65, 0])]

/-- The streams are found in the image that is written, and the directory of other bytes names one that
is inside them. -/
theorem sampleStreams_directory_faithful :
    IsWritable "v4" sampleStreams ∧
    (∃ root, decode (writeImage "v4" sampleStreams) = .ok root ∧ root.version = "v4" ∧
      List.Forall₂ (Places (writeImage "v4" sampleStreams)) sampleStreams root.streams ∧
      Adjoin root.headLength root.streams (writeImage "v4" sampleStreams).length) ∧
    decode (writeImage "v4" sampleStreams) = .ok (written "v4" sampleStreams) ∧
    ∀ header ∈ (written "v4" sampleStreams).streams,
      header.stop ≤ (writeImage "v4" sampleStreams).length := by
  have hwritable : IsWritable "v4" sampleStreams :=
    ⟨by decide, by decide, by decide, by decide, by decide⟩
  have hread : decode (writeImage "v4" sampleStreams) = .ok (written "v4" sampleStreams) := by
    decide +kernel
  exact ⟨hwritable, directory_faithful.1 _ _ hwritable, hread, directory_faithful.2 _ _ hread⟩

end Root
end CliMetadata
