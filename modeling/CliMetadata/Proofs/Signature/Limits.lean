import CliMetadata.Proofs.Signature.RoundTrip

/-!
# What the reader of signatures ensures

Whatever bytes it is given, the reader gives numbers that fit the compressed form, instantiates
classes and value types only, and nests types no deeper than it was told to. It ensures nothing
about tokens, and it may find a reference where a flag of the parameter would spell it.
-/

namespace CliMetadata

mutual

/-- The numbers in a type fit the compressed form, and what it instantiates is named. -/
def TypeSignature.IsBounded : TypeSignature → Prop
  | .inst definition arguments =>
    definition.IsNamed ∧ definition.IsBounded ∧ arguments.length < compressedLimit ∧
      TypeSignature.AllBounded arguments
  | .typeParameter number | .methodParameter number => number.toNat < compressedLimit
  | .array element rank => element.IsBounded ∧ rank.toNat < compressedLimit
  | .vector element | .pointer element | .byRef element => element.IsBounded
  | .functionPointer method => method.IsBounded
  | _ => True

/-- The numbers in the type of a parameter fit the compressed form. -/
def ParameterSignature.IsBounded : ParameterSignature → Prop
  | ⟨_, _, base⟩ => base.IsBounded

/-- The numbers in a method fit the compressed form. -/
def MethodSignature.IsBounded : MethodSignature → Prop
  | ⟨_, _, _, genericCount, returnType, parameters⟩ =>
    genericCount.toNat < compressedLimit ∧ returnType.IsBounded ∧
      parameters.length < compressedLimit ∧ ParameterSignature.AllBounded parameters

/-- The numbers in several types fit the compressed form. -/
def TypeSignature.AllBounded : List TypeSignature → Prop
  | [] => True
  | first :: others => first.IsBounded ∧ TypeSignature.AllBounded others

/-- The numbers in several parameters fit the compressed form. -/
def ParameterSignature.AllBounded : List ParameterSignature → Prop
  | [] => True
  | first :: others => first.IsBounded ∧ ParameterSignature.AllBounded others

end

/-! ## Bounds with a depth -/

namespace TypeSignature

/-- A type is bounded, and nests no deeper than `levels`. -/
def IsWithin (levels : Nat) (type : TypeSignature) : Prop :=
  type.IsBounded ∧ type.levels ≤ levels

lemma all_isWithin {levels : Nat} {types : List TypeSignature}
    (h : ∀ type ∈ types, type.IsWithin levels) :
    AllBounded types ∧ mostLevels types ≤ levels := by
  induction types with
  | nil => exact ⟨trivial, Nat.zero_le levels⟩
  | cons first others ih =>
    obtain ⟨⟨hbounded, hlevels⟩, hrest⟩ := List.forall_mem_cons.mp h
    obtain ⟨hothers, hmost⟩ := ih hrest
    rw [AllBounded, mostLevels]
    exact ⟨⟨hbounded, hothers⟩, Nat.max_le.mpr ⟨hlevels, hmost⟩⟩

end TypeSignature

namespace ParameterSignature

/-- A parameter is bounded, and its type nests no deeper than `levels`. -/
def IsWithin (levels : Nat) (parameter : ParameterSignature) : Prop :=
  parameter.IsBounded ∧ parameter.levels ≤ levels

lemma all_isWithin {levels : Nat} {parameters : List ParameterSignature}
    (h : ∀ parameter ∈ parameters, parameter.IsWithin levels) :
    AllBounded parameters ∧ mostLevels parameters ≤ levels := by
  induction parameters with
  | nil => exact ⟨trivial, Nat.zero_le levels⟩
  | cons first others ih =>
    obtain ⟨⟨hbounded, hlevels⟩, hrest⟩ := List.forall_mem_cons.mp h
    obtain ⟨hothers, hmost⟩ := ih hrest
    rw [AllBounded, mostLevels]
    exact ⟨⟨hbounded, hothers⟩, Nat.max_le.mpr ⟨hlevels, hmost⟩⟩

/-- A parameter is bounded as its type is. -/
lemma ensures_readBy {readType : Reader TypeSignature} {levels : Nat}
    (h : readType.Ensures (TypeSignature.IsWithin levels)) :
    (readBy readType).Ensures (IsWithin levels) := by
  refine Reader.ensures_bind fun modifiers => Reader.ensures_bind fun next => ?_
  have htype : ∀ byRef, (readType >>= fun base =>
      pure (⟨modifiers, byRef, base⟩ : ParameterSignature)).Ensures (IsWithin levels) := by
    intro byRef
    refine h.bind fun base hbase => Reader.ensures_pure ?_
    rw [IsWithin, IsBounded, ParameterSignature.levels]
    exact hbase
  cases hnext : next == TypeSignature.byRefByte with
  | true => exact Reader.ensures_bind fun _ => htype true
  | false => exact htype false

end ParameterSignature

namespace MethodSignature

/-- A method is bounded, and its types nest no deeper than `levels`. -/
def IsWithin (levels : Nat) (method : MethodSignature) : Prop :=
  method.IsBounded ∧ method.levels ≤ levels

/-- No more parameters are read than were announced. -/
lemma ensures_readParameters {readType : Reader TypeSignature} {levels : Nat}
    (h : readType.Ensures (TypeSignature.IsWithin levels)) (count : Nat) :
    (readParameters readType count).Ensures fun parameters =>
      parameters.length ≤ count ∧ ∀ parameter ∈ parameters, parameter.IsWithin levels := by
  induction count with
  | zero => exact Reader.ensures_pure ⟨Nat.le_refl 0, by simp⟩
  | succ count ih =>
    rw [readParameters]
    refine Reader.ensures_bind fun next => ?_
    by_cases hend : (next == TypeSignature.sentinelByte) = true
    · rw [if_pos hend]
      exact Reader.ensures_pure ⟨Nat.zero_le _, by simp⟩
    · rw [if_neg hend]
      refine (ParameterSignature.ensures_readBy h).bind fun first hfirst => ih.bind fun others
        hothers => Reader.ensures_pure ⟨?_, List.forall_mem_cons.mpr ⟨hfirst, hothers.2⟩⟩
      rw [List.length_cons]
      exact Nat.succ_le_succ hothers.1

/-- A method is bounded as its types are. -/
lemma ensures_readRest {readType : Reader TypeSignature} {levels : Nat}
    (h : readType.Ensures (TypeSignature.IsWithin levels)) (hasThis explicitThis vararg : Bool)
    {genericCount : UInt32} (hgeneric : genericCount.toNat < compressedLimit) :
    (readRest readType hasThis explicitThis vararg genericCount).Ensures (IsWithin levels) := by
  refine Reader.ensures_compressedUInt.bind fun count hcount =>
    (ParameterSignature.ensures_readBy h).bind fun returnType hreturn =>
    (ensures_readParameters h count.toNat).bind fun parameters hparameters =>
    Reader.ensures_pure ?_
  obtain ⟨hall, hmost⟩ := ParameterSignature.all_isWithin hparameters.2
  rw [IsWithin, IsBounded, MethodSignature.levels]
  exact ⟨⟨hgeneric, hreturn.1, Nat.lt_of_le_of_lt hparameters.1 hcount, hall⟩,
    Nat.max_le.mpr ⟨hreturn.2, hmost⟩⟩

lemma ensures_readBy {readType : Reader TypeSignature} {levels : Nat}
    (h : readType.Ensures (TypeSignature.IsWithin levels)) :
    (readBy readType).Ensures (IsWithin levels) := by
  refine Reader.ensures_bind fun convention => ?_
  by_cases hflag : (convention &&& 0x10 != 0) = true
  · rw [if_pos hflag]
    exact Reader.ensures_compressedUInt.bind fun genericCount hgeneric =>
      ensures_readRest h _ _ _ hgeneric
  · rw [if_neg hflag]
    exact ensures_readRest h _ _ _ (by decide)

end MethodSignature

/-! ## Types -/

namespace TypeSignature

lemma ofElement?_isWithin {element : UInt8} {type : TypeSignature}
    (h : ofElement? element = some type) (levels : Nat) : type.IsWithin (levels + 1) := by
  unfold ofElement? at h
  split at h <;> cases h <;> exact ⟨trivial, Nat.le_add_left 1 levels⟩

/-- What is read from the byte of a class or value type on is one. -/
def ReadsNamed (readType : Reader TypeSignature) : Prop :=
  ∀ ⦃first bytes type rest⦄, first = 0x11 ∨ first = 0x12 →
    readType.run (first :: bytes) = .ok type rest → type.IsNamed

/-- The byte that is looked at decides whether an instantiation goes on. -/
lemma expectInstantiated_eq_ok {input rest : Bytes}
    (h : expectInstantiated.run input = .ok () rest) :
    rest = input ∧ ∃ first bytes, input = first :: bytes ∧ (first = 0x11 ∨ first = 0x12) := by
  obtain ⟨next, between, hpeek, hcheck⟩ := Reader.run_bind_eq_ok.mp h
  cases input with
  | nil => cases hpeek
  | cons first bytes =>
    obtain ⟨rfl, rfl⟩ : first = next ∧ first :: bytes = between := by
      simpa [Reader.peek, EStateM.run] using hpeek
    -- The reader only looks at the byte, so on success all of the input is still there.
    by_cases hallowed : first = 0x11 ∨ first = 0x12
    · have hpass : (first != 0x11 && first != 0x12) = false := by
        rcases hallowed with rfl | rfl <;> rfl
      rw [hpass] at hcheck
      obtain rfl : first :: bytes = rest := by
        simpa [pure, EStateM.pure, EStateM.run] using hcheck
      exact ⟨rfl, first, bytes, rfl, hallowed⟩
    · have hstop : (first != 0x11 && first != 0x12) = true := by
        simpa [not_or] using hallowed
      rw [hstop] at hcheck
      cases hcheck

/-- The rank of an array is a compressed number. -/
lemma ensures_readRank : readRank.Ensures fun rank => rank.toNat < compressedLimit := by
  refine Reader.ensures_compressedUInt.bind fun rank hrank => Reader.ensures_bind fun sizes =>
    Reader.ensures_bind fun _ => Reader.ensures_bind fun bounds => Reader.ensures_bind fun _ => ?_
  exact Reader.ensures_pure hrank

/-- An instantiation has as many arguments as were announced, of a class or value type. -/
lemma ensures_instance {readType : Reader TypeSignature} {levels : Nat}
    (h : readType.Ensures (IsWithin levels)) (hnamed : ReadsNamed readType) :
    Reader.Ensures (do
      expectInstantiated
      let definition ← readType
      let count ← Reader.compressedUInt
      return .inst definition (← Reader.replicate count.toNat readType))
      (IsWithin (levels + 1)) := by
  -- That the definition is a class or value type is known from the byte before it, and has to be
  -- carried on to the arguments.
  have harguments : ∀ definition : TypeSignature, definition.IsNamed →
      definition.IsWithin levels → Reader.Ensures (do
        let count ← Reader.compressedUInt
        return .inst definition (← Reader.replicate count.toNat readType))
        (IsWithin (levels + 1)) := by
    intro definition hname hdefinition
    refine Reader.ensures_compressedUInt.bind fun count hcount =>
      (h.replicate count.toNat).bind fun arguments hall => Reader.ensures_pure ?_
    obtain ⟨hbounded, hmost⟩ := all_isWithin hall.2
    rw [IsWithin, IsBounded, TypeSignature.levels]
    exact ⟨⟨hname, hdefinition.1, by rwa [hall.1], hbounded⟩,
      Nat.succ_le_succ (Nat.max_le.mpr ⟨hdefinition.2, hmost⟩)⟩
  intro input type rest hread
  obtain ⟨_, between, hexpect, hinside⟩ := Reader.run_bind_eq_ok.mp hread
  obtain ⟨rfl, first, bytes, rfl, hfirst⟩ := expectInstantiated_eq_ok hexpect
  obtain ⟨definition, behind, hdefinition, hothers⟩ := Reader.run_bind_eq_ok.mp hinside
  exact harguments definition (hnamed hfirst hdefinition) (h hdefinition) hothers

/-- A type is bounded as the types inside it are, which are read one level further in. -/
lemma ensures_readBody {readType : Reader TypeSignature} {levels : Nat}
    (h : readType.Ensures (IsWithin levels)) (hnamed : ReadsNamed readType) (element : UInt8) :
    (readBody readType element).Ensures (IsWithin (levels + 1)) := by
  -- Four kinds of types are nothing but another type with something around it.
  have hwrap : ∀ wrap : TypeSignature → TypeSignature,
      (∀ inner, inner.IsWithin levels → (wrap inner).IsWithin (levels + 1)) →
        (readType >>= fun inner => pure (wrap inner)).Ensures (IsWithin (levels + 1)) :=
    fun wrap hstep => h.bind fun inner hinner => Reader.ensures_pure (hstep inner hinner)
  have hleaf : 1 ≤ levels + 1 := Nat.le_add_left 1 levels
  rw [readBody]
  cases hsimple : ofElement? element with
  | some simple => exact Reader.ensures_pure (ofElement?_isWithin hsimple levels)
  | none =>
    simp only
    -- One goal for each byte that starts a type, in the order in which the reader tries them.
    split
    · refine Reader.ensures_bind fun _ => hwrap .pointer fun inner hinner => ?_
      exact ⟨hinner.1, Nat.succ_le_succ hinner.2⟩
    · exact hwrap .byRef fun inner hinner => ⟨hinner.1, Nat.succ_le_succ hinner.2⟩
    · exact Reader.ensures_bind fun token => Reader.ensures_pure ⟨trivial, hleaf⟩
    · exact Reader.ensures_bind fun token => Reader.ensures_pure ⟨trivial, hleaf⟩
    · exact Reader.ensures_compressedUInt.bind fun number hnumber =>
        Reader.ensures_pure ⟨hnumber, hleaf⟩
    · refine h.bind fun item hitem => ensures_readRank.bind fun rank hrank =>
        Reader.ensures_pure ⟨⟨hitem.1, hrank⟩, Nat.succ_le_succ hitem.2⟩
    · exact ensures_instance h hnamed
    · refine (MethodSignature.ensures_readBy h).bind fun method hmethod => Reader.ensures_pure ?_
      exact ⟨hmethod.1, Nat.succ_le_succ hmethod.2⟩
    · refine Reader.ensures_bind fun _ => hwrap .vector fun inner hinner => ?_
      exact ⟨hinner.1, Nat.succ_le_succ hinner.2⟩
    · exact Reader.ensures_compressedUInt.bind fun number hnumber =>
        Reader.ensures_pure ⟨hnumber, hleaf⟩
    · exact Reader.ensures_malformed _ _

/-- The byte of a class or value type is kept, whatever modifiers might have stood there. -/
lemma readsNamed_readLevels (levels : Nat) : ReadsNamed (readLevels levels) := by
  intro first bytes type rest hfirst hread
  cases levels with
  | zero => cases hread
  | succ levels =>
    have hget : (get : Reader Bytes).run (first :: bytes) = .ok (first :: bytes) (first :: bytes) :=
      rfl
    -- Neither byte announces a modifier or a pin, so there is nothing in front to be skipped.
    have hplain : ¬ Modifier.Announces first ∧ first ≠ pinnedByte := by
      rcases hfirst with rfl | rfl <;> decide
    rw [readLevels, Reader.bind_of_ok hget,
      Reader.bind_of_ok (readElement_cons hplain.1 hplain.2 _ bytes)] at hread
    rcases hfirst with rfl | rfl
    · obtain ⟨token, between, _, htype⟩ := Reader.run_bind_eq_ok.mp hread
      cases htype
      trivial
    · obtain ⟨token, between, _, htype⟩ := Reader.run_bind_eq_ok.mp hread
      cases htype
      trivial

/-- Whatever is read as a type is bounded, and nests no deeper than it was allowed to. The induction
is on the levels that are left, as the reader counts them. -/
lemma ensures_readLevels (levels : Nat) : (readLevels levels).Ensures (IsWithin levels) := by
  induction levels with
  | zero => exact Reader.ensures_throw _ _
  | succ levels ih =>
    rw [readLevels]
    refine Reader.ensures_bind fun input => Reader.ensures_bind fun element => ?_
    exact ensures_readBody ih (readsNamed_readLevels levels) element

lemma ensures_read : read.Ensures (IsWithin (maxLevels - 1)) :=
  ensures_readLevels (maxLevels - 1)

end TypeSignature

end CliMetadata
