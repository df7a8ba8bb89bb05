import CliMetadata.Proofs.Bytes.Scanning

/-!
# Cursors stay in their data

Whatever a cursor is asked for, and however often, its position stays in the data and no sum or part of
the data goes wrong. A move gets to its place if the data have it. A read finds what a reader finds in the
bytes behind the position, and moves over just the bytes that decide on it. What is done at once leaves
the position alone if it fails.

The data have fewer bytes than there are offsets, as everything has that fits a memory.
-/

namespace CliMetadata

/-- The least multiple of an alignment that is not below a place. -/
def roundUp (alignment place : Nat) : Nat := (place + (alignment - 1)) / alignment * alignment

namespace Scan

variable {α β : Type}

/-- A failure of the scan leaves the cursor as it was. -/
def IsAtomic (scan : Scan α) : Prop :=
  ∀ ⦃cursor error after⦄, scan.run cursor = .error error after → after = cursor

/-- A look ahead that fails moves nothing. -/
lemma isAtomic_attempt (find : Cursor → Except Error (α × Nat)) :
    (attempt find).IsAtomic := by
  intro cursor error after h
  rw [EStateM.run, attempt] at h
  cases hfind : find cursor with
  | ok found =>
    simp only [hfind] at h
    cases h
  | error failure =>
    simp only [hfind] at h
    exact (EStateM.Result.error.inj h).2.symm

lemma IsAtomic.map {scan : Scan α} (f : α → β) (h : scan.IsAtomic) :
    (f <$> scan).IsAtomic := by
  intro cursor error after hmap
  replace hmap : EStateM.map f scan cursor = .error error after := hmap
  unfold EStateM.map at hmap
  cases hscan : scan cursor with
  | ok value stop =>
    rw [hscan] at hmap
    cases hmap
  | error failure stop =>
    rw [hscan] at hmap
    obtain ⟨rfl, rfl⟩ := EStateM.Result.error.inj hmap
    exact h hscan

end Scan

namespace Cursor

/-! ## What operations are for -/

/-- What an operation is for, at some position. -/
inductive Purpose where
  /-- To move to a place. -/
  | move (target : Nat)
  /-- To find what a reader finds in the bytes behind the position. -/
  | read (reader : Reader Answer)
  /-- To tell something of the cursor. -/
  | tell

namespace Operation

/-- What the operation is for at a position. -/
def purpose (position : Nat) : Operation → Purpose
  | seek place => .move place.toNat
  | advance => .move (position + 1)
  | advanceBy step => .move (position + step.toNat)
  | align alignment => .move (roundUp alignment.toNat position)
  | number width => .read ((fun value : Nat => .number value) <$> Reader.number width)
  | bytes length => .read (.bytes <$> Reader.take length.toNat)
  | compressedUInt => .read ((fun value => .number value.toNat) <$> Reader.compressedUInt)
  | compressedInt => .read (.number <$> Reader.compressedInt)
  | compressedToken => .read (.token <$> Reader.compressedToken)
  | text => .read (.text <$> Reader.text position)
  | size | isEmpty | remaining | hasMore | peek => .tell

/-- The operation is done at once, and not byte by byte. -/
def IsAtOnce : Operation → Prop
  | compressedUInt | compressedInt | compressedToken => False
  | _ => True

/-- An alignment is not zero. -/
def IsProper : Operation → Prop
  | align alignment => alignment ≠ 0
  | _ => True

instance : DecidablePred IsProper
  | align alignment => inferInstanceAs (Decidable (alignment ≠ 0))
  | seek _ | advance | advanceBy _ | size | isEmpty | remaining | hasMore | peek | number _
  | bytes _ | compressedUInt | compressedInt | compressedToken | text => .isTrue trivial

end Operation

/-- The step does what an operation is for. -/
def Step.Fulfils (step : Step) : Purpose → Prop
  | .move target =>
    if target ≤ step.before.size then step.result = .ok .nothing ∧ step.after.position = target
    else step.result = .error .outOfBounds
  | .read reader =>
    step.result = reader.on step.before.behind ∧
      -- What succeeds moves over the bytes that it takes, and they alone decide on the answer.
      ∀ answer, step.result = .ok answer →
        ∃ taken, step.before.behind = taken ++ step.after.behind ∧
          step.after.position = step.before.position + taken.length ∧ reader.Takes taken answer
  | .tell => step.after = step.before

/-- Nothing goes wrong in the step. -/
structure Step.IsSound (step : Step) : Prop where
  data_eq : step.after.data = step.before.data
  position_le : step.after.position ≤ step.after.size
  /-- No result overflows, and no part of the data is used that is not there. -/
  ne_aborted : step.result ≠ .error .aborted
  /-- What is done at once and fails leaves the cursor as it was. -/
  unmoved : ∀ error, step.operation.IsAtOnce → step.result = .error error → step.after = step.before
  fulfils : step.Fulfils (step.operation.purpose step.before.position)

variable (overflow : Overflow) {cursor after : Cursor} {operation : Operation}

/-! ## Steps -/

/-- A step that succeeds ends where its scan does. -/
lemma step_of_ok {answer : Answer} (h : (operation.perform overflow).run cursor = .ok answer after) :
    cursor.step overflow operation = ⟨operation, cursor, .ok answer, after⟩ := by
  unfold step
  rw [h]

lemma step_of_error {error : Error}
    (h : (operation.perform overflow).run cursor = .error error after) :
    cursor.step overflow operation = ⟨operation, cursor, .error error, after⟩ := by
  unfold step
  rw [h]

lemma before_step (cursor : Cursor) (operation : Operation) :
    (cursor.step overflow operation).before = cursor := by
  unfold step
  split <;> rfl

/-- A step performs the operation it was asked for. -/
lemma operation_step (cursor : Cursor) (operation : Operation) :
    (cursor.step overflow operation).operation = operation := by
  unfold step
  split <;> rfl

lemma steps_cons (operations : List Operation) :
    cursor.steps overflow (operation :: operations) =
      cursor.step overflow operation ::
        (cursor.step overflow operation).after.steps overflow operations := rfl

/-- There is one step for each operation, in their order. -/
lemma operation_steps (operations : List Operation) :
    (cursor.steps overflow operations).map (·.operation) = operations := by
  induction operations generalizing cursor with
  | nil => rfl
  | cons operation operations ih =>
    rw [steps_cons, List.map_cons, operation_step, ih]

/-! ## Moves -/

/-- A place exists up to the end of the data, which is one itself. -/
lemma place_eq (cursor : Cursor) (place : Nat) :
    cursor.place place = if place ≤ cursor.size then .ok place else .error .outOfBounds := by
  unfold Cursor.place
  by_cases h : place ≤ cursor.size
  · rw [if_neg (Nat.not_lt.mpr h), if_pos h]
  · rw [if_pos (Nat.lt_of_not_le h), if_neg h]

/-- A place that is no offset does not lie in the data either. -/
lemma placeAhead_eq (hsize : cursor.size < offsetLimit) (step : Nat) :
    cursor.placeAhead step =
      if cursor.position + step ≤ cursor.size then .ok (cursor.position + step)
      else .error .outOfBounds := by
  unfold placeAhead
  by_cases hsum : cursor.position + step < offsetLimit
  · rw [checkedSum_of_lt hsum]
    exact cursor.place_eq _
  · rw [checkedSum_of_le (Nat.not_lt.mp hsum), if_neg (by omega)]

/-- What is missing to the next multiple is less than the alignment. -/
lemma add_padding_eq_roundUp {alignment : Nat} (h : 0 < alignment) (place : Nat) :
    place + (alignment - place % alignment) % alignment = roundUp alignment place := by
  unfold roundUp
  have hplace := Nat.div_add_mod place alignment
  have hpast := Nat.mod_lt place h
  set past := place % alignment
  set count := place / alignment
  by_cases hzero : past = 0
  -- The place is a multiple already, and less than one alignment is added before rounding down.
  · have hcount : (place + (alignment - 1)) / alignment = count := by
      rw [← hplace, hzero, Nat.add_zero, Nat.mul_add_div h, Nat.div_eq_of_lt (by omega),
        Nat.add_zero]
    rw [hcount, hzero, Nat.sub_zero, Nat.mod_self, Nat.mul_comm]
    omega
  -- What is past the multiple is filled up, which leads just over the next one.
  · have hcount : (place + (alignment - 1)) / alignment = count + 1 := by
      have hrest : place + (alignment - 1) = alignment * (count + 1) + (past - 1) := by
        rw [Nat.mul_succ]
        omega
      rw [hrest, Nat.mul_add_div h, Nat.div_eq_of_lt (by omega), Nat.add_zero]
    rw [hcount, Nat.mod_eq_of_lt (by omega), Nat.mul_comm, Nat.mul_succ]
    omega

/-- Alignment rounds the position up, if that is still within the data. -/
lemma placeAligned_eq (hsize : cursor.size < offsetLimit) {alignment : Nat} (hpos : 0 < alignment)
    (halignment : alignment < offsetLimit) :
    cursor.placeAligned overflow alignment =
      if roundUp alignment cursor.position ≤ cursor.size then
        .ok (roundUp alignment cursor.position)
      else .error .outOfBounds := by
  have hpast := Nat.mod_lt cursor.position hpos
  -- The difference is taken of a remainder, so it is not negative.
  have hmissing : overflow.offset ((alignment : Int) - (cursor.position % alignment : Nat))
      = .ok (alignment - cursor.position % alignment) := by
    rw [← Nat.cast_sub hpast.le]
    exact overflow.offset_natCast (by omega)
  unfold placeAligned
  rw [remainder_of_ne_zero hpos.ne', ok_bind, hmissing, ok_bind, remainder_of_ne_zero hpos.ne',
    ok_bind, placeAhead_eq hsize, add_padding_eq_roundUp hpos]

/-- A scan that moves does so to its target, or fails where it is. -/
lemma run_move {find : Cursor → Except Error Nat} {target : Nat}
    (h : find cursor = if target ≤ cursor.size then .ok target else .error .outOfBounds) :
    ((fun _ => Answer.nothing) <$> Scan.move find).run cursor =
      if target ≤ cursor.size then .ok .nothing { cursor with position := target }
      else .error .outOfBounds cursor := by
  show EStateM.map _ (Scan.attempt fun cursor => ((), ·) <$> find cursor) cursor = _
  unfold EStateM.map Scan.attempt
  by_cases hplace : target ≤ cursor.size
  · simp only [h, if_pos hplace]
    rfl
  · simp only [h, if_neg hplace]
    rfl

/-- A move gets to its place if the data have it, and fails if not. -/
lemma run_of_move (hsize : cursor.size < offsetLimit) (hproper : operation.IsProper)
    {target : Nat} (h : operation.purpose cursor.position = .move target) :
    (operation.perform overflow).run cursor =
      if target ≤ cursor.size then .ok .nothing { cursor with position := target }
      else .error .outOfBounds cursor := by
  cases operation with
  | seek place =>
    obtain rfl := Purpose.move.inj h
    exact run_move (cursor.place_eq _)
  | advance =>
    obtain rfl := Purpose.move.inj h
    exact run_move (placeAhead_eq hsize 1)
  | advanceBy step =>
    obtain rfl := Purpose.move.inj h
    exact run_move (placeAhead_eq hsize _)
  | align alignment =>
    obtain rfl := Purpose.move.inj h
    -- Only an alignment of zero has no remainders, and that is not asked for.
    have hpos : 0 < alignment.toNat :=
      Nat.pos_of_ne_zero fun hzero => hproper (UInt64.toNat_inj.mp hzero)
    exact run_move (placeAligned_eq overflow hsize hpos alignment.toNat_lt)
  | size | isEmpty | remaining | hasMore | peek | number | bytes | compressedUInt | compressedInt
  | compressedToken | text => cases h

/-- An operation that moves the cursor is sound. -/
lemma isSound_of_move (hcursor : cursor.position ≤ cursor.size) (hsize : cursor.size < offsetLimit)
    (hproper : operation.IsProper) {target : Nat}
    (h : operation.purpose cursor.position = .move target) :
    (cursor.step overflow operation).IsSound := by
  have hrun := run_of_move overflow hsize hproper h
  by_cases hplace : target ≤ cursor.size
  · rw [if_pos hplace] at hrun
    rw [step_of_ok overflow hrun]
    -- The cursor stands where it was sent, which is inside the data.
    refine ⟨rfl, hplace, by simp, fun _ _ herror => absurd herror (by simp), ?_⟩
    rw [h]
    exact (if_pos hplace).mpr ⟨rfl, rfl⟩
  · rw [if_neg hplace] at hrun
    rw [step_of_error overflow hrun]
    -- Nothing has moved, and the failure is the one that is foreseen.
    refine ⟨rfl, hcursor, by simp, fun _ _ _ => rfl, ?_⟩
    rw [h]
    exact (if_neg hplace).mpr rfl

/-! ## What is told -/

/-- Nothing moves the cursor when something is told of it. -/
lemma run_of_tell (h : operation.purpose cursor.position = .tell) :
    (∃ answer, (operation.perform overflow).run cursor = .ok answer cursor) ∨
      (operation.perform overflow).run cursor = .error .outOfBounds cursor := by
  cases operation with
  | size | isEmpty | remaining | hasMore => exact .inl ⟨_, rfl⟩
  | peek =>
    -- Only looking at the next byte can fail, where there is none.
    have hpeek : (Operation.peek.perform overflow).run cursor = (do
        let byte ← MonadExcept.ofExcept cursor.peek
        return Answer.number byte.toNat : Scan Answer).run cursor := rfl
    cases hbyte : cursor.data[cursor.position]? with
    | some byte =>
      rw [hpeek, Cursor.peek, hbyte]
      exact .inl ⟨_, rfl⟩
    | none =>
      rw [hpeek, Cursor.peek, hbyte]
      exact .inr rfl
  | seek | advance | advanceBy | align | number | bytes | compressedUInt | compressedInt
  | compressedToken | text => cases h

lemma isSound_of_tell (hcursor : cursor.position ≤ cursor.size)
    (h : operation.purpose cursor.position = .tell) :
    (cursor.step overflow operation).IsSound := by
  rcases run_of_tell overflow h with ⟨answer, hrun⟩ | hrun
  · rw [step_of_ok overflow hrun]
    refine ⟨rfl, hcursor, by simp, fun _ _ herror => absurd herror (by simp), ?_⟩
    rw [h]
    rfl
  · rw [step_of_error overflow hrun]
    refine ⟨rfl, hcursor, by simp, fun _ _ _ => rfl, ?_⟩
    rw [h]
    rfl

/-! ## Reads -/

/-- A read does what its reader does, and this one looks at no other bytes than it takes. -/
lemma mirrors_of_read (hcursor : cursor.position ≤ cursor.size)
    (hsize : cursor.size < offsetLimit) {reader : Reader Answer}
    (h : operation.purpose cursor.position = .read reader) :
    Scan.Mirrors cursor ((operation.perform overflow).run cursor) (reader.run cursor.behind) ∧
      reader.IsLocal := by
  cases operation with
  | number width =>
    obtain rfl := Purpose.read.inj h
    exact ⟨(Scan.follows_number width).map _ cursor hcursor, (Reader.isLocal_number width).map _⟩
  | bytes length =>
    obtain rfl := Purpose.read.inj h
    exact ⟨(Scan.follows_bytes _).map _ cursor hcursor, (Reader.isLocal_take _).map _⟩
  | compressedUInt =>
    obtain rfl := Purpose.read.inj h
    exact ⟨Scan.follows_compressedUInt.map _ cursor hcursor, Reader.isLocal_compressedUInt.map _⟩
  | compressedInt =>
    obtain rfl := Purpose.read.inj h
    exact ⟨(Scan.mirrors_compressedInt overflow hcursor hsize).map _,
      Reader.isLocal_compressedInt.map _⟩
  | compressedToken =>
    obtain rfl := Purpose.read.inj h
    exact ⟨Scan.follows_compressedToken.map _ cursor hcursor, Reader.isLocal_compressedToken.map _⟩
  | text =>
    obtain rfl := Purpose.read.inj h
    exact ⟨(Scan.mirrors_text hcursor hsize).map _, (Reader.isLocal_text _).map _⟩
  | seek | advance | advanceBy | align | size | isEmpty | remaining | hasMore | peek => cases h

lemma isAtomic_of_tell (h : ∀ position, operation.purpose position = .tell) :
    (operation.perform overflow).IsAtomic := by
  intro cursor error after hfailed
  rcases run_of_tell overflow (h cursor.position) with ⟨answer, hrun⟩ | hrun
  · cases hrun.symm.trans hfailed
  · exact (EStateM.Result.error.inj (hrun.symm.trans hfailed)).2.symm

/-- What is done at once fails before the cursor moves. -/
lemma isAtomic_of_isAtOnce (h : operation.IsAtOnce) : (operation.perform overflow).IsAtomic := by
  cases operation with
  | seek | advance | advanceBy | align | number | bytes | text =>
    exact (Scan.isAtomic_attempt _).map _
  | size | isEmpty | remaining | hasMore | peek => exact isAtomic_of_tell overflow fun _ => rfl
  | compressedUInt | compressedInt | compressedToken => exact h.elim

lemma isSound_of_read (hcursor : cursor.position ≤ cursor.size) (hsize : cursor.size < offsetLimit)
    {reader : Reader Answer} (h : operation.purpose cursor.position = .read reader) :
    (cursor.step overflow operation).IsSound := by
  obtain ⟨hmirrors, hlocal⟩ := mirrors_of_read overflow hcursor hsize h
  generalize hrun : (operation.perform overflow).run cursor = found at hmirrors
  generalize hread : reader.run cursor.behind = expected at hmirrors
  cases hmirrors with
  | @ok answer stop hle hstop =>
    obtain ⟨taken, htaken, htakes⟩ := hlocal hread
    -- The cursor moves over just the bytes that its reader takes.
    have hlength : cursor.size - cursor.position = taken.length + (cursor.size - stop) := by
      have hboth := congrArg List.length htaken
      rw [List.length_append, Scan.length_behind, List.length_drop] at hboth
      exact hboth
    rw [step_of_ok overflow hrun]
    refine ⟨rfl, hstop, by simp, fun _ _ herror => absurd herror (by simp), ?_⟩
    rw [h]
    refine ⟨by rw [Reader.on, hread], fun other hother => ?_⟩
    obtain rfl := Except.ok.inj hother
    exact ⟨taken, htaken, by dsimp only; omega, htakes⟩
  | @error error stop herror hle hstop =>
    rw [step_of_error overflow hrun]
    refine ⟨rfl, hstop, fun haborted => herror (Except.error.inj haborted),
      fun _ honce _ => isAtomic_of_isAtOnce overflow honce hrun, ?_⟩
    rw [h]
    exact ⟨by rw [Reader.on, hread], fun _ hok => absurd hok (by simp)⟩
  | large hlarge => exact absurd hlarge (Nat.not_le.mpr hsize)

/-! ## Runs -/

/-- Every proper operation is sound, by cases on its purpose. -/
lemma step_isSound (hcursor : cursor.position ≤ cursor.size) (hsize : cursor.size < offsetLimit)
    (hproper : operation.IsProper) : (cursor.step overflow operation).IsSound := by
  cases h : operation.purpose cursor.position with
  | move target => exact isSound_of_move overflow hcursor hsize hproper h
  | read reader => exact isSound_of_read overflow hcursor hsize h
  | tell => exact isSound_of_tell overflow hcursor h

/-- From a position within the data every step is sound, by induction on the operations. -/
lemma steps_areSound_of_le {operations : List Operation} (hcursor : cursor.position ≤ cursor.size)
    (hsize : cursor.size < offsetLimit) (hproper : ∀ operation ∈ operations, operation.IsProper) :
    ∀ step ∈ cursor.steps overflow operations,
      step.before.data = cursor.data ∧ step.before.position ≤ step.before.size ∧ step.IsSound := by
  -- The invariant is that the position lies in the data, which no step changes.
  induction operations generalizing cursor with
  | nil => exact fun _ hmem => absurd hmem List.not_mem_nil
  | cons operation operations ih =>
    obtain ⟨hfirst, hothers⟩ := List.forall_mem_cons.mp hproper
    have hsound := step_isSound overflow hcursor hsize hfirst
    have hbefore := before_step overflow cursor operation
    rw [steps_cons]
    generalize cursor.step overflow operation = first at hsound hbefore ⊢
    have hdata : first.after.data = cursor.data := by rw [hsound.data_eq, hbefore]
    have hsame : first.after.size = cursor.size := congrArg List.length hdata
    refine List.forall_mem_cons.mpr ⟨⟨by rw [hbefore], by rwa [hbefore], hsound⟩, ?_⟩
    intro step hmem
    obtain ⟨hlater, hrest⟩ := ih hsound.position_le (by rwa [hsame]) hothers step hmem
    exact ⟨hlater.trans hdata, hrest⟩

/-- Whatever a cursor is asked for in a row, every operation is done, at a position in the data, and
nothing goes wrong in any step. -/
theorem steps_areSound {data : Bytes} {operations : List Operation}
    (hsize : data.length < offsetLimit) (hproper : ∀ operation ∈ operations, operation.IsProper) :
    (steps overflow { data } operations).map (·.operation) = operations ∧
      ∀ step ∈ steps overflow { data } operations,
        step.before.data = data ∧ step.before.position ≤ data.length ∧ step.IsSound := by
  have hstart : ({ data } : Cursor).size < offsetLimit := hsize
  refine ⟨operation_steps overflow operations, fun step hstep => ?_⟩
  obtain ⟨hdata, hposition, hsound⟩ :=
    steps_areSound_of_le overflow (Nat.zero_le _) hstart hproper step hstep
  refine ⟨hdata, ?_, hsound⟩
  rwa [size, hdata] at hposition

/-- Places, steps, alignments and lengths up to the greatest word, and a token that breaks off. -/
def hostileOperations : List Operation :=
  [.number 2, .bytes 0xFFFFFFFFFFFFFFFF, .advanceBy 0xFFFFFFFFFFFFFFFF, .align 0xFFFFFFFFFFFFFFFF, .text,
    .compressedUInt, .compressedToken, .seek 0xFFFFFFFFFFFFFFFF, .seek 2, .compressedInt, .peek]

/-- Moves past the end and texts without an end are refused soundly. -/
theorem hostileOperations_areSound :
    (∀ operation ∈ hostileOperations, operation.IsProper) ∧
      (steps .ends { data := [0x41, 0x00, 0x83, 0x01, 0xC1, 0x02] } hostileOperations).map
          (fun step => (step.result, step.after.position)) =
        [(.ok (.number 65), 2), (.error .outOfBounds, 2), (.error .outOfBounds, 2),
          (.error .outOfBounds, 2), (.error (.malformed (.unterminatedString 2)), 2),
          (.ok (.number 769), 4), (.error .outOfBounds, 6), (.error .outOfBounds, 6),
          (.ok .nothing, 2), (.ok (.number (-7808)), 4), (.ok (.number 193), 4)] ∧
      ∀ step ∈ steps .ends { data := [0x41, 0x00, 0x83, 0x01, 0xC1, 0x02] } hostileOperations,
        step.IsSound := by
  have hproper : ∀ operation ∈ hostileOperations, operation.IsProper := by decide
  have hsize : ([0x41, 0x00, 0x83, 0x01, 0xC1, 0x02] : Bytes).length < offsetLimit := by decide
  refine ⟨hproper, by decide +kernel, fun step hstep => ?_⟩
  exact ((steps_areSound .ends hsize hproper).2 step hstep).2.2

end Cursor
end CliMetadata
