import CliMetadata.Heap.Pool
import CliMetadata.Proofs.Bytes.Placement

/-!
# Interned items stay where they are

Adding an item to a pool gives an index at which the bytes of the item lie, in the heap as it is then
and in every heap that is made by adding more: heaps only grow at their end.
-/

namespace CliMetadata

namespace Pool

variable {α : Type} [BEq α] [LawfulBEq α] {encode : α → Bytes} {pool : Pool α}

/-! ## The invariant of a pool -/

/-- The bytes of the heap so far. -/
def content (encode : α → Bytes) (pool : Pool α) : Bytes :=
  0 :: pool.entries.reverse.flatMap fun entry => encode entry.1

/-- The size is that of the bytes so far, and every item lies at its index. -/
structure IsFaithful (encode : α → Bytes) (pool : Pool α) : Prop where
  size_eq : pool.size = (content encode pool).length
  lies : ∀ entry ∈ pool.entries, LiesAt (content encode pool) (encode entry.1) entry.2

omit [BEq α] [LawfulBEq α] in
lemma isFaithful_empty : IsFaithful encode ({} : Pool α) where
  size_eq := rfl
  lies := by simp

omit [BEq α] [LawfulBEq α] in
/-- The bytes of a new item go to the end. -/
lemma content_cons (item : α) (index size : Nat) :
    content encode ⟨(item, index) :: pool.entries, size⟩ = content encode pool ++ encode item := by
  simp [content]

omit [BEq α] [LawfulBEq α] in
lemma content_prefix_toBytes : content encode pool <+: toBytes encode pool :=
  prefix_padTo4 (content encode pool)

omit [BEq α] [LawfulBEq α] in
/-- Every heap starts with a zero byte. -/
lemma zero_lies (encode : α → Bytes) (pool : Pool α) : LiesAt (toBytes encode pool) [0] 0 := by
  have hcontent : LiesAt (content encode pool) [0] 0 := List.prefix_append [0] _
  exact hcontent.mono content_prefix_toBytes

/-- The index of an item that has been added is one of an entry. -/
lemma mem_of_index? {item : α} {index : Nat} (h : pool.index? item = some index) :
    (item, index) ∈ pool.entries := by
  obtain ⟨front, back, hentries, _⟩ := List.lookup_eq_some_iff.mp h
  rw [hentries]
  exact List.mem_append_right front List.mem_cons_self

/-! ## Adding an item -/

omit [LawfulBEq α] in
/-- An item that is there already changes nothing, and a new one goes to the end. -/
lemma add_cases {item : α} {index : Nat} {larger : Pool α}
    (hadd : add encode pool item = (index, larger)) :
    (pool.index? item = some index ∧ larger = pool) ∨
      (pool.index? item = none ∧ index = pool.size ∧
        larger = ⟨(item, pool.size) :: pool.entries, pool.size + (encode item).length⟩) := by
  unfold add at hadd
  cases hindex : pool.index? item with
  | some found =>
    rw [hindex] at hadd
    obtain ⟨rfl, rfl⟩ := Prod.mk.inj hadd
    exact .inl ⟨rfl, rfl⟩
  | none =>
    rw [hindex] at hadd
    obtain ⟨rfl, rfl⟩ := Prod.mk.inj hadd
    exact .inr ⟨rfl, rfl, rfl⟩

/-- Adding an item keeps the invariant, only appends to the heap, and gives an index at which the
item lies. -/
lemma add_spec (h : pool.IsFaithful encode) (item : α) {index : Nat} {larger : Pool α}
    (hadd : add encode pool item = (index, larger)) :
    larger.IsFaithful encode ∧ content encode pool <+: content encode larger ∧
      LiesAt (content encode larger) (encode item) index := by
  rcases add_cases hadd with ⟨hindex, rfl⟩ | ⟨-, rfl, rfl⟩
  · exact ⟨h, List.prefix_refl _, h.lies _ (mem_of_index? hindex)⟩
  · have hgrows : content encode pool <+: content encode pool ++ encode item :=
      List.prefix_append _ _
    -- The size so far is the place behind all bytes so far.
    have hlies : LiesAt (content encode pool ++ encode item) (encode item) pool.size := by
      rw [h.size_eq]
      exact LiesAt.append _ _
    refine ⟨⟨?_, ?_⟩, ?_, ?_⟩
    · show pool.size + (encode item).length = _
      rw [content_cons, List.length_append, h.size_eq]
    · intro entry hentry
      rw [content_cons]
      rcases List.mem_cons.mp hentry with rfl | hold
      · exact hlies
      · exact (h.lies entry hold).mono hgrows
    · rw [content_cons]
      exact hgrows
    · rw [content_cons]
      exact hlies

/-! ## Items that have been added -/

/-- The index of an item that was added is known from then on. -/
lemma index?_add {item : α} {index : Nat} {larger : Pool α}
    (hadd : add encode pool item = (index, larger)) : larger.index? item = some index := by
  rcases add_cases hadd with ⟨hindex, rfl⟩ | ⟨-, rfl, rfl⟩
  · exact hindex
  · exact List.lookup_cons_self

/-- An index that is known stays the same when something is added. -/
lemma index?_of_add {item other : α} {index place : Nat} {larger : Pool α}
    (h : pool.index? item = some index) (hadd : add encode pool other = (place, larger)) :
    larger.index? item = some index := by
  rcases add_cases hadd with ⟨-, rfl⟩ | ⟨hnone, rfl, rfl⟩
  · exact h
  · -- The entry in front is that of another item, as this one is not new.
    have hother : (item == other) = false := by
      rw [beq_eq_false_iff_ne]
      rintro rfl
      rw [h] at hnone
      cases hnone
    show List.lookup item ((other, pool.size) :: pool.entries) = some index
    rw [List.lookup_cons, hother]
    exact h

/-! ## Pools with an empty item -/

variable {isEmpty : α → Bool}

/-- The index of an item, which is zero for an empty one, and the pool that has it. -/
def intern (encode : α → Bytes) (isEmpty : α → Bool) (pool : Pool α) (item : α) : Nat × Pool α :=
  if isEmpty item then (0, pool) else add encode pool item

/-- Whether or not an item is empty, it lies at its index, and the heap grows at its end. -/
lemma intern_spec (hempty : ∀ item, isEmpty item = true → encode item = [0])
    (h : pool.IsFaithful encode) {item : α} {index : Nat} {larger : Pool α}
    (hadd : intern encode isEmpty pool item = (index, larger)) :
    larger.IsFaithful encode ∧ content encode pool <+: content encode larger ∧
      LiesAt (content encode larger) (encode item) index := by
  unfold intern at hadd
  by_cases hitem : isEmpty item = true
  · rw [if_pos hitem] at hadd
    obtain ⟨rfl, rfl⟩ := Prod.mk.inj hadd
    refine ⟨h, List.prefix_refl _, ?_⟩
    rw [hempty item hitem]
    exact List.prefix_append [0] _
  · rw [if_neg hitem] at hadd
    exact add_spec h item hadd

/-- An item that is added again gets the index that it has, and nothing changes. -/
lemma intern_again {item : α} {index : Nat} {larger : Pool α}
    (hadd : intern encode isEmpty pool item = (index, larger)) :
    intern encode isEmpty larger item = (index, larger) := by
  unfold intern at hadd ⊢
  by_cases hitem : isEmpty item = true
  · rw [if_pos hitem] at hadd ⊢
    obtain ⟨rfl, rfl⟩ := Prod.mk.inj hadd
    rfl
  · rw [if_neg hitem] at hadd ⊢
    rw [add, index?_add hadd]

/-- Nor does this change when something else was added in between. -/
lemma intern_of_intern {item other : α} {index place : Nat} {larger : Pool α}
    (h : intern encode isEmpty pool item = (index, pool))
    (hadd : intern encode isEmpty pool other = (place, larger)) :
    intern encode isEmpty larger item = (index, larger) := by
  unfold intern at h hadd ⊢
  by_cases hother : isEmpty other = true
  · rw [if_pos hother] at hadd
    obtain ⟨rfl, rfl⟩ := Prod.mk.inj hadd
    exact h
  rw [if_neg hother] at hadd
  by_cases hitem : isEmpty item = true
  · rw [if_pos hitem] at h ⊢
    rw [(Prod.mk.inj h).1]
  · rw [if_neg hitem] at h ⊢
    rw [add, index?_of_add (index?_add h) hadd]

end Pool
end CliMetadata
