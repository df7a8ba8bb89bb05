import CliMetadata.Proofs.Tables.Values

/-!
# Filling heaps

Texts, blobs and identifiers are put into their heaps one after the other. What was added once is found
at its index in the heaps that are finished in the end, and adding a text or a blob again gives the same
index and changes nothing. So equal items share an index, and different ones do not, as both are read
from it. Identifiers are all kept, under the numbers of their slots.
-/

namespace CliMetadata

/-! ## Items and their heaps -/

/-- What can be put into the heaps of an image, each kind into its own heap. -/
inductive HeapItem where
  | text (text : String)
  | blob (blob : Bytes)
  | guid (guid : Guid)
deriving DecidableEq

namespace HeapItem

/-- The item has a form in its heap: a text without the zero that would end it, or a blob of which the
length can be written. -/
def IsStorable : HeapItem → Prop
  | text content => '\x00' ∉ content.toList
  | blob content => content.length < compressedLimit
  | guid _ => True

/-- Both items are texts, or both are blobs: of the items in such a heap equal ones are kept once. -/
def SharesHeap : HeapItem → HeapItem → Prop
  | text _, text _ => True
  | blob _, blob _ => True
  | _, _ => False

/-- The item is an identifier, which is kept each time that it is added. -/
def isGuid : HeapItem → Bool
  | guid _ => true
  | _ => false

instance : (item : HeapItem) → Decidable item.IsStorable
  | text content => inferInstanceAs (Decidable ('\x00' ∉ content.toList))
  | blob content => inferInstanceAs (Decidable (content.length < compressedLimit))
  | guid _ => .isTrue trivial

end HeapItem

namespace HeapPools

/-- The index of an item in its heap, and the heaps that have it. -/
def addItem (pools : HeapPools) : HeapItem → UInt32 × HeapPools
  | .text text =>
    let (index, strings) := pools.strings.add text
    (UInt32.ofNat index, { pools with strings })
  | .blob blob =>
    let (index, blobs) := pools.blobs.add blob
    (UInt32.ofNat index, { pools with blobs })
  | .guid guid =>
    let (index, guids) := pools.guids.add guid
    (UInt32.ofNat index, { pools with guids })

/-- The indexes of items that are added one after the other, and the heaps that have them all. -/
def addItems (pools : HeapPools) : List HeapItem → List UInt32 × HeapPools
  | [] => ([], pools)
  | item :: items =>
    let (index, pools) := pools.addItem item
    let (indexes, pools) := pools.addItems items
    (index :: indexes, pools)

/-- The reader of the finished heap finds the item at the index. -/
def Finds (pools : HeapPools) : HeapItem → UInt32 → Prop
  | .text text, index =>
    (StringHeap.ofBytes pools.strings.toBytes >>= (·.get index.toNat)) = .ok text
  | .blob blob, index =>
    (BlobHeap.ofBytes pools.blobs.toBytes >>= (·.get index.toNat)) = .ok blob
  | .guid guid, index =>
    (GuidHeap.ofBytes pools.guids.toBytes >>= (·.get index.toNat)) = .ok guid

/-! ## One item -/

variable {pools larger : HeapPools} {item other : HeapItem} {index place : UInt32}

lemma finds_text {text : String}
    (h : pools.heaps.strings.get index.toNat = .ok text) : pools.Finds (.text text) index := by
  have hheap : StringHeap.ofBytes pools.strings.toBytes = .ok pools.heaps.strings :=
    StringHeap.ofBytes_of_lies (Pool.zero_lies StringPool.encode pools.strings)
  rw [Finds, hheap, ok_bind]
  exact h

lemma finds_blob {blob : Bytes}
    (h : pools.heaps.blobs.get index.toNat = .ok blob) : pools.Finds (.blob blob) index := by
  have hheap : BlobHeap.ofBytes pools.blobs.toBytes = .ok pools.heaps.blobs :=
    BlobHeap.ofBytes_of_lies (Pool.zero_lies BlobPool.encode pools.blobs)
  rw [Finds, hheap, ok_bind]
  exact h

lemma finds_guid {guid : Guid}
    (h : GuidHeap.get ⟨pools.guids.toBytes⟩ index.toNat = .ok guid) :
    pools.Finds (.guid guid) index := by
  rw [Finds, pools.guids.ofBytes_toBytes, ok_bind]
  exact h

/-- What is found at one index of one heap is one item. -/
lemma Finds.inj (h : pools.Finds item index) (hother : pools.Finds other index)
    (hshares : item.SharesHeap other) : item = other := by
  cases item with
  -- Of two items of one heap both are what its reader finds, and items of two heaps are not
  -- compared.
  | text text =>
    cases other with
    | text text' => exact congrArg HeapItem.text (Except.ok.inj (h.symm.trans hother))
    | blob blob | guid guid => exact hshares.elim
  | blob blob =>
    cases other with
    | blob blob' => exact congrArg HeapItem.blob (Except.ok.inj (h.symm.trans hother))
    | text text | guid guid => exact hshares.elim
  | guid guid => exact hshares.elim

/-- An item that is added is found at its index, in the heaps as they are then and in all that they
become. -/
lemma addItem_spec (h : pools.IsFaithful) (hitem : item.IsStorable)
    (hadd : pools.addItem item = (index, larger)) :
    larger.IsFaithful ∧ pools.Grows larger ∧
      ∀ final, larger.Grows final → final.IsSmall → final.Finds item index := by
  -- Only the heap of the item grows; the other two are the same before and after.
  cases item with
  | text text =>
    obtain ⟨rfl, rfl⟩ := Prod.mk.inj hadd
    obtain ⟨hfaithful, hgrows, hlies⟩ := StringPool.add_spec h.strings text rfl
    refine ⟨⟨hfaithful, h.blobs⟩, ⟨hgrows, List.prefix_refl _, List.prefix_refl _⟩, ?_⟩
    intro final hfinal hsmall
    exact finds_text (get_text hitem hlies hfinal hsmall)
  | blob blob =>
    obtain ⟨rfl, rfl⟩ := Prod.mk.inj hadd
    obtain ⟨hfaithful, hgrows, hlies⟩ := BlobPool.add_spec h.blobs blob rfl
    refine ⟨⟨h.strings, hfaithful⟩, ⟨List.prefix_refl _, hgrows, List.prefix_refl _⟩, ?_⟩
    intro final hfinal hsmall
    exact finds_blob (get_blob hitem hlies hfinal hsmall)
  | guid guid =>
    obtain ⟨rfl, rfl⟩ := Prod.mk.inj hadd
    obtain ⟨hgrows, hstart, hlies⟩ := GuidPool.add_spec guid rfl
    refine ⟨⟨h.strings, h.blobs⟩, ⟨List.prefix_refl _, List.prefix_refl _, hgrows⟩, ?_⟩
    intro final hfinal hsmall
    exact finds_guid (get_guid hstart hlies hfinal hsmall)

/-! ## Items that are kept once -/

/-- A text or a blob that is added again gets the index, and its heap stays as it is. -/
def Keeps (pools : HeapPools) : HeapItem → UInt32 → Prop
  | .text text, index =>
    ∃ start, pools.strings.add text = (start, pools.strings) ∧ index = UInt32.ofNat start
  | .blob blob, index =>
    ∃ start, pools.blobs.add blob = (start, pools.blobs) ∧ index = UInt32.ofNat start
  | .guid _, _ => True

/-- An item that was added is kept at its index. -/
lemma keeps_of_addItem (hadd : pools.addItem item = (index, larger)) :
    larger.Keeps item index := by
  obtain ⟨rfl, rfl⟩ := Prod.mk.inj hadd
  cases item with
  | text text =>
    exact ⟨_, Pool.intern_again (rfl : Pool.intern _ String.isEmpty pools.strings text = _), rfl⟩
  | blob blob =>
    exact ⟨_, Pool.intern_again (rfl : Pool.intern _ List.isEmpty pools.blobs blob = _), rfl⟩
  | guid guid => trivial

/-- An item that is kept stays so when another one is added. -/
lemma Keeps.addItem (h : pools.Keeps item index) (hadd : pools.addItem other = (place, larger)) :
    larger.Keeps item index := by
  obtain ⟨rfl, rfl⟩ := Prod.mk.inj hadd
  -- only an item of the same kind goes into the same heap
  cases item with
  | text text =>
    obtain ⟨start, hstart, hindex⟩ := h
    have hknown : Pool.intern StringPool.encode String.isEmpty pools.strings text
        = (start, pools.strings) := hstart
    cases other with
    | text text' => exact ⟨start, Pool.intern_of_intern hknown rfl, hindex⟩
    | blob blob | guid guid => exact ⟨start, hstart, hindex⟩
  | blob blob =>
    obtain ⟨start, hstart, hindex⟩ := h
    have hknown : Pool.intern BlobPool.encode List.isEmpty pools.blobs blob
        = (start, pools.blobs) := hstart
    cases other with
    | blob blob' => exact ⟨start, Pool.intern_of_intern hknown rfl, hindex⟩
    | text text | guid guid => exact ⟨start, hstart, hindex⟩
  | guid guid => trivial

/-- An item that is kept has one index. -/
lemma Keeps.index_eq (h : pools.Keeps item index) (hplace : pools.Keeps item place)
    (hshares : item.SharesHeap item) : index = place := by
  cases item with
  | text text | blob blob =>
    obtain ⟨start, hstart, rfl⟩ := h
    obtain ⟨start', hstart', rfl⟩ := hplace
    rw [(Prod.mk.inj (hstart.symm.trans hstart')).1]
  | guid guid => exact hshares.elim

/-! ## All items -/

/-- The item has the index in these heaps and in all that they become. -/
structure Has (pools : HeapPools) (item : HeapItem) (index : UInt32) : Prop where
  finds : ∀ final, pools.Grows final → final.IsSmall → final.Finds item index
  keeps : pools.Keeps item index

lemma Has.finds_self (h : pools.Has item index) (hsmall : pools.IsSmall) :
    pools.Finds item index :=
  h.finds pools (Grows.refl pools) hsmall

/-- In the same heap equal items have one index, and two items have two. -/
lemma Has.index_eq_iff (h : pools.Has item index) (hother : pools.Has other place)
    (hshares : item.SharesHeap other) (hsmall : pools.IsSmall) : index = place ↔ item = other := by
  constructor
  · rintro rfl
    exact (h.finds_self hsmall).inj (hother.finds_self hsmall) hshares
  · rintro rfl
    exact h.keeps.index_eq hother.keeps hshares

/-- Items that are added one after the other all have their indexes in the end, and so have those that
had them before. -/
lemma addItems_spec (h : pools.IsFaithful) {items : List HeapItem} {indexes : List UInt32}
    (hitems : ∀ item ∈ items, item.IsStorable) (hadd : pools.addItems items = (indexes, larger)) :
    larger.IsFaithful ∧ List.Forall₂ larger.Has items indexes ∧
      ∀ item index, pools.Has item index → larger.Has item index := by
  -- what the items in front have is carried along by the last part of the statement
  induction items generalizing pools indexes with
  | nil =>
    obtain ⟨rfl, rfl⟩ := Prod.mk.inj hadd
    exact ⟨h, List.Forall₂.nil, fun item index hitem => hitem⟩
  | cons first items ih =>
    obtain ⟨rfl, rfl⟩ := Prod.mk.inj hadd
    obtain ⟨hnext, hgrows, hfinds⟩ := addItem_spec h (hitems first List.mem_cons_self) rfl
    obtain ⟨hfinal, hall, hkept⟩ :=
      ih hnext (fun item hitem => hitems item (List.mem_cons_of_mem first hitem)) rfl
    refine ⟨hfinal, List.Forall₂.cons ?_ hall, ?_⟩
    · exact hkept first _ ⟨hfinds, keeps_of_addItem rfl⟩
    · intro item place hitem
      apply hkept
      refine ⟨fun final hmore => hitem.finds final (hgrows.trans hmore), ?_⟩
      exact hitem.keeps.addItem rfl

/-! ## The numbers of identifiers -/

/-- The indexes that stand beside identifiers. -/
def guidIndexes (items : List HeapItem) (indexes : List UInt32) : List UInt32 :=
  ((items.zip indexes).filter (·.1.isGuid)).map (·.2)

/-- Identifiers are numbered on from those that are there. -/
lemma guidIndexes_addItems {items : List HeapItem} {indexes : List UInt32}
    (hadd : pools.addItems items = (indexes, larger)) :
    guidIndexes items indexes = (List.range' (pools.guids.entries.length + 1)
        (items.countP HeapItem.isGuid)).map UInt32.ofNat ∧
      larger.guids.entries.length
        = pools.guids.entries.length + items.countP HeapItem.isGuid := by
  -- The induction is on the items; the numbers go on from those that the pool has.
  induction items generalizing pools indexes with
  | nil =>
    obtain ⟨rfl, rfl⟩ := Prod.mk.inj hadd
    exact ⟨rfl, rfl⟩
  | cons first items ih =>
    obtain ⟨rfl, rfl⟩ := Prod.mk.inj hadd
    obtain ⟨hnumbers, hcount⟩ := @ih (pools.addItem first).2 _ rfl
    cases first with
    | text text | blob blob => exact ⟨hnumbers, hcount⟩
    | guid guid =>
      have hmore : (HeapItem.guid guid :: items).countP HeapItem.isGuid
          = items.countP HeapItem.isGuid + 1 := List.countP_cons_of_pos rfl
      have hlength : (pools.addItem (.guid guid)).2.guids.entries.length
          = pools.guids.entries.length + 1 := rfl
      simp only [hlength] at hnumbers hcount
      rw [hmore]
      refine ⟨?_, hcount.trans (by omega)⟩
      rw [List.range'_succ, List.map_cons, ← hnumbers]
      rfl

/-- The numbers of the identifiers fit their words, as sixteen bytes stand behind each of them. -/
lemma toNat_guidIndexes {items : List HeapItem} {indexes : List UInt32}
    (hadd : addItems {} items = (indexes, pools)) (hsmall : pools.IsSmall) :
    (guidIndexes items indexes).map UInt32.toNat
      = List.range' 1 (items.countP HeapItem.isGuid) := by
  have hnone : ({} : HeapPools).guids.entries.length = 0 := rfl
  obtain ⟨hnumbers, hcount⟩ := guidIndexes_addItems hadd
  rw [hnone, Nat.zero_add] at hnumbers hcount
  have hbound := hsmall.guids
  rw [pools.guids.length_toBytes, hcount] at hbound
  rw [hnumbers, List.map_map]
  -- A word that holds the size of the heap holds the number of each slot.
  refine (List.map_congr_left ?_).trans (List.map_id _)
  intro number hnumber
  have hrange := List.mem_range'_1.mp hnumber
  show (UInt32.ofNat number).toNat = number
  rw [UInt32.toNat_ofNat', Nat.mod_eq_of_lt (by omega)]

/-- **What was added is found.** Whatever items are added in whatever order, the reader of each
finished heap finds every one of them at the index that was given for it. Of two texts, and of two
blobs, the indexes are the same exactly if they are equal, and the identifiers are numbered from one in
the order in which they were added. -/
theorem added_items_found {items : List HeapItem} {indexes : List UInt32} {pools : HeapPools}
    (hitems : ∀ item ∈ items, item.IsStorable) (hadd : addItems {} items = (indexes, pools))
    (hsmall : pools.IsSmall) :
    List.Forall₂ pools.Finds items indexes ∧
    (∀ added ∈ items.zip indexes, ∀ other ∈ items.zip indexes, added.1.SharesHeap other.1 →
      (added.2 = other.2 ↔ added.1 = other.1)) ∧
    (guidIndexes items indexes).map UInt32.toNat
      = List.range' 1 (items.countP HeapItem.isGuid) := by
  obtain ⟨-, hall, -⟩ := addItems_spec isFaithful_empty hitems hadd
  refine ⟨hall.imp fun item index h => h.finds_self hsmall, ?_, toNat_guidIndexes hadd hsmall⟩
  intro added hadded other hother hshares
  have hfirst : pools.Has added.1 added.2 := (List.forall₂_iff_zip.mp hall).2 hadded
  have hsecond : pools.Has other.1 other.2 := (List.forall₂_iff_zip.mp hall).2 hother
  exact hfirst.index_eq_iff hsecond hshares hsmall

/-- Items of each kind in turn, of which some come twice. -/
def sampleItems : List HeapItem :=
  [.text "System", .blob [0x20, 0, 1], .guid .zero, .text "", .blob [], .text "N",
   .blob [6, 8], .text "System", .guid .zero, .blob [6, 8]]

/-- The items that come twice share their indexes, but for the identifier. -/
theorem sampleItems_found : (∀ item ∈ sampleItems, item.IsStorable) ∧
    ∃ pools, addItems {} sampleItems = ([1, 1, 1, 0, 0, 8, 5, 1, 2, 5], pools) ∧
      pools.IsSmall ∧
      List.Forall₂ pools.Finds sampleItems [1, 1, 1, 0, 0, 8, 5, 1, 2, 5] ∧
      guidIndexes sampleItems [1, 1, 1, 0, 0, 8, 5, 1, 2, 5] = [1, 2] := by
  have hitems : ∀ item ∈ sampleItems, item.IsStorable := by decide
  have hadd : addItems {} sampleItems
      = ([1, 1, 1, 0, 0, 8, 5, 1, 2, 5], (addItems {} sampleItems).2) := by rfl
  have hsmall : (addItems {} sampleItems).2.IsSmall := ⟨by decide, by decide, by decide⟩
  exact ⟨hitems, _, hadd, hsmall, (added_items_found hitems hadd hsmall).1, rfl⟩

end HeapPools
end CliMetadata
