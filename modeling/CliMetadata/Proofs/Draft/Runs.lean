import CliMetadata.Draft.Tables
import CliMetadata.Proofs.Module.Sorting
import Mathlib.Algebra.Group.Nat.Defs
import Mathlib.Data.List.Forall2
import Mathlib.Data.List.TakeWhile

/-!
# Runs of rows

Members that are sorted by their owners stand in runs. Where the run of an owner begins and ends
follows from the number of members of the owners in front of it, and readers find just these ends:
from the row of the next type, from the next entry of a map, or from the end of the table.
-/

namespace CliMetadata.Draft

variable {α : Type}

/-- The numbers of the rows from one place to before another. -/
def rowsBetween (start stop : Nat) : List UInt32 := (List.range' start (stop - start)).map rowOf

/-- The row of an index is one more than the index, as long as tokens have room for it. -/
lemma toNat_rowOf {index : Nat} (h : index < 2 ^ 32 - 1) : (rowOf index).toNat = index + 1 := by
  rw [rowOf, UInt32.toNat_ofNat']
  omega

/-- Different indexes have different rows. -/
lemma rowOf_inj {a b : Nat} (ha : a < 2 ^ 32 - 1) (hb : b < 2 ^ 32 - 1) (h : rowOf a = rowOf b) :
    a = b := by
  have := congrArg UInt32.toNat h
  rw [toNat_rowOf ha, toNat_rowOf hb] at this
  omega

lemma rowOf_pred {row : UInt32} (h : row ≠ 0) : rowOf (row.toNat - 1) = row := by
  have hpos : row.toNat ≠ 0 := fun hzero => h (UInt32.toNat_inj.mp hzero)
  have hlt := row.toNat_lt
  apply UInt32.toNat_inj.mp
  rw [toNat_rowOf (by omega)]
  omega

/-! ## Rows side by side -/

/-- There is no row between a place and itself. -/
@[simp] lemma rowsBetween_self (place : Nat) : rowsBetween place place = [] := by
  simp [rowsBetween]

lemma rowsBetween_append {a b c : Nat} (hab : a ≤ b) (hbc : b ≤ c) :
    rowsBetween a b ++ rowsBetween b c = rowsBetween a c := by
  have hranges := List.range'_append_1 (s := a) (m := b - a) (n := c - b)
  rw [show a + (b - a) = b by omega, show b - a + (c - b) = c - a by omega] at hranges
  rw [rowsBetween, rowsBetween, rowsBetween, ← List.map_append, hranges]

/-- The rows of a table are those between its start and its end. -/
lemma rowNumbers_eq (rows : List α) : rowNumbers rows = rowsBetween 0 rows.length := by
  rw [rowNumbers, rowsBetween, List.range_eq_range', Nat.sub_zero]
  rfl

lemma mem_rowNumbers {rows : List α} {row : UInt32} :
    row ∈ rowNumbers rows ↔ ∃ index < rows.length, row = rowOf index := by
  simp only [rowNumbers, List.mem_map, List.mem_range, rowOf]
  exact exists_congr fun _ => and_congr_right fun _ => eq_comm

/-- No row has two numbers. -/
lemma nodup_rowNumbers {rows : List α} (h : rows.length < 2 ^ 32 - 1) : (rowNumbers rows).Nodup := by
  refine List.pairwise_map.mpr (List.nodup_range.imp_of_mem fun ha hb hne heq => hne ?_)
  rw [List.mem_range] at ha hb
  exact rowOf_inj (by omega) (by omega) heq

/-- Parts that follow one another are all that lies between the outer ends. -/
lemma flatMap_parts {part : Nat → Nat → List α} (hself : ∀ place, part place place = [])
    (happend : ∀ {a b c : Nat}, a ≤ b → b ≤ c → part a b ++ part b c = part a c) (ends : Nat → Nat)
    (h : ∀ index, ends index ≤ ends (index + 1)) (count : Nat) :
    (List.range count).flatMap (fun index => part (ends index) (ends (index + 1))) =
      part (ends 0) (ends count) := by
  have hfirst (count : Nat) : ends 0 ≤ ends count := by
    induction count with
    | zero => exact Nat.le_refl _
    | succ count ih => exact Nat.le_trans ih (h count)
  induction count with
  | zero => exact (hself _).symm
  | succ count ih =>
    rw [List.range_succ, List.flatMap_append, ih, List.flatMap_singleton]
    exact happend (hfirst count) (h count)

/-- Runs that meet are one run together. -/
lemma flatMap_rowsBetween (ends : Nat → Nat) (h : ∀ index, ends index ≤ ends (index + 1))
    (count : Nat) :
    (List.range count).flatMap (fun index => rowsBetween (ends index) (ends (index + 1))) =
      rowsBetween (ends 0) (ends count) :=
  flatMap_parts rowsBetween_self rowsBetween_append ends h count

/-! ## Readers -/

/-- The first number of a run and the one behind its last number, whatever the number of entries. -/
def runBounds (first : UInt32) (next : Option UInt32) (count : Nat) : Nat × Nat :=
  let start := min (max first.toNat 1) (count + 1)
  (start, match next with
    | some next => min (max next.toNat start) (count + 1)
    | none => count + 1)

/-- The ends of a run as words are its ends as numbers, as long as there is a word for the end of the
entries. -/
lemma runEnds_toNat (first : UInt32) (next : Option UInt32) {count : Nat}
    (hcount : count < 2 ^ 32 - 1) :
    (runEnds first next count).1.toNat = (runBounds first next count).1 ∧
      (runEnds first next count).2.toNat = (runBounds first next count).2 := by
  have hlimit : (UInt32.ofNat count + 1).toNat = count + 1 := by
    rw [← UInt32.ofNat_one, ← UInt32.ofNat_add]
    exact toNat_rowOf hcount
  have hstart : (min (max first 1) (UInt32.ofNat count + 1)).toNat =
      min (max first.toNat 1) (count + 1) := by
    rw [UInt32.toNat_min, UInt32.toNat_max, hlimit]
    rfl
  refine ⟨hstart, ?_⟩
  cases next with
  | none => exact hlimit
  | some next =>
    show (min (max next (min (max first 1) _)) (UInt32.ofNat count + 1)).toNat = _
    rw [UInt32.toNat_min, UInt32.toNat_max, hstart, hlimit]
    rfl

/-- The numbers of a run, whatever the number of entries. -/
def runNumbers (first : UInt32) (next : Option UInt32) (count : Nat) : List Nat :=
  let bounds := runBounds first next count
  (List.range (bounds.2 - bounds.1)).map fun index => bounds.1 + index

/-- A run stays inside its table. -/
lemma lt_of_mem_runNumbers {first : UInt32} {next : Option UInt32} {count number : Nat}
    (h : number ∈ runNumbers first next count) : number ≤ count := by
  obtain ⟨index, hindex, rfl⟩ := List.mem_map.mp h
  have hindex := List.mem_range.mp hindex
  have hstop : (runBounds first next count).2 ≤ count + 1 := by
    cases next <;> simp only [runBounds] <;> omega
  omega

/-- As long as there is a word for the end of the entries, a run consists of its numbers as words. -/
lemma runOf_eq_runNumbers (first : UInt32) (next : Option UInt32) {length : Nat}
    {pointers : List UInt32} (hlength : length < 2 ^ 32 - 1) (hpointers : pointers.length < 2 ^ 32 - 1) :
    runOf first next length pointers =
      if pointers.isEmpty then (runNumbers first next length).map UInt32.ofNat
      else (runNumbers first next pointers.length).filterMap fun number => pointers[number - 1]? := by
  have hrun (count : Nat) (hcount : count < 2 ^ 32 - 1) :
      (List.range ((runEnds first next count).2.toNat - (runEnds first next count).1.toNat)).map
          (fun index => (runEnds first next count).1 + UInt32.ofNat index) =
        (runNumbers first next count).map UInt32.ofNat := by
    obtain ⟨hstart, hstop⟩ := runEnds_toNat first next hcount
    rw [runNumbers, List.map_map, hstart, hstop]
    refine List.map_congr_left fun index _ => ?_
    rw [Function.comp_apply, UInt32.ofNat_add, ← hstart, UInt32.ofNat_toNat]
  unfold runOf
  by_cases hnone : pointers.isEmpty
  · simp only [if_pos hnone]
    exact hrun length hlength
  · simp only [if_neg hnone]
    rw [hrun pointers.length hpointers, List.filterMap_map]
    refine List.filterMap_congr fun number hnumber => ?_
    have hbound := lt_of_mem_runNumbers hnumber
    have hword : number < 2 ^ 32 := by omega
    rw [Function.comp_apply, UInt32.toNat_ofNat_of_lt' hword]

/-- A run that ends where the next one begins. -/
lemma runOf_rowOf {start stop length : Nat} (hstart : start ≤ stop) (hstop : stop ≤ length)
    (hfits : length < 2 ^ 32 - 1) :
    runOf (rowOf start) (some (rowOf stop)) length [] = rowsBetween start stop := by
  rw [runOf_eq_runNumbers _ _ hfits (by decide), runNumbers, runBounds, rowsBetween,
    List.range'_eq_map_range]
  simp only [List.isEmpty_nil, if_true, toNat_rowOf (show start < 2 ^ 32 - 1 by omega),
    toNat_rowOf (show stop < 2 ^ 32 - 1 by omega), List.map_map]
  have hfirst : min (max (start + 1) 1) (length + 1) = start + 1 := by omega
  have hnext : min (max (stop + 1) (start + 1)) (length + 1) = stop + 1 := by omega
  rw [hfirst, hnext, show stop + 1 - (start + 1) = stop - start by omega]
  refine List.map_congr_left fun index _ => ?_
  show UInt32.ofNat (start + 1 + index) = UInt32.ofNat (start + index + 1)
  rw [Nat.add_right_comm]

/-- A run that ends with the table. -/
lemma runOf_none {start length : Nat} (hstart : start ≤ length) (hfits : length < 2 ^ 32 - 1) :
    runOf (rowOf start) none length [] = rowsBetween start length := by
  have hends : runNumbers (rowOf start) none length =
      runNumbers (rowOf start) (some (rowOf length)) length := by
    have hlast : min (max (length + 1) (min (max (start + 1) 1) (length + 1))) (length + 1) =
        length + 1 := by omega
    simp only [runNumbers, runBounds, toNat_rowOf (show start < 2 ^ 32 - 1 by omega),
      toNat_rowOf hfits, hlast]
  rw [← runOf_rowOf hstart (Nat.le_refl length) hfits, runOf_eq_runNumbers _ none hfits (by decide),
    runOf_eq_runNumbers _ (some _) hfits (by decide)]
  exact congrArg (List.map UInt32.ofNat) hends

lemma rowAt?_rowOf {rows : List α} {index : Nat} (h : index < 2 ^ 32 - 1) :
    rowAt? rows (rowOf index) = rows[index]? := by
  have hne : (rowOf index == 0) = false := by
    rw [beq_eq_false_iff_ne]
    intro heq
    have := congrArg UInt32.toNat heq
    rw [toNat_rowOf h] at this
    exact absurd this (by simp)
  rw [rowAt?, hne, toNat_rowOf h]
  rfl

/-- The rows of a part of a table hold the items of that part. -/
lemma forall₂_rowAt? (front items back : List α)
    (h : (front ++ items ++ back).length < 2 ^ 32 - 1) :
    List.Forall₂ (fun item row => rowAt? (front ++ items ++ back) row = some item) items
      (rowsBetween front.length (front.length + items.length)) := by
  -- Items move to the front one by one, and the row of the first of them is the length of the
  -- front.
  induction items generalizing front with
  | nil => simp
  | cons item items ih =>
    have hsplit : front ++ item :: items ++ back = front ++ [item] ++ items ++ back := by simp
    have hlength : front.length + (item :: items).length = front.length + 1 + items.length := by
      simp only [List.length_cons]
      omega
    have hrows : rowsBetween front.length (front.length + (item :: items).length) =
        rowOf front.length :: rowsBetween (front.length + 1) (front.length + 1 + items.length) := by
      rw [hlength, ← rowsBetween_append (show front.length ≤ front.length + 1 by omega) (by omega)]
      simp [rowsBetween]
    rw [hrows]
    refine .cons ?_ ?_
    · rw [rowAt?_rowOf (by simp only [List.length_append] at h; omega), List.append_assoc,
        List.getElem?_append_right (Nat.le_refl _)]
      simp
    · rw [hsplit] at h ⊢
      have := ih (front ++ [item]) h
      rwa [List.length_append, List.length_singleton] at this

/-- The items of one of several lists, in the rows of the lists one after the other. -/
lemma forall₂_flatten {blocks : List (List α)} {index : Nat} {block : List α}
    (h : blocks[index]? = some block) (hfits : blocks.flatten.length < 2 ^ 32 - 1) :
    List.Forall₂ (fun item row => rowAt? blocks.flatten row = some item) block
      (rowsBetween (blocks.take index).flatten.length (blocks.take (index + 1)).flatten.length) := by
  obtain ⟨hindex, rfl⟩ := List.getElem?_eq_some_iff.mp h
  have hsplit : blocks.flatten =
      (blocks.take index).flatten ++ blocks[index] ++ (blocks.drop (index + 1)).flatten := by
    rw [List.append_assoc, ← List.flatten_cons, ← List.drop_eq_getElem_cons hindex,
      ← List.flatten_append, List.take_append_drop]
  rw [List.take_succ_eq_append_getElem hindex, List.flatten_append, List.length_append,
    List.flatten_singleton, hsplit]
  exact forall₂_rowAt? _ _ _ (hsplit ▸ hfits)

/-! ## Runs of owners -/

section Owners

variable (owner : α → UInt32) (items : List α)

/-- The number of items of the owners in front of a row. -/
def itemsBefore (row : Nat) : Nat := items.countP fun item => (owner item).toNat < row

/-- The rows of the run of an owner. -/
def runRows (row : Nat) : List UInt32 :=
  rowsBetween (itemsBefore owner items row) (itemsBefore owner items (row + 1))

/-- More items come before later rows. -/
lemma itemsBefore_mono {a b : Nat} (h : a ≤ b) :
    itemsBefore owner items a ≤ itemsBefore owner items b :=
  List.countP_mono_left fun item _ hless => by
    simp only [decide_eq_true_eq] at hless ⊢
    omega

lemma itemsBefore_le (row : Nat) : itemsBefore owner items row ≤ items.length :=
  List.countP_le_length

/-- Behind a row come the items it owns. -/
lemma itemsBefore_succ (row : Nat) :
    itemsBefore owner items (row + 1) =
      itemsBefore owner items row + (items.filter fun item => (owner item).toNat == row).length := by
  induction items with
  | nil => rfl
  | cons item items ih =>
    simp only [itemsBefore] at ih ⊢
    rw [List.countP_cons, List.countP_cons, ih, List.filter_cons]
    rcases Nat.lt_trichotomy (owner item).toNat row with h | h | h
    · simp [h, show (owner item).toNat < row + 1 by omega, show (owner item).toNat ≠ row by omega]
      omega
    · simp [h]
      omega
    · simp [show ¬ (owner item).toNat < row + 1 by omega,
        show ¬ (owner item).toNat < row by omega, show (owner item).toNat ≠ row by omega]

variable {items} in
/-- Behind the last owner there are no more items. -/
lemma itemsBefore_eq_length {row : Nat} (h : ∀ item ∈ items, (owner item).toNat < row) :
    itemsBefore owner items row = items.length :=
  List.countP_eq_length.mpr fun item hitem => decide_eq_true (h item hitem)

variable {items} in
lemma itemsBefore_succ_eq_length {row : Nat} (h : ∀ item ∈ items, (owner item).toNat ≤ row) :
    itemsBefore owner items (row + 1) = items.length :=
  itemsBefore_eq_length owner fun item hitem => Nat.lt_succ_of_le (h item hitem)

variable {items} in
/-- In front of the first owner there are no items. -/
lemma itemsBefore_one (h : ∀ item ∈ items, owner item ≠ 0) : itemsBefore owner items 1 = 0 :=
  List.countP_eq_zero.mpr fun item hitem hless => h item hitem (by
    simp only [decide_eq_true_eq] at hless
    exact UInt32.toNat_inj.mp (by simpa using hless))

/-- Sorting by owner loses nothing. -/
lemma byOwner_perm : (byOwner owner items).Perm items :=
  Module.sortedBy_perm (fun item => (owner item).toNat) items

lemma pairwise_byOwner :
    (byOwner owner items).Pairwise fun a b => (owner a).toNat ≤ (owner b).toNat :=
  Module.pairwise_sortedBy items

lemma filter_byOwner (row : Nat) :
    (byOwner owner items).filter (fun item => (owner item).toNat == row) =
      items.filter fun item => (owner item).toNat == row :=
  Module.filter_sortedBy items row

lemma itemsBefore_byOwner (row : Nat) :
    itemsBefore owner (byOwner owner items) row = itemsBefore owner items row :=
  (byOwner_perm owner items).countP_eq _

/-- The first row of a run stands behind the items of the owners in front of it. -/
lemma firstRow_byOwner (row : UInt32) :
    firstRow owner (byOwner owner items) row = rowOf (itemsBefore owner items row.toNat) := by
  have hless (item : α) : decide (owner item < row) = decide ((owner item).toNat < row.toNat) := by
    simp only [UInt32.lt_iff_toNat_lt]
  have hwhile := Module.takeWhile_eq_filter (pairwise_byOwner owner items) row.toNat
  rw [firstRow, ← itemsBefore_byOwner, itemsBefore, List.countP_eq_length_filter]
  simp only [hless, hwhile]

/-- The items of an owner stand together, behind those of the owners in front of it. -/
lemma byOwner_eq_append (row : Nat) :
    ∃ front back, front.length = itemsBefore owner items row ∧
      byOwner owner items =
        front ++ (items.filter fun item => (owner item).toNat == row) ++ back := by
  have hsplit := Module.eq_of_pairwise (pairwise_byOwner owner items) row
  rw [filter_byOwner] at hsplit
  refine ⟨_, _, ?_, hsplit⟩
  rw [← itemsBefore_byOwner, itemsBefore, List.countP_eq_length_filter]

/-- The run of an owner holds its items in their order. -/
lemma forall₂_runRows (hfits : items.length < 2 ^ 32 - 1) (row : Nat) :
    List.Forall₂ (fun item place => rowAt? (byOwner owner items) place = some item)
      (items.filter fun item => (owner item).toNat == row) (runRows owner items row) := by
  obtain ⟨front, back, hfront, hsplit⟩ := byOwner_eq_append owner items row
  rw [runRows, itemsBefore_succ, ← hfront, hsplit]
  refine forall₂_rowAt? front _ back ?_
  rw [← hsplit, (byOwner_perm owner items).length_eq]
  exact hfits

end Owners

/-! ## Runs that begin in the rows of types -/

section Types

variable {owner : α → UInt32} {items : List α}

/-- The rows from the first one of a type to before that of the next type are the run of the type. -/
lemma runOf_firstRow {count index : Nat} (howners : ∀ item ∈ items, (owner item).toNat ≤ count)
    (hcount : count < 2 ^ 32 - 1) (hindex : index < count) (hfits : items.length < 2 ^ 32 - 1)
    {next : Option UInt32}
    (hnext : next =
      if index + 1 < count then some (firstRow owner (byOwner owner items) (rowOf (index + 1)))
      else none) :
    runOf (firstRow owner (byOwner owner items) (rowOf index)) next items.length [] =
      runRows owner items (index + 1) := by
  rw [firstRow_byOwner, toNat_rowOf (by omega), hnext]
  by_cases hlast : index + 1 < count
  · rw [if_pos hlast, firstRow_byOwner, toNat_rowOf (by omega)]
    exact runOf_rowOf (itemsBefore_mono owner items (by omega)) (itemsBefore_le owner items _) hfits
  · have hend : itemsBefore owner items (index + 1 + 1) = items.length :=
      itemsBefore_succ_eq_length owner fun item hitem => by
        have := howners item hitem
        omega
    rw [if_neg hlast, runOf_none (itemsBefore_le owner items _) hfits, runRows, hend]

/-- The runs of all types, one after the other, are all rows. -/
lemma flatMap_runRows {count : Nat} (howners : ∀ item ∈ items, (owner item).toNat ≤ count)
    (hrows : ∀ item ∈ items, owner item ≠ 0) :
    (List.range count).flatMap (fun index => runRows owner items (index + 1)) =
      rowsBetween 0 items.length := by
  have hruns := flatMap_rowsBetween (fun index => itemsBefore owner items (index + 1))
    (fun index => itemsBefore_mono owner items (by omega)) count
  rw [itemsBefore_one owner hrows, itemsBefore_succ_eq_length owner howners] at hruns
  exact hruns

end Types

/-! ## Runs that begin in the entries of a map -/

section Maps

lemma runStarts_concat (owners : List UInt32) (owner : UInt32) :
    runStarts (owners ++ [owner]) =
      if (runStarts owners).getLast?.map (·.1) == some owner then runStarts owners
      else runStarts owners ++ [(owner, rowOf owners.length)] := by
  rw [runStarts, runStarts, List.zipIdx_append, List.foldl_append, List.getLast?_reverse]
  simp only [List.zipIdx_singleton, List.foldl_cons, List.foldl_nil, Nat.zero_add]
  split
  · rfl
  · rw [List.reverse_cons]

/-- The entries of a map: one for each owner, in ascending order and with the first row of the run. -/
structure MarksRuns (starts : List (UInt32 × UInt32)) (owners : List UInt32) : Prop where
  ascending : starts.Pairwise fun a b => a.1.toNat < b.1.toNat
  mem_iff : ∀ owner, owner ∈ starts.map (·.1) ↔ owner ∈ owners
  row_eq : ∀ start ∈ starts, start.2 = rowOf (itemsBefore id owners start.1.toNat)

/-- The last entry is that of the greatest owner. -/
lemma MarksRuns.getLast?_eq_iff {starts : List (UInt32 × UInt32)} {owners : List UInt32}
    (h : MarksRuns starts owners) {owner : UInt32} (hgreatest : ∀ other ∈ owners, other ≤ owner) :
    starts.getLast?.map (·.1) = some owner ↔ owner ∈ owners := by
  rw [← h.mem_iff, ← List.getLast?_map]
  constructor
  · exact List.mem_of_getLast?
  · intro hmem
    have hsorted : (starts.map (·.1)).Pairwise (·.toNat < ·.toNat) := List.pairwise_map.mpr h.ascending
    obtain ⟨front, back, heq⟩ := List.append_of_mem hmem
    cases back with
    | nil => rw [heq, List.getLast?_concat]
    | cons next back =>
      have hnext : next ∈ owners := (h.mem_iff next).mp (by simp [heq])
      rw [heq, List.pairwise_append] at hsorted
      have hless := (List.pairwise_cons.mp hsorted.2.1).1 next (by simp)
      exact absurd hless (by simpa using UInt32.le_iff_toNat_le.mp (hgreatest next hnext))

/-- The starts of the runs mark the runs of sorted owners. -/
lemma marksRuns_runStarts {owners : List UInt32} (h : owners.Pairwise (·.toNat ≤ ·.toNat)) :
    MarksRuns (runStarts owners) owners := by
  -- The starts are collected from left to right, so the induction adds an owner at the end.
  induction owners using List.reverseRecOn with
  | nil => exact ⟨.nil, by simp [runStarts], by simp [runStarts]⟩
  | append_singleton owners owner ih =>
    obtain ⟨hfront, -, hgreatest⟩ := List.pairwise_append.mp h
    replace hgreatest : ∀ other ∈ owners, other ≤ owner := fun other hother =>
      UInt32.le_iff_toNat_le.mpr (hgreatest other hother owner (by simp))
    have hmarks := ih hfront
    have hcount {start : UInt32} (hle : start ≤ owner) :
        itemsBefore id (owners ++ [owner]) start.toNat = itemsBefore id owners start.toNat := by
      simp [itemsBefore, UInt32.le_iff_toNat_le.mp hle]
    have hrows : ∀ start ∈ runStarts owners,
        start.2 = rowOf (itemsBefore id (owners ++ [owner]) start.1.toNat) := fun start hstart => by
      rw [hcount (hgreatest _ ((hmarks.mem_iff _).mp (List.mem_map_of_mem hstart)))]
      exact hmarks.row_eq start hstart
    rw [runStarts_concat]
    -- An owner that has been there is the last one, since owners ascend. A new one is greater than
    -- all.
    by_cases hmem : owner ∈ owners
    · rw [if_pos (beq_iff_eq.mpr ((hmarks.getLast?_eq_iff hgreatest).mpr hmem))]
      refine ⟨hmarks.ascending, fun other => ?_, hrows⟩
      rw [hmarks.mem_iff, List.mem_append, List.mem_singleton]
      exact ⟨Or.inl, Or.rec id fun heq => heq ▸ hmem⟩
    · have hnot : ¬ (runStarts owners).getLast?.map (·.1) = some owner := fun heq =>
        hmem ((hmarks.getLast?_eq_iff hgreatest).mp heq)
      have hless : ∀ other ∈ owners, other.toNat < owner.toNat := fun other hother => by
        have hle := UInt32.le_iff_toNat_le.mp (hgreatest other hother)
        have hne : other.toNat ≠ owner.toNat := fun heq => hmem (UInt32.toNat_inj.mp heq ▸ hother)
        omega
      rw [if_neg (by simpa using hnot)]
      refine ⟨List.pairwise_append.mpr ⟨hmarks.ascending, by simp, fun start hstart last hlast => ?_⟩,
        fun other => ?_, fun start hstart => ?_⟩
      · rw [List.mem_singleton.mp hlast]
        exact hless _ ((hmarks.mem_iff _).mp (List.mem_map_of_mem hstart))
      · rw [List.map_append, List.mem_append, List.mem_append, hmarks.mem_iff]
        simp
      · rcases List.mem_append.mp hstart with hstart | hstart
        · exact hrows start hstart
        · obtain rfl := List.mem_singleton.mp hstart
          rw [hcount (UInt32.le_refl owner), itemsBefore_eq_length id hless]

/-- Every owner of an item is either behind an entry or not greater than its owner. -/
lemma MarksRuns.le_or_mem {starts front others : List (UInt32 × UInt32)} {owners : List UInt32}
    {start : UInt32 × UInt32} (h : MarksRuns starts owners) (heq : starts = front ++ start :: others) :
    ∀ other ∈ owners, other.toNat ≤ start.1.toNat ∨ other ∈ others.map (·.1) := by
  intro other hother
  have hascending := h.ascending
  rw [heq] at hascending
  obtain ⟨entry, hentry, rfl⟩ := List.mem_map.mp ((h.mem_iff other).mpr hother)
  rw [heq] at hentry
  rcases List.mem_append.mp hentry with hentry | hentry
  · exact Or.inl (Nat.le_of_lt ((List.pairwise_append.mp hascending).2.2 entry hentry start (by simp)))
  · rcases List.mem_cons.mp hentry with rfl | hentry
    · exact Or.inl (Nat.le_refl _)
    · exact Or.inr (List.mem_map_of_mem hentry)

/-- Between the owners of two adjoining entries there are no items. -/
lemma MarksRuns.itemsBefore_next {starts front others : List (UInt32 × UInt32)}
    {owners : List UInt32} {start next : UInt32 × UInt32} (h : MarksRuns starts owners)
    (heq : starts = front ++ start :: next :: others) :
    itemsBefore id owners next.1.toNat = itemsBefore id owners (start.1.toNat + 1) := by
  have hascending := h.ascending
  rw [heq] at hascending
  obtain ⟨hstart, hnext⟩ := List.pairwise_cons.mp (List.pairwise_append.mp hascending).2.1
  have hbound := hstart next (by simp)
  have hlater : ∀ other ∈ (next :: others).map (·.1), next.1.toNat ≤ other.toNat := by
    intro other hother
    obtain ⟨entry, hentry, rfl⟩ := List.mem_map.mp hother
    rcases List.mem_cons.mp hentry with rfl | hentry
    · exact Nat.le_refl _
    · exact Nat.le_of_lt ((List.pairwise_cons.mp hnext).1 entry hentry)
  refine List.countP_congr fun other hother => ?_
  simp only [id_eq, decide_eq_true_eq]
  rcases h.le_or_mem heq other hother with hle | hmem
  · omega
  · have := hlater other hmem
    omega

/-- Behind the entries of other owners stands the entry of an owner and then that of the next one; or
nothing, if the owner has no items. -/
lemma MarksRuns.dropWhile {starts : List (UInt32 × UInt32)} {owners : List UInt32}
    (h : MarksRuns starts owners) (owner : UInt32) :
    (owner ∉ owners ∧ starts.dropWhile (·.1 != owner) = []) ∨
      ∃ others, starts.dropWhile (·.1 != owner) =
          (owner, rowOf (itemsBefore id owners owner.toNat)) :: others ∧
        (others.head?.map (·.2) = some (rowOf (itemsBefore id owners (owner.toNat + 1))) ∨
          others = [] ∧ itemsBefore id owners (owner.toNat + 1) = owners.length) := by
  by_cases hmem : owner ∈ owners
  · right
    obtain ⟨start, hstart, rfl⟩ := List.mem_map.mp ((h.mem_iff owner).mpr hmem)
    obtain ⟨front, others, heq⟩ := List.append_of_mem hstart
    have hascending := h.ascending
    rw [heq] at hascending
    have hfront := (List.pairwise_append.mp hascending).2.2
    have hskip : ∀ other ∈ front, (other.1 != start.1) = true := fun other hother => by
      have hless := hfront other hother start (by simp)
      simp only [bne_iff_ne, ne_eq]
      intro hsame
      rw [hsame] at hless
      exact Nat.lt_irrefl _ hless
    refine ⟨others, ?_, ?_⟩
    · rw [heq, List.dropWhile_append_of_pos hskip, List.dropWhile_cons_of_neg (by simp),
        ← h.row_eq start hstart]
    -- The run ends where that of the next entry begins, and behind the last entry with the table.
    · cases others with
      | nil =>
        refine Or.inr ⟨rfl, itemsBefore_succ_eq_length id fun other hother => ?_⟩
        exact (h.le_or_mem heq other hother).resolve_right (by simp)
      | cons next others =>
        left
        rw [List.head?_cons, Option.map_some, h.row_eq next (heq ▸ by simp), h.itemsBefore_next heq]
  · left
    refine ⟨hmem, List.dropWhile_eq_nil_iff.mpr fun start hstart => ?_⟩
    simp only [bne_iff_ne, ne_eq]
    rintro rfl
    exact hmem ((h.mem_iff _).mp (List.mem_map_of_mem hstart))

/-- The rows from the entry of an owner in a map to that of the next owner are the run of the owner,
and an owner without an entry has no rows. -/
lemma runOf_map {M : Type} {parent first : M → UInt32} {maps : List M} {owner : α → UInt32}
    {items : List α} (hfits : items.length < 2 ^ 32 - 1)
    (hmaps : maps.map (fun entry => (parent entry, first entry)) =
      runStarts ((byOwner owner items).map owner)) (row : UInt32) :
    (∃ entry others, maps.dropWhile (parent · != row) = entry :: others ∧
        runOf (first entry) (others.head?.map first) items.length [] =
          runRows owner items row.toNat) ∨
      maps.dropWhile (parent · != row) = [] ∧ runRows owner items row.toNat = [] := by
  let owners : List UInt32 := (byOwner owner items).map owner
  have hbefore (n : Nat) : itemsBefore id owners n = itemsBefore owner items n := by
    rw [← itemsBefore_byOwner owner items, itemsBefore, itemsBefore, List.countP_map]
    rfl
  have hlength : owners.length = items.length := by
    rw [List.length_map, (byOwner_perm owner items).length_eq]
  have hmarks := marksRuns_runStarts (List.pairwise_map.mpr (pairwise_byOwner owner items))
  rw [← hmaps] at hmarks
  have hskip := hmarks.dropWhile row
  rw [List.dropWhile_map] at hskip
  -- Without an entry there are no items. With one, the run ends where the next entry says, or with
  -- the table.
  rcases hskip with ⟨hnone, hskip⟩ | ⟨others, hskip, hnext⟩
  · right
    have hempty : (items.filter fun item => (owner item).toNat == row.toNat) = [] := by
      refine List.filter_eq_nil_iff.mpr fun item hitem heq => hnone ?_
      rw [← UInt32.toNat_inj.mp (beq_iff_eq.mp heq)]
      exact List.mem_map_of_mem ((byOwner_perm owner items).mem_iff.mpr hitem)
    refine ⟨List.map_eq_nil_iff.mp hskip, ?_⟩
    rw [runRows, itemsBefore_succ, hempty]
    exact rowsBetween_self _
  · left
    obtain ⟨entry, others, heq, hentry, rfl⟩ := List.map_eq_cons_iff.mp hskip
    refine ⟨entry, others, heq, ?_⟩
    rw [show first entry = _ from congrArg Prod.snd hentry, hbefore]
    rw [List.head?_map, Option.map_map] at hnext
    rw [hbefore, hlength] at hnext
    rcases hnext with hnext | ⟨hlast, hend⟩
    · rw [show others.head?.map first = _ from hnext]
      exact runOf_rowOf (itemsBefore_mono owner items (by omega)) (itemsBefore_le owner items _) hfits
    · rw [List.map_eq_nil_iff.mp hlast, List.head?_nil, Option.map_none,
        runOf_none (itemsBefore_le owner items _) hfits, runRows, hend]

end Maps

end CliMetadata.Draft
