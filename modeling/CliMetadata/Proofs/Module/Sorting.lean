import CliMetadata.Module.Basic
import Mathlib.Data.List.Induction

/-!
# Sorting by a key

Items that are sorted by a key are the same items in ascending order of the key, and those with one
key stay in their order. So a list that is sorted falls into the items below a key, those with the key
and those above it.
-/

namespace CliMetadata.Module

variable {α : Type} (key : α → Nat)

lemma sortedBy_concat (items : List α) (item : α) :
    sortedBy key (items ++ [item]) = insertSorted key item (sortedBy key items) := by
  rw [sortedBy, sortedBy, List.foldl_append, List.foldl_cons, List.foldl_nil]

lemma insertSorted_perm (item : α) (items : List α) :
    (insertSorted key item items).Perm (item :: items) := by
  induction items with
  | nil => exact .refl _
  | cons first others ih =>
    rw [insertSorted]
    split
    · exact .refl _
    · exact (ih.cons first).trans (.swap item first others)

lemma sortedBy_perm (items : List α) : (sortedBy key items).Perm items := by
  induction items using List.reverseRecOn with
  | nil => exact .refl _
  | append_singleton items item ih =>
    rw [sortedBy_concat]
    exact (insertSorted_perm key item _).trans
      ((ih.cons item).trans (List.perm_append_singleton item items).symm)

variable {key}

lemma pairwise_insertSorted {item : α} {items : List α}
    (h : items.Pairwise fun a b => key a ≤ key b) :
    (insertSorted key item items).Pairwise fun a b => key a ≤ key b := by
  induction items with
  | nil => exact List.pairwise_singleton _ item
  | cons first others ih =>
    obtain ⟨hfirst, hothers⟩ := List.pairwise_cons.mp h
    rw [insertSorted]
    -- The item goes in front of the first one with a greater key, and else further back.
    split
    · rename_i hless
      refine List.pairwise_cons.mpr ⟨fun other hother => ?_, h⟩
      rcases List.mem_cons.mp hother with rfl | hother
      · omega
      · have := hfirst other hother
        omega
    · refine List.pairwise_cons.mpr ⟨fun other hother => ?_, ih hothers⟩
      rcases List.mem_cons.mp ((insertSorted_perm key item others).mem_iff.mp hother) with rfl | hother
      · omega
      · exact hfirst other hother

lemma pairwise_sortedBy (items : List α) :
    (sortedBy key items).Pairwise fun a b => key a ≤ key b := by
  induction items using List.reverseRecOn with
  | nil => exact .nil
  | append_singleton items item ih =>
    rw [sortedBy_concat]
    exact pairwise_insertSorted ih

/-- An item goes behind those with its key. -/
lemma filter_insertSorted {item : α} {items : List α}
    (h : items.Pairwise fun a b => key a ≤ key b) (n : Nat) :
    (insertSorted key item items).filter (key · == n) =
      items.filter (key · == n) ++ [item].filter (key · == n) := by
  induction items with
  | nil => rfl
  | cons first others ih =>
    obtain ⟨hfirst, hothers⟩ := List.pairwise_cons.mp h
    rw [insertSorted]
    split
    · rename_i hless
      -- Where the item goes all that follow have greater keys, so none of them passes the filter
      -- with it.
      by_cases hitem : key item = n
      · have hnone : (first :: others).filter (key · == n) = [] := by
          refine List.filter_eq_nil_iff.mpr fun other hother => ?_
          rcases List.mem_cons.mp hother with rfl | hother
          · simp only [beq_iff_eq]
            omega
          · have := hfirst other hother
            simp only [beq_iff_eq]
            omega
        rw [List.filter_cons, hnone]
        simp [hitem]
      · rw [List.filter_cons]
        simp [hitem]
    · rw [List.filter_cons, ih hothers]
      simp only [List.filter_cons]
      split <;> rfl

/-- Items with the same key stay in their order. -/
lemma filter_sortedBy (items : List α) (n : Nat) :
    (sortedBy key items).filter (key · == n) = items.filter (key · == n) := by
  induction items using List.reverseRecOn with
  | nil => rfl
  | append_singleton items item ih =>
    rw [sortedBy_concat, filter_insertSorted (pairwise_sortedBy items), ih, List.filter_append]

/-- Items that all have one key stay in their order. -/
lemma filter_sortedBy_of_key {items : List α} {test : α → Bool} {n : Nat}
    (h : ∀ item ∈ items, test item = true → key item = n) :
    (sortedBy key items).filter test = items.filter test := by
  have hnarrow {others : List α} (hothers : ∀ item ∈ others, test item = true → key item = n) :
      others.filter test = (others.filter (key · == n)).filter test := by
    rw [List.filter_filter]
    refine List.filter_congr fun item hitem => ?_
    cases htest : test item with
    | false => rfl
    | true => simp [hothers item hitem htest]
  rw [hnarrow h, hnarrow fun item hitem => h item ((sortedBy_perm key items).mem_iff.mp hitem),
    filter_sortedBy]

lemma insertSorted_map {β : Type} {key : β → Nat} (f : α → β) (item : α) (items : List α) :
    insertSorted key (f item) (items.map f) = (insertSorted (key ∘ f) item items).map f := by
  induction items with
  | nil => rfl
  | cons first others ih =>
    simp only [List.map_cons, insertSorted, ih, Function.comp_apply]
    split <;> rfl

lemma sortedBy_map {β : Type} {key : β → Nat} (f : α → β) (items : List α) :
    sortedBy key (items.map f) = (sortedBy (key ∘ f) items).map f := by
  induction items using List.reverseRecOn with
  | nil => rfl
  | append_singleton items item ih =>
    rw [List.map_append, List.map_singleton, sortedBy_concat, sortedBy_concat, ih,
      insertSorted_map]

/-- Where sorted items stop to be below a key, none is below it any more. -/
lemma takeWhile_eq_filter {items : List α} (h : items.Pairwise fun a b => key a ≤ key b)
    (n : Nat) : items.takeWhile (key · < n) = items.filter (key · < n) := by
  induction items with
  | nil => rfl
  | cons first others ih =>
    obtain ⟨hfirst, hothers⟩ := List.pairwise_cons.mp h
    rw [List.takeWhile_cons, List.filter_cons, ih hothers]
    split
    · rfl
    · rename_i hstop
      have hnone : others.filter (key · < n) = [] := by
        refine List.filter_eq_nil_iff.mpr fun other hother => ?_
        have := hfirst other hother
        simp only [decide_eq_true_eq] at hstop ⊢
        omega
      exact hnone.symm

/-- Sorted items fall into those below a key, those with the key and those above it. -/
lemma eq_of_pairwise {items : List α} (h : items.Pairwise fun a b => key a ≤ key b) (n : Nat) :
    items = items.filter (key · < n) ++ items.filter (key · == n) ++ items.filter (n < key ·) := by
  induction items with
  | nil => rfl
  | cons first others ih =>
    obtain ⟨hfirst, hothers⟩ := List.pairwise_cons.mp h
    have hbelow (hn : n ≤ key first) : others.filter (key · < n) = [] := by
      refine List.filter_eq_nil_iff.mpr fun other hother => ?_
      have := hfirst other hother
      simp only [decide_eq_true_eq]
      omega
    have hsame (hn : n < key first) : others.filter (key · == n) = [] := by
      refine List.filter_eq_nil_iff.mpr fun other hother => ?_
      have := hfirst other hother
      simp only [beq_iff_eq]
      omega
    -- The key of the first item decides which of the filters let nothing through.
    rcases Nat.lt_trichotomy (key first) n with hn | hn | hn
    · conv => lhs; rw [ih hothers]
      simp [hn, show key first ≠ n by omega, show ¬ n < key first by omega]
    · conv => lhs; rw [ih hothers]
      simp [hn, hbelow (by omega)]
    · conv => lhs; rw [ih hothers]
      simp [hn, hbelow (by omega), hsame hn, show key first ≠ n by omega,
        show ¬ key first < n by omega]

end CliMetadata.Module
