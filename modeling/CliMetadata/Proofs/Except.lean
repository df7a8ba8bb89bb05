import Mathlib.Data.List.Forall2

/-!
# Computations that may fail

What it means for a chain of steps, or for a step that is done for each item of a list, to succeed:
every step succeeds with what the next one is given, and the results stand beside the items.
-/

namespace CliMetadata

variable {ε α β : Type}

/-- A chain succeeds if its first step does and the others do on what that gives. -/
lemma bind_eq_ok {first : Except ε α} {next : α → Except ε β} {result : β} :
    first >>= next = .ok result ↔ ∃ value, first = .ok value ∧ next value = .ok result := by
  cases first with
  | error error => simp [bind, Except.bind]
  | ok value => simp [bind, Except.bind]

lemma map_eq_ok {first : Except ε α} {f : α → β} {result : β} :
    f <$> first = .ok result ↔ ∃ value, first = .ok value ∧ f value = result := by
  cases first with
  | error error => simp [Functor.map, Except.map]
  | ok value => simp [Functor.map, Except.map]

lemma pure_eq_ok {value result : α} :
    (pure value : Except ε α) = .ok result ↔ value = result := by
  simp [pure, Except.pure]

lemma toOption_eq_some {outcome : Except ε α} {value : α} :
    outcome.toOption = some value ↔ outcome = .ok value := by
  cases outcome <;> simp [Except.toOption]

lemma ok_bind (value : α) (next : α → Except ε β) : Except.ok value >>= next = next value := rfl

/-- What stands behind a guard succeeds if the guard lets it. -/
lemma guarded_eq_ok {p : Prop} [Decidable p] {error : ε} {next : Unit → Except ε β} {result : β} :
    (if p then throw error >>= next else next ()) = .ok result ↔ ¬ p ∧ next () = .ok result := by
  by_cases h : p
  · simp [h, throw, throwThe, MonadExceptOf.throw, bind, Except.bind]
  · simp [h]

/-- A step done for each item succeeds if it does for every one, with the results in order. -/
lemma mapM_eq_ok {step : α → Except ε β} {items : List α} {results : List β} :
    items.mapM step = .ok results ↔
      List.Forall₂ (fun item result => step item = .ok result) items results := by
  induction items generalizing results with
  | nil => simp [pure, Except.pure, eq_comm]
  | cons item items ih =>
    rw [List.mapM_cons, bind_eq_ok]
    constructor
    · rintro ⟨result, hresult, hrest⟩
      obtain ⟨others, hothers, hresults⟩ := bind_eq_ok.mp hrest
      obtain rfl := pure_eq_ok.mp hresults
      exact List.Forall₂.cons hresult (ih.mp hothers)
    · intro h
      cases h with
      | cons hresult hothers =>
        exact ⟨_, hresult, bind_eq_ok.mpr ⟨_, ih.mpr hothers, rfl⟩⟩

lemma mapM_ok (f : α → β) (items : List α) :
    (items.mapM fun item => (.ok (f item) : Except ε β)) = .ok (items.map f) := by
  induction items with
  | nil => rfl
  | cons item items ih =>
    rw [List.mapM_cons, ih]
    rfl

/-- Results may be changed one by one or all together. -/
lemma mapM_map_result {γ : Type} (f : β → γ) (step : α → Except ε β) (items : List α) :
    (items.mapM fun item => f <$> step item) = List.map f <$> items.mapM step := by
  induction items with
  | nil => rfl
  | cons item items ih =>
    rw [List.mapM_cons, List.mapM_cons, ih]
    cases step item with
    | error error => rfl
    | ok value => cases items.mapM step <;> rfl

/-! ## Items side by side -/

/-- Items that stand side by side may be replaced in what is known of each pair. -/
lemma forall₂_of_mem {R S : α → β → Prop} {items : List α} {others : List β}
    (h : List.Forall₂ R items others)
    (himp : ∀ item ∈ items, ∀ other ∈ others, R item other → S item other) :
    List.Forall₂ S items others := by
  induction h with
  | nil => exact List.Forall₂.nil
  | @cons item other items others hpair _ ih =>
    refine List.Forall₂.cons (himp item List.mem_cons_self other List.mem_cons_self hpair) ?_
    exact ih fun a ha b hb =>
      himp a (List.mem_cons_of_mem item ha) b (List.mem_cons_of_mem other hb)

/-- Items beside items beside which there are others. -/
lemma forall₂_trans {γ : Type} {P : α → β → Prop} {Q : β → γ → Prop} {R : α → γ → Prop}
    {as : List α} {bs : List β} {cs : List γ} (hfirst : List.Forall₂ P as bs)
    (hsecond : List.Forall₂ Q bs cs) (h : ∀ a b c, P a b → Q b c → R a c) :
    List.Forall₂ R as cs := by
  induction hfirst generalizing cs with
  | nil =>
    cases hsecond
    exact .nil
  | cons hhead _ ih =>
    cases hsecond with
    | cons hnext hrest => exact .cons (h _ _ _ hhead hnext) (ih hrest)

/-- Where items end, those beside them end as well. -/
lemma rel_getElem? {R : α → β → Prop} {items : List α} {others : List β}
    (h : List.Forall₂ R items others) (index : Nat) :
    Option.Rel R items[index]? others[index]? := by
  induction h generalizing index with
  | nil => exact .none
  | cons hpair _ ih =>
    cases index with
    | zero => exact .some hpair
    | succ index => exact ih index

/-- What stands beside items stands beside one of them. -/
lemma exists_left_of_mem {R : α → β → Prop} {items : List α} {others : List β}
    (h : List.Forall₂ R items others) : ∀ other ∈ others, ∃ item ∈ items, R item other := by
  induction h with
  | nil => simp
  | @cons item first items others hpair _ ih =>
    intro other hother
    rcases List.mem_cons.mp hother with rfl | hother
    · exact ⟨item, List.mem_cons_self, hpair⟩
    · obtain ⟨found, hfound, hpair⟩ := ih other hother
      exact ⟨found, List.mem_cons_of_mem item hfound, hpair⟩

/-- Each of the others stands beside an item. -/
lemma exists_mem_zip {R : α → β → Prop} {items : List α} {others : List β}
    (h : List.Forall₂ R items others) :
    ∀ other ∈ others, ∃ item, (item, other) ∈ items.zip others ∧ R item other := by
  intro other hother
  rw [← List.map_snd_zip (Nat.le_of_eq h.length_eq.symm)] at hother
  obtain ⟨⟨item, _⟩, hpair, rfl⟩ := List.mem_map.mp hother
  exact ⟨item, hpair, (List.forall₂_iff_zip.mp h).2 hpair⟩

/-- Beside each item stands one of the others. -/
lemma exists_right_of_mem {R : α → β → Prop} {items : List α} {others : List β}
    (h : List.Forall₂ R items others) : ∀ item ∈ items, ∃ other ∈ others, R item other :=
  exists_left_of_mem h.flip

end CliMetadata
