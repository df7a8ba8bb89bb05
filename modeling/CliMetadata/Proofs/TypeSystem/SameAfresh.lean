import CliMetadata.Proofs.Registry.Outcome
import CliMetadata.Proofs.TypeSystem.Afresh

/-!
# The same with and without what is kept

A computation in a session comes to the same as the computation that keeps nothing: it fails with the
same error, or gives a value that is related to the one that is found out anew. How the values are
related depends on what they are; where the two values are equal, the steps of a computation are
compared one by one without further ado.
-/

namespace CliMetadata.Session

variable {α β γ δ : Type} {among : Registry → Prop} {view : View}

/-- From every registry of a class the computation ends in one of the class, with what it comes to
when nothing is kept. -/
class SameAfresh (among : Registry → Prop) (view : View) (R : β → α → Prop) (action : Session α)
    (afresh : Afresh β) : Prop where
  ensures : Ensures among action (Matches R (afresh.run view))

/-- What the modules settle by themselves does not depend on what is kept. -/
lemma Yields.sameAfresh {action : Session α} {afresh : Afresh α}
    (h : Yields among action (afresh.run view)) : SameAfresh among view Eq action afresh :=
  ⟨h.matches fun _ => rfl⟩

namespace SameAfresh

/-! ## Steps -/

/-- A relation between answers may be weakened. -/
lemma mono {R S : β → α → Prop} {action : Session α} {afresh : Afresh β}
    (h : SameAfresh among view R action afresh)
    (himp : ∀ known value, afresh.run view = .ok known → R known value → S known value) :
    SameAfresh among view S action afresh := by
  refine ⟨h.ensures.mono fun outcome hmatches => ?_⟩
  cases hknown : afresh.run view with
  | error error =>
    rw [hknown] at hmatches
    cases outcome with
    | error other => exact hmatches
    | ok value => exact hmatches.elim
  | ok known =>
    rw [hknown] at hmatches
    cases outcome with
    | error other => exact hmatches.elim
    | ok value => exact himp known value hknown hmatches

/-- Only what the fresh action comes to counts. -/
lemma of_run_eq {R : β → α → Prop} {action : Session α} {afresh afresh' : Afresh β}
    (h : SameAfresh among view R action afresh) (hrun : afresh'.run view = afresh.run view) :
    SameAfresh among view R action afresh' :=
  ⟨hrun ▸ h.ensures⟩

/-- Values that are related are alike. -/
lemma pure {R : β → α → Prop} {known : β} {value : α} (h : R known value) :
    SameAfresh among view R (Pure.pure value) (Pure.pure known) :=
  ⟨(yields_pure value).ensures h⟩

/-- One step after the other. -/
lemma bind {R : γ → α → Prop} {S : δ → β → Prop} {first : Session α} {first' : Afresh γ}
    {next : α → Session β} {next' : γ → Afresh δ} (hfirst : SameAfresh among view R first first')
    (hnext : ∀ known value, first'.run view = .ok known → R known value →
      SameAfresh among view S (next value) (next' known)) :
    SameAfresh among view S (first >>= next) (first' >>= next') := by
  have hensures := hfirst.ensures
  refine ⟨?_⟩
  rw [ReaderT.run_bind]
  cases hknown : first'.run view with
  | error error =>
    rw [hknown] at hensures
    exact hensures.bind (fun _ h => h.elim) fun _ h => h
  | ok known =>
    rw [hknown] at hensures
    exact hensures.bind (fun value hvalue => (hnext known value hknown hvalue).ensures)
      fun _ h => h.elim

/-- A step that may give nothing. -/
lemma bind_option {R : γ → α → Prop} {S : δ → β → Prop} {first : Session (Option α)}
    {first' : Afresh (Option γ)} {next : Option α → Session β} {next' : Option γ → Afresh δ}
    (hfirst : SameAfresh among view (Option.Rel R) first first')
    (hnone : SameAfresh among view S (next none) (next' none))
    (hsome : ∀ known value, first'.run view = .ok (some known) → R known value →
      SameAfresh among view S (next (some value)) (next' (some known))) :
    SameAfresh among view S (first >>= next) (first' >>= next') := by
  refine hfirst.bind fun known? value? hknown hrelated => ?_
  cases hrelated with
  | none => exact hnone
  | some hvalue => exact hsome _ _ hknown hvalue

lemma map {R : γ → α → Prop} {S : δ → β → Prop} {action : Session α} {afresh : Afresh γ}
    {f : α → β} {g : γ → δ} (h : SameAfresh among view R action afresh)
    (hmap : ∀ known value, R known value → S (g known) (f value)) :
    SameAfresh among view S (f <$> action) (g <$> afresh) := by
  rw [map_eq_pure_bind, map_eq_pure_bind]
  exact h.bind fun known value _ hvalue => .pure (hmap known value hvalue)

/-- A step that may fail gives its value, or nothing. -/
lemma attempt {R : β → α → Prop} {action : Session α} {afresh : Afresh β}
    (h : SameAfresh among view R action afresh) :
    SameAfresh among view (Option.Rel R) (CliMetadata.attempt action)
      (CliMetadata.attempt afresh) := by
  refine ⟨(Ensures.attempt h.ensures).mono fun outcome hinner => ?_⟩
  obtain ⟨inner, hmatches, rfl⟩ := hinner
  rw [Afresh.run_attempt]
  cases hknown : afresh.run view with
  | error error =>
    rw [hknown] at hmatches
    cases inner with
    | error other => exact .none
    | ok value => exact hmatches.elim
  | ok known =>
    rw [hknown] at hmatches
    cases inner with
    | error other => exact hmatches.elim
    | ok value => exact .some hmatches

/-! ## Lists -/

section

variable {P : γ → α → Prop} {R : δ → β → Prop} {items : List α} {knowns : List γ}

/-- Lists of actions are alike if the actions are, one by one. -/
lemma mapM (h : List.Forall₂ P knowns items) {step : α → Session β} {step' : γ → Afresh δ}
    (hstep : ∀ known item, P known item → SameAfresh among view R (step item) (step' known)) :
    SameAfresh among view (List.Forall₂ R) (items.mapM step) (knowns.mapM step') := by
  induction h with
  | nil => exact .pure .nil
  | cons hhead _ ih =>
    rw [List.mapM_cons, List.mapM_cons]
    refine (hstep _ _ hhead).bind fun first value _ hvalue => ?_
    exact ih.bind fun others values _ hvalues => .pure (.cons hvalue hvalues)

lemma filterMapM (h : List.Forall₂ P knowns items) {step : α → Session (Option β)}
    {step' : γ → Afresh (Option δ)}
    (hstep : ∀ known item, P known item →
      SameAfresh among view (Option.Rel R) (step item) (step' known)) :
    SameAfresh among view (List.Forall₂ R) (items.filterMapM step) (knowns.filterMapM step') := by
  have hloop (found : List β) (found' : List δ) (hfound : List.Forall₂ R found' found) :
      SameAfresh among view (List.Forall₂ R) (List.filterMapM.loop step items found)
        (List.filterMapM.loop step' knowns found') := by
    induction h generalizing found found' with
    | nil =>
      rw [List.filterMapM.loop, List.filterMapM.loop]
      exact .pure (List.rel_reverse hfound)
    | cons hhead _ ih =>
      rw [List.filterMapM.loop, List.filterMapM.loop]
      exact (hstep _ _ hhead).bind_option (ih found found' hfound) fun known value _ hvalue =>
        ih _ _ (.cons hvalue hfound)
  exact hloop [] [] .nil

lemma filterM (h : List.Forall₂ P knowns items) {test : α → Session Bool}
    {test' : γ → Afresh Bool}
    (htest : ∀ known item, P known item → SameAfresh among view Eq (test item) (test' known)) :
    SameAfresh among view (List.Forall₂ P) (items.filterM test) (knowns.filterM test') := by
  have hloop (found : List α) (found' : List γ) (hfound : List.Forall₂ P found' found) :
      SameAfresh among view (List.Forall₂ P) (List.filterAuxM test items found)
        (List.filterAuxM test' knowns found') := by
    induction h generalizing found found' with
    | nil => exact .pure hfound
    | cons hhead _ ih =>
      rw [List.filterAuxM, List.filterAuxM]
      refine (htest _ _ hhead).bind fun keeps keeps' _ hkeeps => ?_
      subst hkeeps
      cases keeps with
      | false => exact ih found found' hfound
      | true => exact ih _ _ (.cons hhead hfound)
  exact (hloop [] [] .nil).bind fun _ _ _ hfound => .pure (List.rel_reverse hfound)

/-- A search for one item that passes is alike if each test is. -/
lemma anyM (h : List.Forall₂ P knowns items) {test : α → Session Bool} {test' : γ → Afresh Bool}
    (htest : ∀ known item, P known item → SameAfresh among view Eq (test item) (test' known)) :
    SameAfresh among view Eq (items.anyM test) (knowns.anyM test') := by
  induction h with
  | nil => exact .pure rfl
  | cons hhead _ ih =>
    rw [List.anyM, List.anyM]
    refine (htest _ _ hhead).bind fun holds holds' _ hholds => ?_
    subst hholds
    cases holds with
    | false => exact ih
    | true => exact .pure rfl

end

/-! ## Equal values -/

instance (value : α) : SameAfresh among view Eq (Pure.pure value) (Pure.pure value) := .pure rfl

instance (R : β → α → Prop) (error : Error) :
    SameAfresh among view R (throw error) (throw error) :=
  ⟨(yields_throw error).ensures rfl⟩

instance (outcome : Except Error α) :
    SameAfresh among view Eq (MonadExcept.ofExcept outcome) (MonadExcept.ofExcept outcome) :=
  Yields.sameAfresh (by rw [Afresh.run_ofExcept]; exact yields_ofExcept outcome)

/-- Actions over the same value are alike one after the other. -/
lemma bind_eq {R : δ → β → Prop} {first : Session α} {first' : Afresh α} {next : α → Session β}
    {next' : α → Afresh δ} (hfirst : SameAfresh among view Eq first first')
    (hnext : ∀ value, SameAfresh among view R (next value) (next' value)) :
    SameAfresh among view R (first >>= next) (first' >>= next') :=
  hfirst.bind fun known _ _ hvalue => hvalue ▸ hnext known

instance (R : δ → β → Prop) (first : Session α) (first' : Afresh α) (next : α → Session β)
    (next' : α → Afresh δ) [hfirst : SameAfresh among view Eq first first']
    [hnext : ∀ value, SameAfresh among view R (next value) (next' value)] :
    SameAfresh among view R (first >>= next) (first' >>= next') :=
  bind_eq hfirst hnext

/-- A step that may give nothing, or a value. -/
lemma bind_eq_option {R : δ → β → Prop} {first : Session (Option α)} {first' : Afresh (Option α)}
    {next : Option α → Session β} {next' : Option α → Afresh δ}
    (hfirst : SameAfresh among view Eq first first')
    (hnone : SameAfresh among view R (next none) (next' none))
    (hsome : ∀ value, SameAfresh among view R (next (some value)) (next' (some value))) :
    SameAfresh among view R (first >>= next) (first' >>= next') :=
  bind_eq hfirst fun value? => value?.casesOn hnone hsome

instance (f : α → β) (action : Session α) (afresh : Afresh α)
    [h : SameAfresh among view Eq action afresh] :
    SameAfresh among view Eq (f <$> action) (f <$> afresh) :=
  h.map fun _ _ hvalue => congrArg f hvalue

instance (R : β → α → Prop) (test : Prop) [Decidable test] (first second : Session α)
    (first' second' : Afresh β) [hfirst : SameAfresh among view R first first']
    [hsecond : SameAfresh among view R second second'] :
    SameAfresh among view R (if test then first else second)
      (if test then first' else second') := by
  by_cases h : test
  · rw [if_pos h, if_pos h]
    exact hfirst
  · rw [if_neg h, if_neg h]
    exact hsecond

instance (action : Session α) (afresh : Afresh α) [h : SameAfresh among view Eq action afresh] :
    SameAfresh among view Eq (CliMetadata.attempt action) (CliMetadata.attempt afresh) :=
  h.attempt.mono fun _ _ _ hvalue => by cases hvalue <;> simp_all

instance (step : α → Session β) (step' : α → Afresh β) (value? : Option α)
    [hstep : ∀ value, SameAfresh among view Eq (step value) (step' value)] :
    SameAfresh among view Eq (value?.mapM step) (value?.mapM step') := by
  cases value? with
  | none => exact .pure rfl
  | some value => exact (hstep value).map fun _ _ h => congrArg some h

/-- A list is related to itself by equality. -/
lemma forall₂_refl (items : List α) : List.Forall₂ Eq items items :=
  List.forall₂_same.mpr fun _ _ => rfl

instance (step : α → Session β) (step' : α → Afresh β) (items : List α)
    [hstep : ∀ item, SameAfresh among view Eq (step item) (step' item)] :
    SameAfresh among view Eq (items.mapM step) (items.mapM step') :=
  (mapM (forall₂_refl items) fun known _ h => by subst h; exact hstep known).mono fun _ _ _ h => by
    rwa [List.forall₂_eq_eq_eq] at h

instance (step : α → Session (Option β)) (step' : α → Afresh (Option β)) (items : List α)
    [hstep : ∀ item, SameAfresh among view Eq (step item) (step' item)] :
    SameAfresh among view Eq (items.filterMapM step) (items.filterMapM step') := by
  have hrelated (item : α) : SameAfresh among view (Option.Rel Eq) (step item) (step' item) :=
    (hstep item).mono fun known value _ h => by
      subst h
      cases known with
      | none => exact .none
      | some known => exact .some rfl
  exact (filterMapM (forall₂_refl items) fun known _ h => by subst h; exact hrelated known).mono
    fun _ _ _ h => by rwa [List.forall₂_eq_eq_eq] at h

lemma filterM_eq {test : α → Session Bool} {test' : α → Afresh Bool} (items : List α)
    (htest : ∀ item, SameAfresh among view Eq (test item) (test' item)) :
    SameAfresh among view Eq (items.filterM test) (items.filterM test') :=
  (filterM (forall₂_refl items) fun known _ h => by subst h; exact htest known).mono
    fun _ _ _ h => by rwa [List.forall₂_eq_eq_eq] at h

end SameAfresh

end CliMetadata.Session
