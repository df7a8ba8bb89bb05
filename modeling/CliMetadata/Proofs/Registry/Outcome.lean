import CliMetadata.Registry.Session
import CliMetadata.Proofs.Binding.Canonical
import CliMetadata.Proofs.Except

/-!
# Outcomes of sessions

What a computation on a registry comes to, from whichever registry of a class it starts: it ends in
one of the class, and its outcome is of a given sort. The class is chosen so that all its registries
show the same modules; then what follows references comes to the same from each of them.
-/

namespace CliMetadata

namespace Session

variable {α β : Type} {among : Registry → Prop}

/-- The result of a computation that comes to an outcome. -/
def result (outcome : Except Error α) (after : Registry) : EStateM.Result Error Registry α :=
  match outcome with
  | .ok value => .ok value after
  | .error error => .error error after

/-- The outcome and the registry can be told from a result. -/
lemma result_inj {outcome outcome' : Except Error α} {after after' : Registry}
    (h : result outcome after = result outcome' after') : outcome = outcome' ∧ after = after' := by
  cases outcome with
  | ok =>
    cases outcome' with
    | ok => simpa [result] using h
    | error => simp [result] at h
  | error =>
    cases outcome' with
    | ok => simp [result] at h
    | error => simpa [result] using h

/-- A step that succeeds hands on its value and the registry after it. -/
lemma run_bind_ok {registry after : Registry} {action : Session α} {value : α}
    (next : α → Session β) (h : action.run registry = .ok value after) :
    (action >>= next).run registry = (next value).run after := by
  show EStateM.bind action next registry = _
  rw [EStateM.bind, show action registry = _ from h]
  rfl

/-- A step that fails ends the computation. -/
lemma run_bind_error {registry after : Registry} {action : Session α} {error : Error}
    (next : α → Session β) (h : action.run registry = .error error after) :
    (action >>= next).run registry = .error error after := by
  show EStateM.bind action next registry = _
  rw [EStateM.bind, show action registry = _ from h]

/-- What succeeds still succeeds when its value is mapped. -/
lemma run_map_ok {registry after : Registry} {action : Session α} {value : α} (f : α → β)
    (h : action.run registry = .ok value after) :
    (f <$> action).run registry = .ok (f value) after := by
  rw [map_eq_pure_bind, run_bind_ok _ h]
  rfl

/-- What fails still fails when its value is mapped. -/
lemma run_map_error {registry after : Registry} {action : Session α} {error : Error} (f : α → β)
    (h : action.run registry = .error error after) :
    (f <$> action).run registry = .error error after := by
  rw [map_eq_pure_bind, run_bind_error _ h]

/-- An attempt at what succeeds has its value. -/
lemma run_attempt_ok {registry after : Registry} {action : Session α} {value : α}
    (h : action.run registry = .ok value after) :
    (attempt action).run registry = .ok (some value) after := by
  show EStateM.tryCatch (some <$> action) (fun _ => pure none) registry = _
  rw [EStateM.tryCatch, show (some <$> action) registry = _ from run_map_ok some h]

/-- An attempt at what fails has no value, and keeps the registry that the failure left. -/
lemma run_attempt_error {registry after : Registry} {action : Session α} {error : Error}
    (h : action.run registry = .error error after) :
    (attempt action).run registry = .ok none after := by
  show EStateM.tryCatch (some <$> action) (fun _ => pure none) registry = _
  rw [EStateM.tryCatch, show (some <$> action) registry = _ from run_map_error some h]
  rfl

/-- What succeeds was put together from steps that succeed. -/
lemma exists_of_run_bind_eq_ok {registry last : Registry} {first : Session α}
    {next : α → Session β} {value : β} (h : (first >>= next).run registry = .ok value last) :
    ∃ known middle, first.run registry = .ok known middle ∧
      (next known).run middle = .ok value last := by
  change EStateM.bind first next registry = _ at h
  rw [EStateM.bind] at h
  cases hfirst : first registry with
  | error error middle =>
    rw [hfirst] at h
    exact nomatch h
  | ok known middle =>
    rw [hfirst] at h
    exact ⟨known, middle, hfirst, h⟩

/-- From every registry of a class the computation ends in one of the class, with an outcome of the
given sort. -/
def Ensures (among : Registry → Prop) (action : Session α) (post : Except Error α → Prop) : Prop :=
  ∀ registry, among registry →
    ∃ outcome after, action registry = result outcome after ∧ among after ∧ post outcome

/-- From every registry of a class the computation ends in one of the class, with this outcome. -/
def Yields (among : Registry → Prop) (action : Session α) (outcome : Except Error α) : Prop :=
  Ensures among action (· = outcome)

/-- From every registry of a class the computation ends in one of the class and succeeds with a value
of the given sort. -/
def Succeeds (among : Registry → Prop) (action : Session α) (post : α → Prop) : Prop :=
  Ensures among action fun outcome => ∃ value, outcome = .ok value ∧ post value

/-! ## Steps -/

/-- An outcome of one sort is one of any wider sort. -/
lemma Ensures.mono {action : Session α} {post weaker : Except Error α → Prop}
    (h : Ensures among action post) (himp : ∀ outcome, post outcome → weaker outcome) :
    Ensures among action weaker := by
  intro registry hregistry
  obtain ⟨outcome, after, hrun, hafter, hpost⟩ := h registry hregistry
  exact ⟨outcome, after, hrun, hafter, himp outcome hpost⟩

/-- A known outcome is of every sort that it belongs to. -/
lemma Yields.ensures {action : Session α} {outcome : Except Error α}
    {post : Except Error α → Prop} (h : Yields among action outcome) (hpost : post outcome) :
    Ensures among action post :=
  Ensures.mono h fun _ hsame => hsame ▸ hpost

/-- A value is yielded as it is. -/
lemma yields_pure (value : α) : Yields among (pure value) (.ok value) :=
  fun registry hregistry => ⟨.ok value, registry, rfl, hregistry, rfl⟩

lemma yields_throw (error : Error) : Yields among (throw error : Session α) (.error error) :=
  fun registry hregistry => ⟨.error error, registry, rfl, hregistry, rfl⟩

/-- An outcome that was found outside the session is the outcome in it. -/
lemma yields_ofExcept (outcome : Except Error α) :
    Yields among (MonadExcept.ofExcept outcome) outcome := by
  cases outcome with
  | ok value => exact yields_pure value
  | error error => exact yields_throw error

/-- What only reads the registry yields what all registries of the class agree on. -/
lemma yields_read {read : Registry → α} {value : α}
    (hread : ∀ registry, among registry → read registry = value) :
    Yields among (return read (← get)) (.ok value) := by
  intro registry hregistry
  refine ⟨.ok value, registry, ?_, hregistry, rfl⟩
  rw [← hread registry hregistry]
  rfl

/-- A step that succeeds hands its value on. -/
lemma Yields.bind {first : Session α} {value : α} {next : α → Session β}
    {post : Except Error β → Prop} (hfirst : Yields among first (.ok value))
    (hnext : Ensures among (next value) post) : Ensures among (first >>= next) post := by
  intro registry hregistry
  obtain ⟨-, middle, hrun, hmiddle, rfl⟩ := hfirst registry hregistry
  obtain ⟨outcome, after, hrest, hafter, hpost⟩ := hnext middle hmiddle
  refine ⟨outcome, after, ?_, hafter, hpost⟩
  show EStateM.bind first next registry = _
  rw [EStateM.bind, hrun]
  exact hrest

/-- A step that fails ends the computation. -/
lemma Yields.bind_error {first : Session α} {error : Error} {next : α → Session β}
    (hfirst : Yields among first (.error error)) :
    Yields among (first >>= next) (.error error) := by
  intro registry hregistry
  obtain ⟨-, middle, hrun, hmiddle, rfl⟩ := hfirst registry hregistry
  refine ⟨.error error, middle, ?_, hmiddle, rfl⟩
  show EStateM.bind first next registry = _
  rw [EStateM.bind, hrun]
  rfl

/-- One step after the other, each with its outcome. -/
lemma Ensures.bind {first : Session α} {next : α → Session β} {middle : Except Error α → Prop}
    {post : Except Error β → Prop} (hfirst : Ensures among first middle)
    (hok : ∀ value, middle (.ok value) → Ensures among (next value) post)
    (herror : ∀ error, middle (.error error) → post (.error error)) :
    Ensures among (first >>= next) post := by
  intro registry hregistry
  obtain ⟨outcome, between, hrun, hbetween, hmiddle⟩ := hfirst registry hregistry
  -- An error ends the computation, and is the outcome of the whole.
  cases outcome with
  | error error =>
    refine ⟨.error error, between, ?_, hbetween, herror error hmiddle⟩
    show EStateM.bind first next registry = _
    rw [EStateM.bind, hrun]
    rfl
  | ok value =>
    obtain ⟨outcome, after, hrest, hafter, hpost⟩ := hok value hmiddle between hbetween
    refine ⟨outcome, after, ?_, hafter, hpost⟩
    show EStateM.bind first next registry = _
    rw [EStateM.bind, hrun]
    exact hrest

/-- Two steps, each of which comes to what a plain function gives. -/
lemma Yields.seq {first : Session α} {expected : Except Error α} {next : α → Session β}
    {rest : α → Except Error β} (hfirst : Yields among first expected)
    (hnext : ∀ value, expected = .ok value → Yields among (next value) (rest value)) :
    Yields among (first >>= next) (expected >>= rest) := by
  cases expected with
  | ok value => exact hfirst.bind (hnext value rfl)
  | error error => exact hfirst.bind_error

/-- Mapping a computation maps its outcome. -/
lemma Yields.map {action : Session α} {expected : Except Error α} (f : α → β)
    (h : Yields among action expected) : Yields among (f <$> action) (f <$> expected) := by
  rw [map_eq_pure_bind, map_eq_pure_bind]
  exact h.seq fun value _ => yields_pure (f value)

/-- Two outcomes are alike: the same failure, or values that are related. -/
def Matches (R : β → α → Prop) : Except Error β → Except Error α → Prop
  | .ok expected, .ok value => R expected value
  | .error expected, .error error => error = expected
  | _, _ => False

/-- What a step succeeds with is all that the next one may count on. -/
lemma Succeeds.bind {first : Session α} {next : α → Session β} {middle : α → Prop}
    {post : Except Error β → Prop} (hfirst : Succeeds among first middle)
    (hnext : ∀ value, middle value → Ensures among (next value) post) :
    Ensures among (first >>= next) post := by
  refine Ensures.bind hfirst (fun value h => ?_) fun error h => ?_
  · obtain ⟨found, hsame, hfound⟩ := h
    exact hnext value (Except.ok.inj hsame ▸ hfound)
  · obtain ⟨value, h, -⟩ := h
    exact absurd h (by simp)

/-- A known outcome matches itself. -/
lemma Yields.matches {R : α → α → Prop} {action : Session α} {expected : Except Error α}
    (h : Yields among action expected) (hrefl : ∀ value, R value value) :
    Ensures among action (Matches R expected) := by
  refine Ensures.mono h fun outcome hsame => ?_
  subst hsame
  cases outcome with
  | ok value => exact hrefl value
  | error error => rfl

/-- Matching outcomes match when both values are mapped in step. -/
lemma Ensures.map_matches {γ δ : Type} {R : γ → α → Prop} {S : δ → β → Prop}
    {action : Session α} {expected : Except Error γ} {f : α → β} {g : γ → δ}
    (h : Ensures among action (Matches R expected))
    (hmap : ∀ item value, R item value → S (g item) (f value)) :
    Ensures among (f <$> action) (Matches S (g <$> expected)) := by
  rw [map_eq_pure_bind]
  cases expected with
  | ok item =>
    exact h.bind (fun value hvalue => (yields_pure _).ensures (hmap item value hvalue))
      fun _ h => h.elim
  | error error => exact h.bind (fun _ h => h.elim) fun _ hsame => hsame

/-- After a step with a known outcome only the rest has to match. -/
lemma Yields.bind_matches {γ : Type} {R : γ → β → Prop} {first : Session α}
    {expected : Except Error α} {next : α → Session β} {rest : α → Except Error γ}
    (hfirst : Yields among first expected)
    (hnext : ∀ value, expected = .ok value → Ensures among (next value) (Matches R (rest value))) :
    Ensures among (first >>= next) (Matches R (expected >>= rest)) := by
  cases expected with
  | ok value => exact hfirst.bind (hnext value rfl)
  | error error => exact hfirst.bind_error.ensures rfl

/-- A list is mapped to what its items are mapped to, or to the first failure. -/
lemma yields_mapM {step : α → Session β} {f : α → Except Error β} {items : List α}
    (hstep : ∀ item ∈ items, Yields among (step item) (f item)) :
    Yields among (items.mapM step) (items.mapM f) := by
  induction items with
  | nil => exact yields_pure []
  | cons item items ih =>
    rw [List.mapM_cons, List.mapM_cons]
    have hothers := ih fun other hother => hstep other (List.mem_cons_of_mem item hother)
    refine (hstep item List.mem_cons_self).seq fun value _ => ?_
    exact hothers.seq fun values _ => yields_pure _

/-- A step that may fail gives its value, or nothing. -/
lemma Ensures.attempt {action : Session α} {post : Except Error α → Prop}
    (h : Ensures among action post) :
    Ensures among (CliMetadata.attempt action) fun outcome =>
      ∃ inner, post inner ∧ outcome = .ok inner.toOption := by
  intro registry hregistry
  obtain ⟨inner, after, hrun, hafter, hpost⟩ := h registry hregistry
  refine ⟨.ok inner.toOption, after, ?_, hafter, inner, hpost, rfl⟩
  have hmap : (some <$> action) registry = result (some <$> inner) after := by
    show EStateM.map some action registry = _
    rw [EStateM.map, hrun]
    cases inner <;> rfl
  show EStateM.tryCatch (some <$> action) (fun _ => pure none) registry = _
  rw [EStateM.tryCatch, hmap]
  cases inner <;> rfl

/-- An attempt yields the value, if there is one. -/
lemma Yields.attempt {action : Session α} {expected : Except Error α}
    (h : Yields among action expected) :
    Yields among (CliMetadata.attempt action) (.ok expected.toOption) := by
  refine Ensures.mono (Ensures.attempt h) fun outcome hinner => ?_
  obtain ⟨inner, rfl, houtcome⟩ := hinner
  exact houtcome

/-- A list is filtered as its items are. -/
lemma yields_filterMapM {step : α → Session (Option β)} {f : α → Option β} {items : List α}
    (hstep : ∀ item ∈ items, Yields among (step item) (.ok (f item))) :
    Yields among (items.filterMapM step) (.ok (items.filterMap f)) := by
  -- The loop carries what was found so far, in reverse.
  have hloop (found : List β) : Yields among (List.filterMapM.loop step items found)
      (.ok (found.reverse ++ items.filterMap f)) := by
    induction items generalizing found with
    | nil =>
      rw [List.filterMapM.loop, List.filterMap_nil, List.append_nil]
      exact yields_pure _
    | cons item items ih =>
      have hothers := ih fun other hother => hstep other (List.mem_cons_of_mem item hother)
      rw [List.filterMapM.loop]
      refine (hstep item List.mem_cons_self).bind ?_
      cases hitem : f item with
      | none =>
        rw [List.filterMap_cons_none hitem]
        exact hothers found
      | some value =>
        rw [List.filterMap_cons_some hitem]
        have hfound := hothers (value :: found)
        rw [List.reverse_cons, List.append_assoc] at hfound
        exact hfound
  exact hloop []

/-- A list is filtered by the test that each step comes to. -/
lemma yields_filterM {step : α → Session Bool} {f : α → Bool} {items : List α}
    (hstep : ∀ item ∈ items, Yields among (step item) (.ok (f item))) :
    Yields among (items.filterM step) (.ok (items.filter f)) := by
  have hloop (found : List α) : Yields among (List.filterAuxM step items found)
      (.ok ((items.filter f).reverse ++ found)) := by
    induction items generalizing found with
    | nil => exact yields_pure _
    | cons item items ih =>
      have hothers := ih fun other hother => hstep other (List.mem_cons_of_mem item hother)
      rw [List.filterAuxM]
      refine (hstep item List.mem_cons_self).bind ?_
      cases hitem : f item with
      | false =>
        rw [List.filter_cons_of_neg (by simp [hitem])]
        exact hothers found
      | true =>
        rw [List.filter_cons_of_pos hitem, List.reverse_cons, List.append_assoc]
        exact hothers (item :: found)
  refine (hloop []).bind ?_
  rw [List.append_nil, List.reverse_reverse]
  exact yields_pure _

/-! ## Values -/

/-- From every registry of a class the computation ends in one of the class, and what it gives, if it
succeeds, is of the given sort. -/
def Gives (among : Registry → Prop) (action : Session α) (post : α → Prop) : Prop :=
  Ensures among action fun outcome => ∀ value, outcome = .ok value → post value

section

variable {action : Session α} {post : α → Prop}

lemma Gives.mono {weaker : α → Prop} (h : Gives among action post)
    (himp : ∀ value, post value → weaker value) : Gives among action weaker :=
  Ensures.mono h fun _ hpost value hvalue => himp value (hpost value hvalue)

lemma Yields.gives {value : α} (h : Yields among action (.ok value)) (hpost : post value) :
    Gives among action post :=
  h.ensures fun _ hsame => Except.ok.inj hsame ▸ hpost

lemma gives_pure {value : α} (h : post value) : Gives among (pure value) post :=
  (yields_pure value).gives h

/-- What fails gives no value, so nothing has to be known of it. -/
lemma gives_throw (error : Error) : Gives among (throw error) post :=
  (yields_throw error).ensures fun _ h => absurd h (by simp)

lemma gives_ofExcept {outcome : Except Error α} (h : ∀ value, outcome = .ok value → post value) :
    Gives among (MonadExcept.ofExcept outcome) post :=
  (yields_ofExcept outcome).ensures h

/-- What is read of a registry is one of the class. -/
lemma gives_get : Gives among get among :=
  fun registry hregistry =>
    ⟨.ok registry, registry, rfl, hregistry, fun _ h => Except.ok.inj h ▸ hregistry⟩

lemma gives_read (read : Registry → α) : Gives among (return read (← get)) fun _ => True :=
  fun registry hregistry => ⟨.ok (read registry), registry, rfl, hregistry, fun _ _ => trivial⟩

/-- What changes the registry stays in a class that the change does not leave. -/
lemma gives_modifyGet {change : Registry → α × Registry}
    (hchange : ∀ registry, among registry →
      post (change registry).1 ∧ among (change registry).2) :
    Gives among (modifyGet change) post := by
  intro registry hregistry
  obtain ⟨hpost, hafter⟩ := hchange registry hregistry
  exact ⟨.ok (change registry).1, (change registry).2, rfl, hafter,
    fun _ h => Except.ok.inj h ▸ hpost⟩

/-- A change that stays in the class may be made at any time. -/
lemma gives_modify {change : Registry → Registry}
    (hchange : ∀ registry, among registry → among (change registry)) :
    Gives among (modify change) fun _ => True :=
  gives_modifyGet fun registry hregistry => ⟨trivial, hchange registry hregistry⟩

lemma Gives.bind {next : α → Session β} {rest : β → Prop} (h : Gives among action post)
    (hnext : ∀ value, post value → Gives among (next value) rest) :
    Gives among (action >>= next) rest :=
  Ensures.bind h (fun value hvalue => hnext value (hvalue value rfl))
    fun _ _ _ h => absurd h (by simp)

/-- A step that may give nothing. -/
lemma Gives.bind_option {first : Session (Option α)} {next : Option α → Session β}
    {rest : β → Prop} (h : Gives among first fun _ => True) (hnone : Gives among (next none) rest)
    (hsome : ∀ value, Gives among (next (some value)) rest) : Gives among (first >>= next) rest :=
  h.bind fun found? _ => found?.casesOn hnone hsome

lemma Gives.map {f : α → β} {rest : β → Prop} (h : Gives among action post)
    (hmap : ∀ value, post value → rest (f value)) : Gives among (f <$> action) rest := by
  rw [map_eq_pure_bind]
  exact h.bind fun value hvalue => gives_pure (hmap value hvalue)

/-- What an attempt gives, the computation gives. -/
lemma Gives.attempt (h : Gives among action post) :
    Gives among (CliMetadata.attempt action) fun found? => ∀ value, found? = some value → post value := by
  refine Ensures.mono (Ensures.attempt h) fun outcome houtcome found? hfound value hvalue => ?_
  obtain ⟨inner, hinner, rfl⟩ := houtcome
  obtain rfl := Except.ok.inj hfound
  exact hinner value (toOption_eq_some.mp hvalue)

/-- Each item of a mapped list is of the sort that its step gives. -/
lemma gives_mapM {step : β → Session α} {items : List β}
    (hstep : ∀ item ∈ items, Gives among (step item) post) :
    Gives among (items.mapM step) fun values => ∀ value ∈ values, post value := by
  induction items with
  | nil => exact gives_pure fun _ h => absurd h (by simp)
  | cons item items ih =>
    rw [List.mapM_cons]
    refine (hstep item List.mem_cons_self).bind fun value hvalue => ?_
    refine (ih fun other hother => hstep other (List.mem_cons_of_mem item hother)).bind ?_
    exact fun values hvalues => gives_pure (List.forall_mem_cons.mpr ⟨hvalue, hvalues⟩)

lemma gives_filterMapM {step : β → Session (Option α)} {items : List β}
    (hstep : ∀ item ∈ items, Gives among (step item) fun found? =>
      ∀ value, found? = some value → post value) :
    Gives among (items.filterMapM step) fun values => ∀ value ∈ values, post value := by
  -- What was found so far is of the right sort, which is all that the loop has to carry.
  have hloop (found : List α) (hfound : ∀ value ∈ found, post value) :
      Gives among (List.filterMapM.loop step items found) fun values =>
        ∀ value ∈ values, post value := by
    induction items generalizing found with
    | nil => exact gives_pure fun value hvalue => hfound value (List.mem_reverse.mp hvalue)
    | cons item items ih =>
      have hothers := ih fun other hother => hstep other (List.mem_cons_of_mem item hother)
      rw [List.filterMapM.loop]
      refine (hstep item List.mem_cons_self).bind fun found? hitem => ?_
      cases found? with
      | none => exact hothers found hfound
      | some value =>
        exact hothers _ (List.forall_mem_cons.mpr ⟨hitem value rfl, hfound⟩)
  exact hloop [] fun _ h => absurd h (by simp)

end

end Session

/-! ## Registries that show the same modules -/

/-- All registries of a class show the modules of a view, and asking their resolvers leads from one
of them to another. -/
structure View.Describes (view : View) (among : Registry → Prop) : Prop where
  held : ∀ registry, among registry → ∀ owner, registry.held? owner = view.held? owner
  resident : ∀ registry, among registry → ∀ owner, registry.resident? owner = view.resident? owner
  searchOrder : ∀ registry, among registry → registry.searchOrder = view.searchOrder
  resolvers : ∀ registry, among registry →
    (registry.resolvers.filter (·.isAsked)).map (·.number) = view.resolvers
  supply : ∀ resolver ∈ view.resolvers, ∀ assembly,
    Session.Yields among (Session.supply resolver assembly) (.ok (view.supply resolver assembly))

namespace Session

section

variable {view : View} {among : Registry → Prop} (hview : view.Describes among)
include hview

lemma yields_resident (owner : ModuleId) :
    Yields among (resident? owner) (.ok (view.resident? owner)) :=
  yields_read fun registry hregistry => hview.resident registry hregistry owner

lemma yields_held (owner : ModuleId) : Yields among (held? owner) (.ok (view.held? owner)) :=
  yields_read fun registry hregistry => hview.held registry hregistry owner

lemma yields_searchOrder : Yields among searchOrder (.ok view.searchOrder) :=
  yields_read hview.searchOrder

lemma yields_resolvers : Yields among MonadModules.resolvers (.ok view.resolvers) :=
  yields_read hview.resolvers

/-! ### Following references -/

/-- Whoever is asked for an assembly gives what the view says. -/
lemma yields_askResolvers (assembly fullName : String) {resolvers : List Nat}
    (hasked : ∀ resolver ∈ resolvers, resolver ∈ view.resolvers) :
    Yields among (askResolvers assembly fullName resolvers)
      (.ok (view.askResolvers assembly fullName resolvers)) := by
  induction resolvers with
  | nil => exact yields_pure none
  | cons resolver resolvers ih =>
    rw [askResolvers, View.askResolvers_cons]
    refine (hview.supply resolver (hasked resolver List.mem_cons_self) assembly).bind ?_
    cases (view.supply resolver assembly).bind (·.find? fullName) with
    | some found => exact yields_pure (some found)
    | none => exact ih fun other hother => hasked other (List.mem_cons_of_mem resolver hother)

/-- A name is bound as the view binds it. -/
lemma yields_bindNamed (assembly fullName : String) :
    Yields among (bindNamed assembly fullName) (.ok (view.bindNamed assembly fullName)) := by
  rw [bindNamed, View.bindNamed_eq]
  refine (yields_searchOrder hview).bind ?_
  cases findAmong? view.searchOrder assembly fullName with
  | some found => exact yields_pure found
  | none =>
    refine (yields_resolvers hview).bind ?_
    exact (yields_askResolvers hview assembly fullName fun _ h => h).bind (yields_pure _)

/-- A type inside another one is found as the view finds it. -/
lemma yields_nestedIn (outer : TypeHandle) (name : String) :
    Yields among (nestedIn outer name) (.ok (view.nestedIn outer name)) := by
  cases outer with
  | definition owner row =>
    rw [nestedIn, View.nestedIn_definition]
    refine (yields_resident hview owner).bind ?_
    cases view.resident? owner with
    | none => exact yields_pure _
    | some module =>
      simp only
      cases module.findNested? row name <;> exact yields_pure _
  | _ => exact yields_pure _

/-- A reference to a type is followed as the view follows it. -/
lemma yields_resolveTypeRefWithin (home : Resident) (levels : Nat) (row : UInt32) :
    Yields among (resolveTypeRefWithin home levels row)
      (.ok (view.resolveTypeRefWithin home levels row)) := by
  -- Both walks have the same limit, and at each step they look at the same row.
  induction levels generalizing row with
  | zero => exact yields_pure none
  | succ levels ih =>
    rw [resolveTypeRefWithin, View.resolveTypeRefWithin_succ]
    cases home.module.typeRef? row with
    | none => exact yields_pure none
    | some reference =>
      by_cases hnested : reference.resolutionScope.isTable .typeRef
      · simp only [hnested, if_true, Option.bind_some]
        refine (ih reference.resolutionScope.row).bind ?_
        cases view.resolveTypeRefWithin home levels reference.resolutionScope.row with
        | none => exact yields_pure none
        | some outer => exact (yields_nestedIn hview outer reference.name).map some
      · by_cases hassembly : reference.resolutionScope.isTable .assemblyRef
        · simp only [hnested, hassembly, if_true, Option.bind_some]
          cases rowAt? home.module.tables.assemblyRefs reference.resolutionScope.row with
          | none => exact yields_pure none
          | some assembly => exact (yields_bindNamed hview assembly.name _).map some
        · simp only [hnested, hassembly, Option.bind_some]
          cases home.module.findType? reference.space reference.name <;> exact yields_pure _

lemma yields_resolveTypeRef (home : Resident) (row : UInt32) :
    Yields among (resolveTypeRef home row) (.ok (view.resolveTypeRef home row)) :=
  yields_resolveTypeRefWithin hview home _ row

/-! ### Canonical handles -/

/-- The type around a type is found as the view finds it. -/
lemma yields_declaringLevel (owner : ModuleId) (row number : UInt32) :
    Yields among (declaringLevel owner row number)
      (.ok (view.declaringLevel owner row number)) := by
  rw [declaringLevel, View.declaringLevel_eq]
  refine (yields_resident hview owner).bind ?_
  cases view.resident? owner <;> exact yields_pure _

/-- The generic parameters of a type are those that the view finds. -/
lemma yields_ownParameters (home : Resident) (row : UInt32) :
    Yields among (ownParameters home row) (.ok (view.ownParameters home row)) := by
  rw [ownParameters, View.ownParameters_eq, ← mapM_ok]
  refine yields_mapM fun number _ => ?_
  exact (yields_declaringLevel hview home.id row (UInt32.ofNat number)).bind (yields_pure _)

/-- A type is constructed as the view constructs it. -/
lemma yields_construct (type : TypeHandle) (arguments : List TypeHandle) :
    Yields among (construct type arguments) (.ok (view.construct type arguments)) := by
  cases type with
  | definition owner row =>
    rw [construct, View.construct_definition]
    refine (yields_resident hview owner).bind ?_
    cases view.resident? owner with
    | none => exact yields_pure _
    | some module =>
      refine (yields_ownParameters hview ⟨owner, module⟩ row).bind ?_
      -- A construction over the own parameters is the definition, for which the module has to be
      -- there.
      by_cases hown : arguments = view.ownParameters ⟨owner, module⟩ row
      · simp only [if_pos hown]
        exact yields_pure _
      · simp only [if_neg hown]
        exact yields_pure _
  | _ => exact yields_pure _

end

variable {view : View} {among : Registry → Prop}

mutual

/-- A handle has the canonical handle that the view gives it. -/
lemma yields_canonicalType (hview : view.Describes among) : ∀ handle : TypeHandle,
    Yields among (canonicalType handle) (.ok (view.canonical handle))
  | .reference owner row => by
    rw [canonicalType, View.canonical_reference]
    refine (yields_resident hview owner).bind ?_
    cases view.resident? owner with
    | none => exact yields_pure _
    | some module =>
      exact (yields_resolveTypeRef hview ⟨owner, module⟩ row).bind (yields_pure _)
  | .named assembly fullName => by
    rw [canonicalType, View.canonical_named]
    exact yields_bindNamed hview assembly fullName
  | .inst type arguments => by
    rw [canonicalType, View.canonical_inst]
    refine (yields_canonicalType hview type).bind ?_
    exact (yields_canonicalTypes hview arguments).bind (yields_construct hview _ _)
  | .parameter (.type owner row) number => by
    rw [canonicalType, View.canonical_typeParameter]
    exact (yields_declaringLevel hview owner row number).bind (yields_pure _)
  | .array element rank => by
    rw [canonicalType, View.canonical_array]
    exact (yields_canonicalType hview element).bind (yields_pure _)
  | .pointer element => by
    rw [canonicalType, View.canonical_pointer]
    exact (yields_canonicalType hview element).bind (yields_pure _)
  | .byRef element => by
    rw [canonicalType, View.canonical_byRef]
    exact (yields_canonicalType hview element).bind (yields_pure _)
  | .definition _ _ => yields_pure _
  | .parameter (.method _ _) _ => yields_pure _
  | .functionPointer => yields_pure _
  | .typedReference => yields_pure _

lemma yields_canonicalTypes (hview : view.Describes among) : ∀ handles : List TypeHandle,
    Yields among (canonicalTypes handles) (.ok (view.canonicals handles))
  | [] => yields_pure []
  | handle :: handles => by
    rw [canonicalTypes, View.canonicals_cons]
    refine (yields_canonicalType hview handle).bind ?_
    exact (yields_canonicalTypes hview handles).bind (yields_pure _)

end

end Session

end CliMetadata
