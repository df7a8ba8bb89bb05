import CliMetadata.Proofs.TypeSystem.KeptRelations
import CliMetadata.Reference.Resolve

/-!
# Names and members with objects that are kept

Which type or member has a name, and which members a type has, comes to the same with and without what
is kept. Members bear no numbers, so those that are found are equal.
-/

namespace CliMetadata.Session.SameAfresh

variable {α β γ δ : Type} {view : View} {among : Registry → Prop}
  {current : TypeHandle → Nat → Prop} [hall : view.DescribesAll among current]
  {known info : TypeInfo}

/-! ## Searches -/

section

omit hall

variable {P : γ → α → Prop} {R : δ → β → Prop} {items : List α} {knowns : List γ}

/-- The first hit is alike if each attempt is. -/
lemma firstFound (h : List.Forall₂ P knowns items) {find : α → Session (Option β)}
    {find' : γ → Afresh (Option δ)}
    (hfind : ∀ known item, P known item →
      SameAfresh among view (Option.Rel R) (find item) (find' known)) :
    SameAfresh among view (Option.Rel R) (MethodInfo.firstFound find items)
      (MethodInfo.firstFound find' knowns) := by
  induction h with
  | nil => exact .pure .none
  | cons hhead _ ih =>
    unfold MethodInfo.firstFound
    exact (hfind _ _ hhead).bind_option ih fun _ _ _ hfound => .pure (.some hfound)

omit hall in
/-- Options are related by equality if and only if they are equal. -/
lemma rel_eq {known? value? : Option α} : Option.Rel Eq known? value? ↔ known? = value? := by
  constructor
  · rintro (h | _)
    · exact congrArg some h
    · rfl
  · rintro rfl
    cases known? with
    | none => exact .none
    | some known => exact .some rfl

/-- The first hit is the same if each attempt is. -/
lemma firstFound_eq (h : List.Forall₂ P knowns items) {find : α → Session (Option β)}
    {find' : γ → Afresh (Option β)}
    (hfind : ∀ known item, P known item → SameAfresh among view Eq (find item) (find' known)) :
    SameAfresh among view Eq (MethodInfo.firstFound find items)
      (MethodInfo.firstFound find' knowns) :=
  (firstFound h fun known item hitem =>
    (hfind known item hitem).mono fun _ _ _ hsame => rel_eq.mpr hsame).mono
    fun _ _ _ hsame => rel_eq.mp hsame

instance (test : α → Session Bool) (test' : α → Afresh Bool) (items : List α)
    [htest : ∀ item, SameAfresh among view Eq (test item) (test' item)] :
    SameAfresh among view Eq (MethodInfo.firstWith test items)
      (MethodInfo.firstWith test' items) :=
  firstFound_eq (forall₂_refl items) fun _ _ h => h ▸ inferInstance

end

/-! ## Types by name -/

/-- **Names.** The first type with a full name. -/
theorem findTypeNamed (fullName : String) :
    SameAfresh among view (Option.Rel (view.Loads current)) (findTypeNamed? fullName)
      (findTypeNamed? fullName) := by
  unfold findTypeNamed?
  split
  · exact .pure .none
  · refine bind_eq inferInstance fun homes => firstFound (forall₂_refl homes) fun home _ h => ?_
    subst h
    cases home.find? fullName with
    | none => exact .pure .none
    | some handle => exact findType handle

/-- The type at a path does not depend on what the registry holds. -/
lemma findTypeAt (path : List String) :
    SameAfresh among view (Option.Rel (view.Loads current)) (findTypeAt? path) (findTypeAt? path) := by
  refine bind_eq inferInstance fun homes => firstFound (forall₂_refl homes) fun home _ h => ?_
  subst h
  refine firstFound (forall₂_refl _) fun split _ h => ?_
  subst h
  cases home.module.findPath? path split with
  | none => exact .pure .none
  | some row => exact findType (home.definition row)

/-! ## Members of types -/

/-- The handles of members do not depend on what the registry holds. -/
lemma memberHandles (hlike : known.IsLike current info) (table : TableId) :
    SameAfresh among view Eq (info.memberHandles table) (known.memberHandles table) := by
  have hmodule : SameAfresh among view _ _ _ := moduleOf hlike
  obtain ⟨stamp, -, rfl⟩ := hlike
  unfold TypeInfo.memberHandles
  show SameAfresh among view _ (if !known.isDefined then _ else _) (if !known.isDefined then _ else _)
  split
  · infer_instance
  · exact hmodule.bind_eq_option inferInstance fun home => inferInstance

lemma allMethods (hlike : known.IsLike current info) :
    SameAfresh among view Eq info.allMethods known.allMethods :=
  (memberHandles hlike .methodDef).bind_eq fun _ => inferInstance

lemma properties (hlike : known.IsLike current info) :
    SameAfresh among view Eq info.properties known.properties :=
  (memberHandles hlike .property).bind_eq fun _ => inferInstance

lemma fields (hlike : known.IsLike current info) :
    SameAfresh among view Eq info.fields known.fields :=
  (memberHandles hlike .field).bind_eq fun _ => inferInstance

lemma events (hlike : known.IsLike current info) :
    SameAfresh among view Eq info.events known.events :=
  (memberHandles hlike .event).bind_eq fun _ => inferInstance

/-! ## Names of types -/

section

include hall

instance (owner : ModuleId) (row : UInt32) (arguments : Module → List TypeName) :
    SameAfresh among view Eq (definitionName? owner row arguments)
      (definitionName? owner row arguments) :=
  bind_eq_option inferInstance inferInstance fun _ => inferInstance

omit hall in
mutual

/-- A type is named alike if references are. -/
lemma typeNameBy [hall : view.DescribesAll among current]
    {ofReference : TypeHandle → Session (Option TypeName)}
    {ofReference' : TypeHandle → Afresh (Option TypeName)}
    (href : ∀ handle, SameAfresh among view Eq (ofReference handle) (ofReference' handle)) :
    ∀ handle : TypeHandle, SameAfresh among view Eq (CliMetadata.typeNameBy ofReference handle)
      (CliMetadata.typeNameBy ofReference' handle)
  | .definition owner row => by
    unfold CliMetadata.typeNameBy openName?
    infer_instance
  | .inst type arguments => by
    cases type with
    | definition owner row =>
      unfold CliMetadata.typeNameBy
      refine bind_eq inferInstance fun module? => ?_
      split
      · infer_instance
      · exact (typeNamesBy href arguments).bind_eq_option inferInstance fun _ => inferInstance
    | _ => exact .pure rfl
  | .named _ _ => .pure rfl
  | .reference owner row => href (.reference owner row)
  | .parameter (.type _ _) _ => .pure rfl
  | .parameter (.method _ _) _ => .pure rfl
  | .array element _ => (typeNameBy href element).bind_eq fun _ => inferInstance
  | .pointer element => (typeNameBy href element).bind_eq fun _ => inferInstance
  | .byRef element => (typeNameBy href element).bind_eq fun _ => inferInstance
  | .functionPointer => .pure rfl
  | .typedReference => .pure rfl

/-- Types are named alike if references are. -/
lemma typeNamesBy [hall : view.DescribesAll among current]
    {ofReference : TypeHandle → Session (Option TypeName)}
    {ofReference' : TypeHandle → Afresh (Option TypeName)}
    (href : ∀ handle, SameAfresh among view Eq (ofReference handle) (ofReference' handle)) :
    ∀ handles : List TypeHandle, SameAfresh among view Eq
      (CliMetadata.typeNamesBy ofReference handles) (CliMetadata.typeNamesBy ofReference' handles)
  | [] => .pure rfl
  | handle :: handles =>
    (typeNameBy href handle).bind_eq_option inferInstance fun _ =>
      (typeNamesBy href handles).bind_eq_option inferInstance fun _ => inferInstance

end

instance (handle : TypeHandle) : SameAfresh among view Eq (boundName? handle) (boundName? handle) :=
  bind_eq inferInstance fun found => typeNameBy (fun _ => .pure rfl) found

instance (handle : TypeHandle) : SameAfresh among view Eq (typeName? handle) (typeName? handle) :=
  typeNameBy (fun _ => inferInstance) handle

instance (handles : List TypeHandle) :
    SameAfresh among view Eq (typeNames? handles) (typeNames? handles) :=
  typeNamesBy (fun _ => inferInstance) handles

end

/-! ## References -/

omit hall in
/-- The same candidate is selected if signatures are read alike. -/
lemma select (parameters? : Option (List TypeName))
    {signature : α → Session (Option (List TypeName))}
    {signature' : α → Afresh (Option (List TypeName))} (candidates : List α)
    [hsignature : ∀ candidate,
      SameAfresh among view Eq (signature candidate) (signature' candidate)] :
    SameAfresh among view Eq (select? parameters? signature candidates)
      (select? parameters? signature' candidates) := by
  cases parameters? <;> unfold select? <;> infer_instance

include hall in
/-- Whether a method returns what a reference says does not depend on what is held. -/
lemma returns (reference : CodeReference) (method : MethodInfo) :
    SameAfresh among view Eq
      (do
        match reference.returnType with
        | some expected =>
          match ← typeName? method.returnType with
          | some returned => return returned == expected
          | none => return false
        | none => return true)
      (do
        match reference.returnType with
        | some expected =>
          match ← typeName? method.returnType with
          | some returned => return returned == expected
          | none => return false
        | none => return true) := by
  cases reference.returnType with
  | none => infer_instance
  | some expected => exact bind_eq_option inferInstance inferInstance fun _ => inferInstance

/-- The method that a reference means does not depend on what is held. -/
lemma referredMethod (reference : CodeReference) (hlike : known.IsLike current info)
    (name : String) :
    SameAfresh among view Eq (reference.method? info name) (reference.method? known name) := by
  refine (allMethods hlike).bind_eq fun methods => bind_eq ?_ fun candidates => select _ candidates
  refine filterM_eq methods fun method => ?_
  split
  · infer_instance
  · cases reference.arity with
    | none => exact returns reference method
    | some arity =>
      simp only
      split
      · infer_instance
      · exact returns reference method

lemma referredProperty (reference : CodeReference) (hlike : known.IsLike current info)
    (name : String) :
    SameAfresh among view Eq (reference.property? info name) (reference.property? known name) :=
  (properties hlike).bind_eq fun _ => select _ _

omit hall in
/-- Members without numbers are the same with and without what is kept. -/
lemma rel_map {f : α → Member} (hf : ∀ value, view.LoadsMember current (f value) (f value))
    (value? : Option α) :
    Option.Rel (view.LoadsMember current) (value?.map f) (value?.map f) := by
  cases value? with
  | none => exact .none
  | some value => exact .some (hf value)

/-- A reference resolves alike, whatever the registry holds. -/
lemma resolve (reference : CodeReference) :
    SameAfresh among view (Option.Rel (view.LoadsMember current)) reference.resolve?
      reference.resolve? := by
  unfold CodeReference.resolve?
  split
  · exact .pure .none
  · refine (findTypeAt reference.path).bind fun known? info? _ hloads => .pure ?_
    cases hloads with
    | none => exact .none
    | some hloads => exact .some hloads
  · refine (findTypeAt reference.path).bind_option (.pure .none) fun known info _ hloads => ?_
    simp only
    -- A path alone stands for the type, and otherwise the member is searched in it.
    cases reference.member with
    | none => exact .pure .none
    | some name =>
      simp only
      split
      · have hmethod : SameAfresh among view _ _ _ := referredMethod reference hloads.2 name
        exact hmethod.bind_eq fun _ => .pure (rel_map (fun _ => by rfl) _)
      · have hproperty : SameAfresh among view _ _ _ := referredProperty reference hloads.2 name
        exact hproperty.bind_eq fun _ => .pure (rel_map (fun _ => by rfl) _)
      · exact (fields hloads.2).bind_eq fun _ => .pure (rel_map (fun _ => by rfl) _)
      · exact (events hloads.2).bind_eq fun _ => .pure (rel_map (fun _ => by rfl) _)

/-- **References.** The type or member that the text of a reference names. -/
theorem resolveMember (text : String) :
    SameAfresh among view (Option.Rel (view.LoadsMember current)) (resolveMember? text)
      (resolveMember? text) := by
  unfold resolveMember?
  cases CodeReference.parse? text with
  | none => exact .pure .none
  | some reference => exact resolve reference

end CliMetadata.Session.SameAfresh
