import CliMetadata.Proofs.TypeSystem.ConstructedSupertypes
import CliMetadata.Proofs.TypeSystem.FreshMembers

/-!
# What members of constructions take the place of

A method of a construction takes the place of what the method of the generic type does, with the arguments
put in, since the link is found on the generic type and carried over; and so do properties and events, by
way of their methods. Constructors are compared on the construction itself, where types may have become the
same that differ on the generic type.
-/

namespace CliMetadata

/-- What the member of a handle takes the place of. -/
def inherited {m : Type → Type} [Monad m] [MonadObjects m] [MonadExceptOf Error m] (handle : Handle) :
    m (Option Member) := do
  (← getMember handle).inherited?

/-- Related options stay related under a weaker relation. -/
lemma rel_imp {α β : Type} {R S : α → β → Prop} {known? : Option α} {found? : Option β}
    (h : Option.Rel R known? found?) (himp : ∀ known found, R known found → S known found) :
    Option.Rel S known? found? := by
  cases h with
  | none => exact .none
  | some h => exact .some (himp _ _ h)

/-- Related options stay related when both are mapped. -/
lemma rel_map_map {α β γ δ : Type} {R : α → β → Prop} {S : γ → δ → Prop} {known? : Option α}
    {found? : Option β} {f : α → γ} {g : β → δ} (h : Option.Rel R known? found?)
    (himp : ∀ known found, R known found → S (f known) (g found)) :
    Option.Rel S (known?.map f) (found?.map g) := by
  cases h with
  | none => exact .none
  | some h => exact .some (himp _ _ h)

/-- Related options are related lists. -/
lemma forall₂_toList {α β : Type} {R : α → β → Prop} {known? : Option α} {found? : Option β}
    (h : Option.Rel R known? found?) : List.Forall₂ R known?.toList found?.toList := by
  cases h with
  | none => exact .nil
  | some h => exact .cons h .nil

/-! ## Computations that give something -/

namespace Afresh

variable {α β γ δ : Type} {view : View}

/-- A computation has a result, of which something holds. -/
def Gives (view : View) (P : α → Prop) (action : Afresh α) : Prop :=
  ∃ value, action.run view = .ok value ∧ P value

/-- A computation has a result, and something holds of what it finds. -/
def Finds (view : View) (P : α → Prop) (action : Afresh (Option α)) : Prop :=
  Gives view (fun found? => ∀ found ∈ found?, P found) action

/-- Two computations have results that stand to each other in a relation. -/
def Beside (view : View) (R : α → β → Prop) (action : Afresh α) (other : Afresh β) : Prop :=
  ∃ value second, action.run view = .ok value ∧ other.run view = .ok second ∧ R value second

lemma gives_pure {P : α → Prop} {value : α} (h : P value) :
    Gives view P (pure value : Afresh α) := ⟨value, rfl, h⟩

lemma finds_none {P : α → Prop} : Finds view P (pure none) := gives_pure fun _ h => nomatch h

/-- What a step gives is all that the next one may count on. -/
lemma Gives.bind {P : α → Prop} {Q : β → Prop} {first : Afresh α} {next : α → Afresh β}
    (h : Gives view P first) (hnext : ∀ value, P value → Gives view Q (next value)) :
    Gives view Q (first >>= next) := by
  obtain ⟨value, hvalue, hP⟩ := h
  obtain ⟨result, hresult, hQ⟩ := hnext value hP
  exact ⟨result, by rw [ReaderT.run_bind, hvalue, ok_bind, hresult], hQ⟩

/-- After a search the next step has to deal with what was found, and with nothing. -/
lemma Finds.bind {P : α → Prop} {Q : β → Prop} {first : Afresh (Option α)}
    {next : Option α → Afresh β} (h : Finds view P first) (hnone : Gives view Q (next none))
    (hsome : ∀ value, P value → Gives view Q (next (some value))) : Gives view Q (first >>= next) := by
  refine Gives.bind h fun value? hvalue => ?_
  cases value? with
  | none => exact hnone
  | some value => exact hsome value (hvalue value rfl)

/-- What an attempt finds, the computation gives. -/
lemma finds_attempt {P : α → Prop} {action : Afresh α}
    (h : ∀ value, action.run view = .ok value → P value) : Finds view P (attempt action) :=
  ⟨_, run_attempt view action, fun value hvalue => h value (toOption_eq_some.mp hvalue)⟩

/-- The first find among some items is a find of one of them. -/
lemma finds_firstFound {P : β → Prop} {find : α → Afresh (Option β)} {items : List α}
    (hfind : ∀ item ∈ items, Finds view P (find item)) :
    Finds view P (MethodInfo.firstFound find items) := by
  induction items with
  | nil => exact finds_none
  | cons item items ih =>
    have hothers := ih fun other hother => hfind other (List.mem_cons_of_mem item hother)
    refine (hfind item List.mem_cons_self).bind hothers fun found hfound => ?_
    exact gives_pure fun other hother => Option.some.inj hother ▸ hfound

/-- The first item that passes a test is one of the items. -/
lemma finds_firstWith {P : α → Prop} {test : α → Afresh Bool} {items : List α}
    (hitems : ∀ item ∈ items, P item) (htest : ∀ item, Gives view (fun _ => True) (test item)) :
    Finds view P (MethodInfo.firstWith test items) := by
  refine finds_firstFound fun item hitem => (htest item).bind fun holds _ => gives_pure fun found h => ?_
  cases holds with
  | false => cases h
  | true => exact Option.some.inj h ▸ hitems item hitem

lemma beside_pure {R : α → β → Prop} {value : α} {second : β} (h : R value second) :
    Beside view R (pure value) (pure second) := ⟨value, second, rfl, rfl, h⟩

/-- Steps that go side by side lead to steps that do. -/
lemma Beside.bind {R : α → β → Prop} {S : γ → δ → Prop} {action : Afresh α} {other : Afresh β}
    {next : α → Afresh γ} {then' : β → Afresh δ} (h : Beside view R action other)
    (hnext : ∀ value second, R value second → Beside view S (next value) (then' second)) :
    Beside view S (action >>= next) (other >>= then') := by
  obtain ⟨value, second, hvalue, hsecond, hR⟩ := h
  obtain ⟨result, last, hresult, hlast, hS⟩ := hnext value second hR
  refine ⟨result, last, ?_, ?_, hS⟩
  · rw [ReaderT.run_bind, hvalue, ok_bind, hresult]
  · rw [ReaderT.run_bind, hsecond, ok_bind, hlast]

/-- Searches that go side by side both find nothing or both find something. -/
lemma Beside.bind_option {R : α → β → Prop} {S : γ → δ → Prop} {action : Afresh (Option α)}
    {other : Afresh (Option β)} {next : Option α → Afresh γ} {then' : Option β → Afresh δ}
    (h : Beside view (Option.Rel R) action other) (hnone : Beside view S (next none) (then' none))
    (hsome : ∀ value second, R value second → Beside view S (next (some value)) (then' (some second))) :
    Beside view S (action >>= next) (other >>= then') := by
  refine h.bind fun value? second? hrel => ?_
  cases hrel with
  | none => exact hnone
  | some hR => exact hsome _ _ hR

/-- Attempts go side by side if one computation succeeds exactly when the other does. -/
lemma Beside.attempt {R : α → β → Prop} {action : Afresh α} {other : Afresh β}
    (h : ∀ value, action.run view = .ok value → ∃ second, other.run view = .ok second ∧ R value second)
    (hback : ∀ second, other.run view = .ok second → ∃ value, action.run view = .ok value) :
    Beside view (Option.Rel R) (attempt action) (attempt other) := by
  refine ⟨_, _, run_attempt view action, run_attempt view other, ?_⟩
  cases hvalue : action.run view with
  | ok value =>
    obtain ⟨second, hsecond, hR⟩ := h value hvalue
    rw [hsecond]
    exact .some hR
  | error error =>
    cases hsecond : other.run view with
    | ok second =>
      obtain ⟨value, hother⟩ := hback second hsecond
      cases hvalue.symm.trans hother
    | error error => exact .none

/-- The first finds go side by side if the finds of all items do. -/
lemma beside_firstFound {R : α → β → Prop} {S : γ → δ → Prop} {find : α → Afresh (Option γ)}
    {find' : β → Afresh (Option δ)} {items : List α} {others : List β} (h : List.Forall₂ R items others)
    (hfind : ∀ item other, R item other → Beside view (Option.Rel S) (find item) (find' other)) :
    Beside view (Option.Rel S) (MethodInfo.firstFound find items)
      (MethodInfo.firstFound find' others) := by
  induction h with
  | nil => exact beside_pure .none
  | cons hhead _ ih =>
    exact (hfind _ _ hhead).bind_option ih fun found second hS => beside_pure (.some hS)

end Afresh

/-! ## Links that are found on the generic type -/

namespace View

variable {view : View}

/-- A type in the chain of base types is loaded for a handle. -/
lemma exists_of_mem_baseChain {type base : TypeInfo} (h : base ∈ view.baseChain type) :
    ∃ handle, view.type? handle = some base := by
  obtain ⟨derived, hbase⟩ := exists_of_mem_chainFrom (fun start hstart => ⟨type, hstart⟩) h
  obtain ⟨handle, -, hhandle⟩ := Option.bind_eq_some_iff.mp hbase
  exact ⟨handle, hhandle⟩

end View

namespace Afresh

variable {view : View}

lemma gives_heldModule (owner : ModuleId) :
    Gives view (fun _ => True) (heldModule? owner : Afresh (Option Resident)) := ⟨_, rfl, trivial⟩

/-- A type is found as the view finds it. -/
lemma gives_findType (handle : TypeHandle) :
    Gives view (· = view.type? handle) (findType? handle : Afresh (Option TypeInfo)) :=
  ⟨_, run_findType handle, rfl⟩

/-- All methods of a type are methods of the view. -/
lemma gives_allMethods {handle : TypeHandle} {type : TypeInfo} (htype : view.type? handle = some type) :
    Gives view (fun methods => ∀ method ∈ methods, view.HasMethod method)
      (type.allMethods : Afresh (List MethodInfo)) :=
  ⟨_, run_allMethods type, fun _ => View.hasMethod_of_mem_methodsOf htype⟩

/-- The method of a token has no arguments of its own. -/
lemma hasMethod_of_methodOfToken {home : Resident} {scope : Scope} {token : Token}
    {method : MethodInfo} (h : (methodOfToken home scope token : Afresh MethodInfo).run view = .ok method) :
    view.HasMethod method := by
  unfold methodOfToken at h
  split at h
  · cases htype : home.module.declaringType? token with
    | none => simp [htype] at h
    | some typeRow =>
      simp only [htype] at h
      rw [run_getMethod] at h
      exact ⟨{ declaring := home.definition typeRow, module := home.id, row := token.row }, rfl, trivial, h⟩
  split at h
  -- A reference is found among the methods of its parent, by name and signature.
  · cases hreference : rowAt? home.module.tables.memberRefs token.row with
    | none => simp [hreference] at h
    | some reference =>
      simp only [hreference, ReaderT.run_bind] at h
      obtain ⟨signature, -, h⟩ := bind_eq_ok.mp h
      obtain ⟨parent, -, h⟩ := bind_eq_ok.mp h
      obtain ⟨type, htype, h⟩ := bind_eq_ok.mp h
      rw [run_allMethods, ok_bind] at h
      split at h
      next found hfound =>
        obtain rfl := pure_eq_ok.mp h
        exact View.hasMethod_of_mem_methodsOf (View.type?_eq_some.mpr htype) (List.mem_of_find?_eq_some hfound)
      next => cases h
  · cases h

lemma gives_methodImpls (method : MethodInfo) :
    Gives view (fun _ => True)
      (method.methodImpls : Afresh (Option (Resident × List (Token × Token)))) := by
  refine (gives_heldModule method.handle.module).bind fun home? _ => ?_
  cases home? <;> exact gives_pure trivial

/-- The declaration that a method implements by name is a method of the view. -/
lemma finds_explicitDeclaration (method : MethodInfo) :
    Finds view view.HasMethod method.explicitDeclaration? := by
  refine (gives_methodImpls method).bind fun links? _ => ?_
  cases links? with
  | none => exact finds_none
  | some links =>
    obtain ⟨home, links⟩ := links
    simp only
    cases links.find? (·.1 == method.handle.token) with
    | none => exact finds_none
    | some link => exact finds_attempt fun _ => hasMethod_of_methodOfToken

lemma gives_explicitlyImplemented (method : MethodInfo) :
    Gives view (fun _ => True) (method.explicitlyImplemented : Afresh (List MethodInfo)) := by
  refine (gives_methodImpls method).bind fun links? _ => ?_
  cases links? with
  | none => exact gives_pure trivial
  | some links => exact ⟨_, run_filterMapM view fun link _ => run_attempt view _, trivial⟩

lemma gives_sameSignature (method other : MethodInfo) :
    Gives view (fun _ => True) (method.sameSignature other : Afresh Bool) := by
  unfold MethodInfo.sameSignature
  split
  · exact gives_pure trivial
  split
  · exact gives_pure trivial
  refine (gives_heldModule method.handle.module).bind fun home? _ => ?_
  cases home? with
  | none => exact gives_pure trivial
  | some home =>
    refine Gives.bind (P := fun _ => True) ⟨_, run_attempt view _, trivial⟩ fun other? _ => ?_
    cases other? <;> exact gives_pure trivial

lemma gives_isInterfaceMethod (method : MethodInfo) :
    Gives view (fun _ => True) (method.isInterfaceMethod? : Afresh (Option Bool)) :=
  (gives_findType method.handle.declaring).bind fun _ _ => gives_pure trivial

lemma finds_overriddenInBases (method : MethodInfo) :
    Finds view view.HasMethod method.overriddenInBases := by
  refine (gives_findType method.handle.declaring).bind fun declaring? _ => ?_
  cases declaring? with
  | none => exact finds_none
  | some declaring =>
    have hchain : Gives view (· = view.baseChain declaring) (declaring.baseChain : Afresh _) :=
      ⟨_, run_baseChain declaring, rfl⟩
    refine hchain.bind fun chain hchain => finds_firstFound fun base hbase => ?_
    obtain ⟨handle, hloaded⟩ := View.exists_of_mem_baseChain (hchain ▸ hbase)
    refine (gives_allMethods hloaded).bind fun methods hmethods => ?_
    refine finds_firstWith hmethods fun candidate => ?_
    split
    · exact gives_sameSignature method candidate
    · exact gives_pure trivial

lemma finds_implementedInInterfaces (method : MethodInfo) :
    Finds view view.HasMethod method.implementedInInterfaces := by
  unfold MethodInfo.implementedInInterfaces
  split
  · exact finds_none
  refine (gives_explicitlyImplemented method).bind fun explicit _ => ?_
  refine (gives_findType method.handle.declaring).bind fun declaring? _ => ?_
  cases declaring? with
  | none => exact finds_none
  | some declaring =>
    -- The interfaces are loaded types, so that their methods are methods of types.
    have hinterfaces : Gives view (· = (view.implementedHandles declaring).filterMap view.type?)
        (declaring.implementedInterfaces : Afresh _) := ⟨_, run_implementedInterfaces declaring, rfl⟩
    refine hinterfaces.bind fun interfaces hinterfaces => finds_firstFound fun interface hmem => ?_
    obtain ⟨handle, -, hloaded⟩ := List.mem_filterMap.mp (hinterfaces ▸ hmem)
    refine (gives_allMethods hloaded).bind fun methods hmethods => ?_
    refine finds_firstWith hmethods fun candidate => ?_
    split
    · exact gives_pure trivial
    · exact gives_sameSignature method candidate

/-- The method that is overridden on the generic type has no arguments of its own. -/
lemma finds_overriddenOnDefinition (method : MethodInfo) :
    Finds view view.HasMethod method.overriddenOnDefinition := by
  unfold MethodInfo.overriddenOnDefinition
  split
  · exact finds_none
  refine (finds_explicitDeclaration method).bind (finds_overriddenInBases method) fun declaration h => ?_
  refine (gives_isInterfaceMethod declaration).bind fun isInterface? _ => ?_
  cases isInterface? with
  | none => exact finds_none
  | some isInterface =>
    cases isInterface with
    | false => exact gives_pure fun found hfound => Option.some.inj hfound ▸ h
    | true => exact finds_overriddenInBases method

/-- The method that is implemented on the generic type has no arguments of its own. -/
lemma finds_implementedOnDefinition (method : MethodInfo) :
    Finds view view.HasMethod method.implementedOnDefinition := by
  unfold MethodInfo.implementedOnDefinition
  refine (finds_explicitDeclaration method).bind (finds_implementedInInterfaces method)
    fun declaration h => ?_
  refine (gives_isInterfaceMethod declaration).bind fun isInterface? _ => ?_
  cases isInterface? with
  | none => exact finds_none
  | some isInterface =>
    cases isInterface with
    | false => exact finds_implementedInInterfaces method
    | true => exact gives_pure fun found hfound => Option.some.inj hfound ▸ h

end Afresh

/-! ## Links that are carried over -/

namespace View

variable {view : View}

/-- The second member is in the row of the first one, and is declared by the type that declares that, with
the arguments put in. -/
def Moves (view : View) (arguments : List TypeHandle) (known found : Member) : Prop :=
  ∃ declaring, known.handle.declaring? = some declaring ∧
    found.handle = known.handle.declaredBy (view.canonical (declaring.substitute arguments []))

/-- The same of two methods without arguments of their own. -/
structure MovesMethod (view : View) (arguments : List TypeHandle) (known found : MethodInfo) : Prop where
  has_known : view.HasMethod known
  has_found : view.HasMethod found
  handle_eq : found.handle =
    known.handle.declaredBy (view.canonical (known.handle.declaring.substitute arguments []))

/-- A method that is taken on by a construction is a member that is. -/
lemma MovesMethod.moves {arguments : List TypeHandle} {known found : MethodInfo}
    (h : view.MovesMethod arguments known found) : view.Moves arguments (.method known) (.method found) :=
  ⟨known.handle.declaring, rfl, congrArg Handle.method h.handle_eq⟩

/-- The generic type stays what it is when arguments are put in. -/
lemma generic_canonical_substitute {handle : TypeHandle} {owner : ModuleId} {row : UInt32}
    (arguments : List TypeHandle) (hgeneric : handle.generic = .definition owner row) :
    (view.canonical (handle.substitute arguments [])).generic = .definition owner row := by
  cases handle with
  | inst type others =>
    obtain rfl : type = .definition owner row := hgeneric
    rw [TypeHandle.substitute, canonical_inst]
    rcases view.construct_cases (view.canonical (.definition owner row))
      (view.canonicals (TypeHandle.substituteList arguments [] others)) with h | ⟨h, -⟩ <;> rw [h] <;> rfl
  | definition _ _ => exact hgeneric
  | _ => cases hgeneric

/-- The handle of a method of a definition is canonical. -/
lemma canonicalMethod_of_definition {handle : MethodHandle} {owner : ModuleId} {row : UInt32}
    (hplain : handle.arguments = []) (hdeclaring : handle.declaring = .definition owner row) :
    view.canonicalMethod handle = handle := by
  rw [canonicalMethod_of_plain hplain, hdeclaring, canonical_definition, ← hdeclaring]
  rfl

section

variable (hresolvers : view.resolvers = []) {arguments : List TypeHandle}
  (hsettle : view.AllSettleIn arguments)
include hresolvers hsettle

/-- A method is at hand with the arguments put into its declaring type. -/
lemma HasMethod.exists_moved {known : MethodInfo} (h : view.HasMethod known) :
    ∃ found, (getMethod (known.handle.declaredBy
        (view.canonical (known.handle.declaring.substitute arguments []))) :
          Afresh MethodInfo).run view = .ok found ∧ view.MovesMethod arguments known found := by
  have hgeneric : (view.canonical (known.handle.declaring.substitute arguments [])).generic = _ :=
    generic_canonical_substitute arguments h.generic_eq
  obtain ⟨returnType, spelled, -, -, hfound⟩ :=
    exists_method_declaredBy h.method_eq (hgeneric.trans h.generic_eq.symm)
  have hknown : view.AllSettle known.handle.declaring :=
    (canonical_canonical_iff hresolvers _).mp (congrArg view.canonical (h.canonical_eq hresolvers))
  have hcanonical := canonicalMethod_declaredBy h.arguments_eq
    ((canonical_canonical_iff hresolvers _).mpr (allSettle_substitute hsettle _ hknown))
  rw [Afresh.run_getMethod, hcanonical]
  exact ⟨_, hfound, h, ⟨known.handle.declaredBy (view.canonical _), h.arguments_eq,
    allSettle_canonical _, (congrArg view.method hcanonical).trans hfound⟩, rfl⟩

end

/-- A method as its generic type has it, and as a construction has it. -/
structure TakenOn (view : View) (owner : ModuleId) (row : UInt32) (arguments : List TypeHandle)
    (known found : MethodInfo) : Prop where
  has_known : view.HasMethod known
  declaring_eq : known.handle.declaring = .definition owner row
  eq : ∃ (returnType : TypeHandle) (parameterTypes : List TypeHandle), found = { known with
    handle := known.handle.declaredBy (.inst (.definition owner row) arguments)
    returnType
    parameterTypes }

section

variable {owner : ModuleId} {row : UInt32} {arguments : List TypeHandle} {known found : MethodInfo}
  (h : view.TakenOn owner row arguments known found)
include h

lemma TakenOn.definitionHandle_known : known.definitionHandle = known.handle := by
  have hgeneric := h.has_known.generic_eq
  have harguments := h.has_known.arguments_eq
  rw [h.declaring_eq] at hgeneric
  obtain ⟨rfl, rfl⟩ := TypeHandle.definition.inj hgeneric
  rw [MethodInfo.definitionHandle, ← h.declaring_eq]
  exact congrArg (MethodHandle.mk _ _ _) harguments.symm

/-- On a construction a method still has the handle of its definition. -/
lemma TakenOn.definitionHandle_found : found.definitionHandle = known.handle := by
  obtain ⟨returnType, parameterTypes, rfl⟩ := h.eq
  exact h.definitionHandle_known

/-- Both methods have the method of the definition as theirs. -/
lemma TakenOn.run_memberDefinition :
    (known.memberDefinition : Afresh MethodInfo).run view = .ok known ∧
      (found.memberDefinition : Afresh MethodInfo).run view = .ok known := by
  -- The construction is declared by another type than its definition is.
  have hdiffers : known.handle ≠ found.handle := by
    obtain ⟨returnType, parameterTypes, rfl⟩ := h.eq
    intro hsame
    have hdeclaring := congrArg MethodHandle.declaring hsame
    rw [h.declaring_eq] at hdeclaring
    cases hdeclaring
  constructor
  · rw [MethodInfo.memberDefinition, if_pos h.definitionHandle_known]
    rfl
  · have hcanonical : view.canonicalMethod known.handle = known.handle :=
      canonicalMethod_of_definition h.has_known.arguments_eq h.declaring_eq
    have hget : (getMethod known.handle : Afresh MethodInfo).run view = .ok known := by
      rw [Afresh.run_getMethod, hcanonical]
      exact h.has_known.method_eq
    rw [MethodInfo.memberDefinition, h.definitionHandle_found, if_neg hdiffers, ReaderT.run_bind,
      Afresh.run_attempt, hget]
    rfl

/-- What is found for the generic type is itself what the method of the generic type takes the place of. -/
lemma TakenOn.run_project_known {link : MethodInfo} :
    (known.project link : Afresh MethodInfo).run view = .ok link := by
  rw [MethodInfo.project, h.declaring_eq, h.has_known.arguments_eq, ite_self]
  rfl

/-- What the method of a definition is linked to is carried over to the construction. -/
lemma TakenOn.run_project_found (hresolvers : view.resolvers = [])
    (hsettle : view.AllSettleIn arguments) {link : MethodInfo} (hlink : view.HasMethod link) :
    ∃ carried, (found.project link : Afresh MethodInfo).run view = .ok carried ∧
      view.MovesMethod arguments link carried := by
  obtain ⟨carried, hcarried, hmoves⟩ := hlink.exists_moved hresolvers hsettle
  obtain ⟨returnType, parameterTypes, rfl⟩ := h.eq
  refine ⟨carried, ?_, hmoves⟩
  have hhandle : { link.handle with
      declaring := view.canonical (link.handle.declaring.substitute arguments []), arguments := [] } =
      link.handle.declaredBy (view.canonical (link.handle.declaring.substitute arguments [])) :=
    congrArg (MethodHandle.mk _ _ _) hlink.arguments_eq.symm
  rw [← hhandle] at hcarried
  simp only [MethodInfo.project, MethodHandle.declaring_declaredBy, MethodHandle.arguments_declaredBy,
    h.has_known.arguments_eq, ite_self]
  rw [ReaderT.run_bind, Afresh.run_canonicalType]
  show ((attempt (getMethod _) : Afresh (Option MethodInfo)).run view >>= _) = _
  rw [Afresh.run_attempt, hcarried]
  rfl

section

variable (hresolvers : view.resolvers = []) (hsettle : view.AllSettleIn arguments)
include hresolvers hsettle

/-- A link that is found on the definition of a method and then carried over. -/
lemma TakenOn.beside_link {link onDefinition : MethodInfo → Afresh (Option MethodInfo)}
    (hfinds : ∀ method, Afresh.Finds view view.HasMethod (onDefinition method))
    (hlink : ∀ method definition, (method.memberDefinition : Afresh MethodInfo).run view = .ok definition →
      ∀ found?, (onDefinition definition).run view = .ok found? →
        (link method).run view =
          found?.mapM fun found => (method.project found : Afresh MethodInfo).run view) :
    Afresh.Beside view (Option.Rel (view.MovesMethod arguments)) (link known) (link found) := by
  obtain ⟨hknown, hfound⟩ := h.run_memberDefinition
  obtain ⟨link?, hrun, hhas⟩ := hfinds known
  cases link? with
  | none => exact ⟨none, none, hlink known known hknown none hrun, hlink found known hfound none hrun, .none⟩
  | some target =>
    obtain ⟨carried, hcarried, hmoves⟩ :=
      h.run_project_found hresolvers hsettle (hhas target rfl)
    refine ⟨some target, some carried, (hlink known known hknown _ hrun).trans ?_,
      (hlink found known hfound _ hrun).trans ?_, .some hmoves⟩
    · rw [Option.mapM_some, h.run_project_known]
      rfl
    · rw [Option.mapM_some, hcarried]
      rfl

/-- **Overriding.** A method of a construction overrides what the method of the generic type does, with the
arguments put in. -/
theorem TakenOn.beside_overridden :
    Afresh.Beside view (Option.Rel (view.MovesMethod arguments)) known.overridden? found.overridden? := by
  refine h.beside_link hresolvers hsettle Afresh.finds_overriddenOnDefinition
    fun method definition hdefinition found? hfound => ?_
  rw [MethodInfo.overridden?, ReaderT.run_bind, hdefinition, ok_bind, ReaderT.run_bind, hfound]
  cases found? <;> rfl

/-- **Implementing.** A method of a construction implements what the method of the generic type does, with
the arguments put in. -/
theorem TakenOn.beside_implemented :
    Afresh.Beside view (Option.Rel (view.MovesMethod arguments)) known.implemented? found.implemented? := by
  refine h.beside_link hresolvers hsettle Afresh.finds_implementedOnDefinition
    fun method definition hdefinition found? hfound => ?_
  rw [MethodInfo.implemented?, ReaderT.run_bind, hdefinition, ok_bind, ReaderT.run_bind, hfound]
  cases found? <;> rfl

end

end

/-! ## Properties and events -/

/-- What a method does for which property or event. -/
def semantics? (view : View) (method : MethodInfo) : Option (UInt16 × Token) :=
  (view.held? method.handle.module).bind (·.semantics? method.handle.row)

/-- The handle of the property or event for which a method does something. -/
def associatedHandle? (view : View) (method : MethodInfo) : Option Handle :=
  (view.semantics? method).bind fun (_, association) =>
    let handle : MemberHandle :=
      { declaring := method.handle.declaring, module := method.handle.module, row := association.row }
    if association.isTable .property then some (.property handle)
    else if association.isTable .event then some (.event handle)
    else none

/-- The property or event of a method is declared by the type of the method. -/
lemma declaring?_of_associatedHandle {method : MethodInfo} {handle : Handle}
    (h : view.associatedHandle? method = some handle) :
    handle.declaring? = some method.handle.declaring ∧
      ∀ declaring, view.canonical declaring = declaring →
        view.canonicalHandle (handle.declaredBy declaring) = handle.declaredBy declaring := by
  obtain ⟨⟨semantics, association⟩, -, h⟩ := Option.bind_eq_some_iff.mp h
  have hfixed (declaring : TypeHandle) (hcanonical : view.canonical declaring = declaring)
      (handle : MemberHandle) :
      view.canonicalMember (handle.declaredBy declaring) = handle.declaredBy declaring :=
    congrArg (MemberHandle.mk · handle.module handle.row) hcanonical
  simp only at h
  split at h
  · obtain rfl := Option.some.inj h
    exact ⟨rfl, fun declaring hdeclaring => congrArg Handle.property (hfixed declaring hdeclaring _)⟩
  split at h
  · obtain rfl := Option.some.inj h
    exact ⟨rfl, fun declaring hdeclaring => congrArg Handle.event (hfixed declaring hdeclaring _)⟩
  · cases h

lemma associatedHandle?_declaredBy {known found : MethodInfo} {declaring : TypeHandle}
    (h : found.handle = known.handle.declaredBy declaring) :
    view.associatedHandle? found = (view.associatedHandle? known).map (·.declaredBy declaring) := by
  have hsemantics : view.semantics? found = view.semantics? known := by
    rw [semantics?, h]
    rfl
  rw [associatedHandle?, associatedHandle?, hsemantics, h]
  cases view.semantics? known with
  | none => rfl
  | some entry =>
    simp only [Option.bind_some]
    split
    · rfl
    split <;> rfl

section

variable {arguments : List TypeHandle} {known found : Member}

/-- A member that is taken on by a construction is a property before and after, or not. -/
lemma Moves.rel_property (h : view.Moves arguments known found) :
    Option.Rel (fun value moved => view.Moves arguments (.property value) (.property moved))
      (PropertyInfo.ofMember? known) (PropertyInfo.ofMember? found) := by
  obtain ⟨declaring, hdeclaring, hhandle⟩ := h
  cases known <;> cases found <;>
    first | exact .none | exact .some ⟨declaring, hdeclaring, hhandle⟩ | cases hhandle

lemma Moves.rel_event (h : view.Moves arguments known found) :
    Option.Rel (fun value moved => view.Moves arguments (.event value) (.event moved))
      (EventInfo.ofMember? known) (EventInfo.ofMember? found) := by
  obtain ⟨declaring, hdeclaring, hhandle⟩ := h
  cases known <;> cases found <;>
    first | exact .none | exact .some ⟨declaring, hdeclaring, hhandle⟩ | cases hhandle

end

end View

namespace Afresh

variable {view : View} {arguments : List TypeHandle}

/-- What a method does for a property or event is read off the rows of its module. -/
lemma run_semantics (method : MethodInfo) :
    (method.semantics? : Afresh (Option (UInt16 × Token))).run view = .ok (view.semantics? method) := by
  rw [MethodInfo.semantics?, heldModule?, bind_assoc, ReaderT.run_bind, run_held, pure_bind, View.semantics?]
  cases view.held? method.handle.module <;> rfl

/-- What is attempted comes to a member, or to none. -/
lemma run_attempt_map {α : Type} (get : Afresh α) (toMember : α → Member) :
    (return (← attempt get).map toMember : Afresh (Option Member)).run view =
      .ok (toMember <$> get.run view).toOption := by
  rw [ReaderT.run_bind, run_attempt]
  cases get.run view <;> rfl

lemma run_associated (method : MethodInfo) :
    (method.associated? : Afresh (Option Member)).run view =
      .ok ((view.associatedHandle? method).bind fun handle =>
        (view.object? (view.canonicalHandle handle)).bind (·.toOption)) := by
  have hproperty (handle : MemberHandle) :
      (return (← attempt (getProperty handle)).map .property : Afresh (Option Member)).run view =
        .ok ((view.object? (view.canonicalHandle (.property handle))).bind (·.toOption)) := by
    rw [run_attempt_map, run_getProperty]
    rfl
  have hevent (handle : MemberHandle) :
      (return (← attempt (getEvent handle)).map .event : Afresh (Option Member)).run view =
        .ok ((view.object? (view.canonicalHandle (.event handle))).bind (·.toOption)) := by
    rw [run_attempt_map, run_getEvent]
    rfl
  rw [MethodInfo.associated?, ReaderT.run_bind, run_semantics, ok_bind, View.associatedHandle?]
  cases view.semantics? method with
  | none => rfl
  | some entry =>
    simp only [Option.bind_some]
    split
    · exact hproperty _
    split
    · exact hevent _
    · rfl

/-- What the methods of properties and events belong to moves along with them. -/
lemma beside_associated (hresolvers : view.resolvers = []) {known found : MethodInfo}
    (h : view.MovesMethod arguments known found) :
    Beside view (Option.Rel (view.Moves arguments)) known.associated? found.associated? := by
  refine ⟨_, _, run_associated known, run_associated found, ?_⟩
  have hmoved : (view.canonical (known.handle.declaring.substitute arguments [])).generic = _ :=
    View.generic_canonical_substitute arguments h.has_known.generic_eq
  have hgeneric := hmoved.trans h.has_known.generic_eq.symm
  rw [View.associatedHandle?_declaredBy h.handle_eq]
  cases hhandle : view.associatedHandle? known with
  | none => exact .none
  | some handle =>
    -- The property or event is declared by the same type as its method, before and after.
    obtain ⟨hdeclaring, hfixed⟩ := View.declaring?_of_associatedHandle hhandle
    have hknown := hfixed _ (h.has_known.canonical_eq hresolvers)
    rw [Handle.declaredBy_declaring hdeclaring] at hknown
    have hfound := hfixed found.handle.declaring (h.has_found.canonical_eq hresolvers)
    rw [h.handle_eq, MethodHandle.declaring_declaredBy] at hfound
    rw [Option.map_some, Option.bind_some, Option.bind_some, hknown, hfound]
    refine rel_imp (View.rel_object_declaredBy hdeclaring hgeneric) fun member moved hmoved => ?_
    obtain ⟨rfl, hmoved⟩ := hmoved
    exact ⟨known.handle.declaring, hdeclaring, hmoved⟩

section

variable {owner : ModuleId} {row : UInt32}
  (hcanonical : view.canonical (.inst (.definition owner row) arguments) =
    .inst (.definition owner row) arguments)
include hcanonical

section

variable {handle : MethodHandle} (hplain : handle.arguments = [])
  (hdeclaring : handle.declaring = .definition owner row)
include hplain hdeclaring

/-- A construction has every method that its generic type has. -/
lemma exists_takenOn {known : MethodInfo} (h : (getMethod handle : Afresh MethodInfo).run view = .ok known) :
    ∃ found, (getMethod (handle.declaredBy (.inst (.definition owner row) arguments)) :
        Afresh MethodInfo).run view = .ok found ∧ view.TakenOn owner row arguments known found := by
  have hknown : view.canonicalMethod handle = handle :=
    View.canonicalMethod_of_definition hplain hdeclaring
  have hfound := View.canonicalMethod_declaredBy hplain hcanonical
  have hgeneric : (TypeHandle.inst (.definition owner row) arguments).generic =
      handle.declaring.generic := by
    rw [hdeclaring]
    rfl
  rw [run_getMethod, hknown] at h
  obtain ⟨-, -, -, -, -, hhandle, -⟩ := View.method_eq_ok h
  obtain ⟨returnType, spelled, -, -, hother⟩ := View.exists_method_declaredBy h hgeneric
  have hsettles : view.AllSettle handle.declaring := hdeclaring ▸ trivial
  exact ⟨_, (run_getMethod _).trans ((congrArg view.method hfound).trans hother),
    ⟨handle, hplain, hsettles, (congrArg view.method hknown).trans h⟩, hhandle ▸ hdeclaring,
    ⟨_, _, by rw [hhandle]⟩⟩

/-- A construction has a method exactly if its generic type has it. -/
lemma beside_getMethod :
    Beside view (Option.Rel (view.TakenOn owner row arguments)) (attempt (getMethod handle))
      (attempt (getMethod (handle.declaredBy (.inst (.definition owner row) arguments)))) := by
  refine Beside.attempt (fun known h => exists_takenOn hcanonical hplain hdeclaring h) fun found h => ?_
  have hgeneric : handle.declaring.generic =
      (TypeHandle.inst (.definition owner row) arguments).generic := by
    rw [hdeclaring]
    rfl
  rw [run_getMethod, View.canonicalMethod_declaredBy hplain hcanonical] at h
  obtain ⟨returnType, spelled, -, -, hother⟩ := View.exists_method_declaredBy h hgeneric
  have hknown : view.method (view.canonicalMethod handle) = _ :=
    (congrArg view.method (View.canonicalMethod_of_definition hplain hdeclaring)).trans hother
  exact ⟨_, (run_getMethod _).trans hknown⟩

end

/-- A construction has the methods of a property or event that its generic type has. -/
lemma beside_accessor (association : Token) {handle : MemberHandle}
    (hdeclaring : handle.declaring = .definition owner row) (role : UInt16) :
    Beside view (Option.Rel (view.TakenOn owner row arguments)) (accessor? association handle role)
      (accessor? association (handle.declaredBy (.inst (.definition owner row) arguments)) role) := by
  have hheld : Beside view Eq (heldModule? handle.module : Afresh (Option Resident))
      (heldModule? handle.module) := ⟨_, _, rfl, rfl, rfl⟩
  refine hheld.bind fun home? other? hsame => ?_
  subst hsame
  cases home? with
  | none => exact beside_pure .none
  | some home =>
    simp only
    cases (home.module.accessors association).find? fun entry => MemberFlags.has entry.1 role with
    | none => exact beside_pure .none
    | some entry => exact beside_getMethod hcanonical rfl hdeclaring

/-- The accessors of a property are taken on by a construction one by one. -/
lemma beside_propertyAccessors {known found : PropertyInfo}
    (hdeclaring : known.handle.declaring = .definition owner row)
    (hhandle : found.handle = known.handle.declaredBy (.inst (.definition owner row) arguments)) :
    Beside view (List.Forall₂ (view.TakenOn owner row arguments)) known.accessors found.accessors := by
  unfold PropertyInfo.accessors PropertyInfo.getter? PropertyInfo.setter? PropertyInfo.token
  rw [hhandle]
  refine (beside_accessor hcanonical _ hdeclaring _).bind fun _ _ hgetter => ?_
  refine (beside_accessor hcanonical _ hdeclaring _).bind fun _ _ hsetter => beside_pure ?_
  exact List.rel_append (forall₂_toList hgetter) (forall₂_toList hsetter)

lemma beside_eventAccessors {known found : EventInfo}
    (hdeclaring : known.handle.declaring = .definition owner row)
    (hhandle : found.handle = known.handle.declaredBy (.inst (.definition owner row) arguments)) :
    Beside view (List.Forall₂ (view.TakenOn owner row arguments)) known.accessors found.accessors := by
  unfold EventInfo.accessors EventInfo.adder? EventInfo.remover? EventInfo.raiser? EventInfo.token
  rw [hhandle]
  refine (beside_accessor hcanonical _ hdeclaring _).bind fun _ _ hadder => ?_
  refine (beside_accessor hcanonical _ hdeclaring _).bind fun _ _ hremover => ?_
  refine (beside_accessor hcanonical _ hdeclaring _).bind fun _ _ hraiser => beside_pure ?_
  exact List.rel_append (List.rel_append (forall₂_toList hadder) (forall₂_toList hremover))
    (forall₂_toList hraiser)

end

section

variable {α : Type} {owner : ModuleId} {row : UInt32} {select : Member → Option α} {wrap : α → Member}
  {link : MethodInfo → Afresh (Option MethodInfo)} {accessors others : Afresh (List MethodInfo)}

/-- What is linked through accessors moves along with what the accessors are linked to. -/
lemma beside_linked (hresolvers : view.resolvers = [])
    (hselect : ∀ known found, view.Moves arguments known found →
      Option.Rel (fun value moved => view.Moves arguments (wrap value) (wrap moved))
        (select known) (select found))
    (haccessors : Beside view (List.Forall₂ (view.TakenOn owner row arguments)) accessors others)
    (hlink : ∀ known found, view.TakenOn owner row arguments known found →
      Beside view (Option.Rel (view.MovesMethod arguments)) (link known) (link found)) :
    Beside view (Option.Rel fun value moved => view.Moves arguments (wrap value) (wrap moved))
      (do MethodInfo.linked? link select (← accessors))
      (do MethodInfo.linked? link select (← others)) := by
  refine haccessors.bind fun _ _ h => beside_firstFound h fun known found htaken => ?_
  refine (hlink known found htaken).bind_option (beside_pure .none) fun target moved hmoves => ?_
  refine (beside_associated hresolvers hmoves).bind fun known? found? hrel => beside_pure ?_
  cases hrel with
  | none => exact .none
  | some hmember => exact hselect _ _ hmember

end

/-! ## Methods, properties and events -/

section

variable {owner : ModuleId} {row : UInt32}

/-- A method of a construction takes the place of what the method of the generic type does. -/
lemma beside_inheritedMethod (hresolvers : view.resolvers = []) (hsettle : view.AllSettleIn arguments)
    {known found : MethodInfo} (h : view.TakenOn owner row arguments known found)
    (hkind : known.kind ≠ .constructor) :
    Beside view (Option.Rel (view.Moves arguments)) (Member.method known).inherited?
      (Member.method found).inherited? := by
  have hsame : found.kind = known.kind := by
    obtain ⟨returnType, parameterTypes, rfl⟩ := h.eq
    rfl
  have himplemented : Beside view (Option.Rel (view.Moves arguments))
      (return (← known.implemented?).map .method) (return (← found.implemented?).map .method) :=
    (h.beside_implemented hresolvers hsettle).bind fun _ _ hrel =>
      beside_pure (rel_map_map hrel fun _ _ hmoves => hmoves.moves)
  simp only [Member.inherited?, hsame]
  cases hknown : known.kind with
  | constructor => exact absurd hknown hkind
  | method | operator =>
    refine (h.beside_overridden hresolvers hsettle).bind_option himplemented fun _ _ hmoves => ?_
    exact beside_pure (.some hmoves.moves)

section

variable (hresolvers : view.resolvers = [])
  (hcanonical : view.canonical (.inst (.definition owner row) arguments) =
    .inst (.definition owner row) arguments)
  (hsettle : view.AllSettleIn arguments)
include hresolvers hcanonical hsettle

/-- A property of a construction takes the place of what the property of the generic type does. -/
lemma beside_inheritedProperty {known found : PropertyInfo}
    (hdeclaring : known.handle.declaring = .definition owner row)
    (hhandle : found.handle = known.handle.declaredBy (.inst (.definition owner row) arguments)) :
    Beside view (Option.Rel (view.Moves arguments)) (Member.property known).inherited?
      (Member.property found).inherited? := by
  have haccessors := beside_propertyAccessors hcanonical hdeclaring hhandle
  have hoverridden := beside_linked hresolvers (fun _ _ h => h.rel_property) haccessors
    fun _ _ h => h.beside_overridden hresolvers hsettle
  have himplemented := beside_linked hresolvers (fun _ _ h => h.rel_property) haccessors
    fun _ _ h => h.beside_implemented hresolvers hsettle
  refine hoverridden.bind_option ?_ fun _ _ hmoves => beside_pure (.some hmoves)
  exact himplemented.bind fun _ _ hrel => beside_pure (rel_map_map hrel fun _ _ hmoves => hmoves)

/-- An event of a construction takes the place of what the event of the generic type does. -/
lemma beside_inheritedEvent {known found : EventInfo}
    (hdeclaring : known.handle.declaring = .definition owner row)
    (hhandle : found.handle = known.handle.declaredBy (.inst (.definition owner row) arguments)) :
    Beside view (Option.Rel (view.Moves arguments)) (Member.event known).inherited?
      (Member.event found).inherited? := by
  have haccessors := beside_eventAccessors hcanonical hdeclaring hhandle
  have hoverridden := beside_linked hresolvers (fun _ _ h => h.rel_event) haccessors
    fun _ _ h => h.beside_overridden hresolvers hsettle
  have himplemented := beside_linked hresolvers (fun _ _ h => h.rel_event) haccessors
    fun _ _ h => h.beside_implemented hresolvers hsettle
  refine hoverridden.bind_option ?_ fun _ _ hmoves => beside_pure (.some hmoves)
  exact himplemented.bind fun _ _ hrel => beside_pure (rel_map_map hrel fun _ _ hmoves => hmoves)

end

end

end Afresh

end CliMetadata
