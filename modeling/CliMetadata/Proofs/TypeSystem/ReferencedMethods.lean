import CliMetadata.Proofs.TypeSystem.ExplicitLinks
import CliMetadata.Proofs.TypeSystem.ExtensionQuestions

/-!
# Methods that are referenced

A reference to a method gives the type that declares it, its name and its signature. Of the signature only the
numbers of generic parameters and parameters are compared, not the types: the reference stands for the first
method of the type that agrees in these. A method that agrees in the types as well is the one that the reference
stands for exactly if no other one that agrees in the numbers comes before it.
-/

namespace CliMetadata

/-! ## What a reference asks for -/

namespace MethodInfo

/-- A method has the name and the numbers of generic parameters and parameters of a reference. -/
def hasShape (reference : Row.MemberRef) (signature : MethodSignature) (method : MethodInfo) : Bool :=
  method.name == reference.name && method.genericCount == signature.genericCount.toNat &&
    method.parameterTypes.length == signature.parameters.length

/-- The first of some methods that has the name and the numbers of generic parameters and parameters of a
reference. -/
def ComesFirst (reference : Row.MemberRef) (signature : MethodSignature) (methods : List MethodInfo)
    (method : MethodInfo) : Prop :=
  ∃ before after, methods = before ++ method :: after ∧
    ∀ other ∈ before, other.hasShape reference signature = false

/-- The first method of its shape is the one that is found. -/
lemma find?_eq_some_iff_comesFirst {reference : Row.MemberRef} {signature : MethodSignature}
    {methods : List MethodInfo} {method : MethodInfo} (hshape : method.hasShape reference signature) :
    methods.find? (hasShape reference signature) = some method ↔
      method.ComesFirst reference signature methods := by
  rw [List.find?_eq_some_iff_append, ComesFirst]
  simp [hshape]

end MethodInfo

namespace View

variable (view : View)

/-- What the generic parameters of a type stand for: its arguments, or its own parameters if it has none. -/
def typeArguments : TypeHandle → List TypeHandle
  | .inst _ arguments => arguments
  | .definition owner row =>
    ((view.resident? owner).map fun module => view.ownParameters ⟨owner, module⟩ row).getD []
  | _ => []

/-- A method has the name, the number of generic parameters and the parameter types of a reference, as the
signature of the reference reads with what the parameters of the type stand for and with the parameters of the
method itself. -/
def Means (home : Resident) (row : UInt32) (reference : Row.MemberRef) (signature : MethodSignature)
    (parent : TypeHandle) (method : MethodInfo) : Prop :=
  method.name = reference.name ∧ method.genericCount = signature.genericCount.toNat ∧
    ∃ spelled : List TypeHandle,
      (signature.parameters.mapM fun parameter =>
        view.spell home (.ofMethod home.id (some row) 0) parameter.toType) = .ok spelled ∧
      method.parameterTypes.map view.canonical = spelled.map fun type =>
        view.canonical (type.substitute (view.typeArguments (view.canonical parent))
          (methodParameters method.handle.module method.handle.row method.genericCount))

variable {view}

lemma Means.hasShape {home : Resident} {row : UInt32} {reference : Row.MemberRef}
    {signature : MethodSignature} {parent : TypeHandle} {method : MethodInfo}
    (h : view.Means home row reference signature parent method) :
    method.hasShape reference signature := by
  obtain ⟨hname, hcount, spelled, hspelled, htypes⟩ := h
  -- As many parameters are spelled as the signature has, and of the types only their number matters.
  have hlength := (mapM_eq_ok.mp hspelled).length_eq
  have hsame := congrArg List.length htypes
  rw [List.length_map, List.length_map, ← hlength] at hsame
  simp [MethodInfo.hasShape, hname, hcount, hsame]

/-- All methods of a type are declared alike. -/
lemma declaring_of_mem_methodsOf {type : TypeInfo} {method : MethodInfo}
    (h : method ∈ view.methodsOf type) : method.handle.declaring = view.canonical type.handle := by
  obtain ⟨home, row, hmethod⟩ := exists_of_mem_methodsOf h
  obtain ⟨-, -, -, -, -, hhandle, -⟩ := method_eq_ok hmethod
  rw [hhandle]
  rfl

/-- Methods of one type belong to an interface together or not at all. -/
lemma isInterfaceMethod?_of_mem_methodsOf {type : TypeInfo} {method other : MethodInfo}
    (hmethod : method ∈ view.methodsOf type) (hother : other ∈ view.methodsOf type) :
    view.isInterfaceMethod? method = view.isInterfaceMethod? other := by
  rw [isInterfaceMethod?, isInterfaceMethod?, declaring_of_mem_methodsOf hmethod,
    declaring_of_mem_methodsOf hother]

end View

namespace Afresh

variable {view : View} {home : Resident} {row : UInt32} {token : Token} {reference : Row.MemberRef}
  {signature : MethodSignature} {parent : TypeHandle} {type : TypeInfo}

/-- A reference stands for the first method of its type that agrees in the name and the numbers. -/
lemma run_methodOfReference (htable : token.isTable .memberRef)
    (hreference : rowAt? home.module.tables.memberRefs token.row = some reference)
    (hsignature : MethodSignature.decode reference.signature = .ok signature)
    (hparent : (typeToken home (.ofType row) reference.parent : Afresh TypeHandle).run view = .ok parent)
    (htype : view.type? parent = some type) :
    (methodOfToken home (.ofType row) token : Afresh MethodInfo).run view =
      ((view.methodsOf type).find? (·.hasShape reference signature)).elim (.error (.tokenNotFound token))
        .ok := by
  have hother : token.isTable .methodDef = false := by
    rw [Token.isTable, beq_iff_eq] at htable
    rw [Token.isTable, htable]
    rfl
  rw [methodOfToken, if_neg (by simp [hother]), if_pos htable, hreference]
  have hshape : (fun method : MethodInfo => method.name == reference.name &&
      method.genericCount == signature.genericCount.toNat &&
        method.parameterTypes.length == signature.parameters.length) =
      MethodInfo.hasShape reference signature := rfl
  simp only [ReaderT.run_bind, run_ofExcept, hsignature, hparent, View.type?_eq_some.mp htype, run_allMethods,
    ok_bind, hshape]
  cases (view.methodsOf type).find? (·.hasShape reference signature) <;> rfl

end Afresh

/-! ## In a session -/

namespace Registry

/-- A token in the type in a row is that of a reference, whose signature is read and whose type has some
methods. -/
structure Refers (registry : Registry) (home : Resident) (row : UInt32) (token : Token)
    (reference : Row.MemberRef) (signature : MethodSignature) (parent : TypeHandle)
    (methods : List MethodInfo) : Prop where
  isReference : token.isTable .memberRef
  referenceRow : rowAt? home.module.tables.memberRefs token.row = some reference
  decoded : MethodSignature.decode reference.signature = .ok signature
  parentRead : Session.outcome (typeToken home (.ofType row) reference.parent) registry = .ok parent
  methodsFound : Session.outcome (CliMetadata.methodsIn parent) registry = .ok methods

/-- A method of the type in a row has its first link to the method of a token. -/
structure IsLinked (registry : Registry) (home : Resident) (row : UInt32) (token : Token)
    (body : MethodInfo) : Prop where
  isDefinition : body.definitionHandle = body.handle
  isDeclared : body.declaringRow = row
  isHeld : Session.outcome (heldModule? body.handle.module) registry = .ok (some home)
  firstLink : body.firstLink? home = some (body.handle.token, token)

variable {used fresh : Registry} (h : used.Follows fresh)
include h

/-- A type whose methods are found is loaded, and they are the methods that are found for it. -/
lemma Follows.exists_of_methodsIn {parent : TypeHandle} {methods : List MethodInfo}
    (hmethods : Session.outcome (CliMetadata.methodsIn parent) used = .ok methods) :
    ∃ type, fresh.view.type? parent = some type ∧ methods = fresh.view.methodsOf type := by
  rw [(h.outcome_eq fun _ => Session.SameAfresh.methodsIn parent).1, CliMetadata.methodsIn,
    ReaderT.run_bind] at hmethods
  obtain ⟨type, htype, hmethods⟩ := bind_eq_ok.mp hmethods
  rw [Afresh.run_allMethods] at hmethods
  exact ⟨type, View.type?_eq_some.mpr htype, (Except.ok.inj hmethods).symm⟩

variable {home : Resident} {row : UInt32} {token : Token} {reference : Row.MemberRef}
  {signature : MethodSignature} {parent : TypeHandle} {methods : List MethodInfo}
  {method bound body : MethodInfo}

lemma Follows.outcome_methodOfReference
    (hrefers : used.Refers home row token reference signature parent methods) :
    Session.outcome (methodOfToken home (.ofType row) token) used =
      (methods.find? (·.hasShape reference signature)).elim (.error (.tokenNotFound token)) .ok := by
  obtain ⟨type, htype, rfl⟩ := h.exists_of_methodsIn hrefers.methodsFound
  have hparent : (typeToken home (.ofType row) reference.parent : Afresh TypeHandle).run fresh.view =
      .ok parent := (h.outcome_eq fun _ => inferInstance).1.symm.trans hrefers.parentRead
  rw [h.outcome_methodOfToken, Afresh.run_methodOfReference hrefers.isReference hrefers.referenceRow
    hrefers.decoded hparent htype]

/-- Whether it belongs to an interface is the same for all methods of the type. -/
lemma Follows.outcome_isInterfaceMethod_eq
    (hmethods : Session.outcome (CliMetadata.methodsIn parent) used = .ok methods) (hmem : method ∈ methods)
    (hother : bound ∈ methods) :
    Session.outcome method.isInterfaceMethod? used = Session.outcome bound.isInterfaceMethod? used := by
  obtain ⟨type, htype, rfl⟩ := h.exists_of_methodsIn hmethods
  rw [h.outcome_isInterfaceMethod, h.outcome_isInterfaceMethod,
    View.isInterfaceMethod?_of_mem_methodsOf hmem hother]

/-- What the first link of a method leads to is what the method implements, or what it overrides. -/
lemma Follows.outcome_of_isLinked (hlinked : used.IsLinked home row token body)
    (hbound : Session.outcome (methodOfToken home (.ofType row) token) used = .ok bound) :
    (Session.outcome bound.isInterfaceMethod? used = .ok (some true) →
      Session.outcome body.implemented? used = .ok (some bound)) ∧
    (Session.outcome bound.isInterfaceMethod? used = .ok (some false) → body.kind ≠ .constructor →
      body.isVirtual → MemberFlags.has body.flags MethodFlags.newSlot = false →
        Session.outcome body.overridden? used = .ok (some bound)) := by
  obtain ⟨hdefinition, rfl, hheld, hfirst⟩ := hlinked
  have hbinds (isInterface : Bool)
      (hkind : Session.outcome bound.isInterfaceMethod? used = .ok (some isInterface)) :
      used.FirstBinds home body isInterface bound := ⟨_, hfirst, hbound, hkind⟩
  constructor
  · intro hinterface
    exact ((h.implemented_binds_iff hheld hdefinition bound).mpr (hbinds true hinterface)).1
  · intro hclass hconstructor hvirtual hslot
    exact ((h.overridden_binds_iff hheld hdefinition hconstructor hvirtual hslot bound).mpr
      (.inl (hbinds false hclass))).1

/-- **Referenced methods.** A reference to a method that its type has stands for some method, and this is the
first one with the name and the numbers of generic parameters and parameters. It is the method with the types
that the reference gives exactly if that one comes first, and then it is also what a method implements or
overrides that is linked by the reference. -/
theorem Follows.reference_bound_iff
    (hrefers : used.Refers home row token reference signature parent methods) (hmem : method ∈ methods)
    (hmeans : fresh.view.Means home row reference signature parent method) :
    (∃ bound, Session.outcome (methodOfToken home (.ofType row) token) used = .ok bound ∧
      bound.hasShape reference signature ∧ bound.ComesFirst reference signature methods) ∧
    (Session.outcome (methodOfToken home (.ofType row) token) used = .ok method ↔
      method.ComesFirst reference signature methods) ∧
    ∀ body, used.IsLinked home row token body →
      (Session.outcome method.isInterfaceMethod? used = .ok (some true) →
        (Session.outcome body.implemented? used = .ok (some method) ↔
          method.ComesFirst reference signature methods)) ∧
      (Session.outcome method.isInterfaceMethod? used = .ok (some false) → body.kind ≠ .constructor →
        body.isVirtual → MemberFlags.has body.flags MethodFlags.newSlot = false →
        (Session.outcome body.overridden? used = .ok (some method) ↔
          method.ComesFirst reference signature methods)) := by
  have hshape := hmeans.hasShape
  obtain ⟨bound, hbound⟩ : ∃ bound, methods.find? (·.hasShape reference signature) = some bound :=
    Option.isSome_iff_exists.mp (List.find?_isSome.mpr ⟨method, hmem, hshape⟩)
  have hfirst : bound = method ↔ method.ComesFirst reference signature methods := by
    rw [← MethodInfo.find?_eq_some_iff_comesFirst hshape, hbound, Option.some.injEq]
  have houtcome : Session.outcome (methodOfToken home (.ofType row) token) used = .ok bound := by
    rw [h.outcome_methodOfReference hrefers, hbound]
    rfl
  -- The method that is found is declared by the same type, so it is one of an interface if this one is.
  have hkind := h.outcome_isInterfaceMethod_eq hrefers.methodsFound (List.mem_of_find?_eq_some hbound) hmem
  refine ⟨⟨bound, houtcome, List.find?_some hbound, ?_⟩, ?_, fun body hlinked => ?_⟩
  · exact (MethodInfo.find?_eq_some_iff_comesFirst (List.find?_some hbound)).mp hbound
  · rw [houtcome, Except.ok.injEq, hfirst]
  · obtain ⟨himplemented, hoverridden⟩ := h.outcome_of_isLinked hlinked houtcome
    rw [hkind] at himplemented hoverridden
    refine ⟨fun hinterface => ?_, fun hclass hconstructor hvirtual hslot => ?_⟩
    · rw [himplemented hinterface, Except.ok.injEq, Option.some.injEq, hfirst]
    · rw [hoverridden hclass hconstructor hvirtual hslot, Except.ok.injEq, Option.some.injEq, hfirst]

end Registry

/-! ## Two overloads -/

/-- A module with a generic interface, which has a method for values of its parameter and one with the same name
for texts, and with a class that implements both for integers, by references to the methods of the
construction. -/
def cratesModule : Module where
  tables := {
    modules := [.named "Lib.dll"]
    typeDefs := [⟨0xA1, "ICrate\x601", "N", .null, 1, 1⟩, ⟨0x100001, "Store", "N", .null, 1, 3⟩]
    methods := [⟨0, 0, 0x5C6, "Put", [0x20, 0x01, 0x01, 0x13, 0x00], 1⟩,
      ⟨0, 0, 0x5C6, "Put", [0x20, 0x01, 0x01, 0x0E], 1⟩,
      ⟨0, 0, 0x1E1, "PutValue", [0x20, 0x01, 0x01, 0x08], 1⟩,
      ⟨0, 0, 0x1E1, "PutText", [0x20, 0x01, 0x01, 0x0E], 1⟩]
    typeSpecs := [⟨[0x15, 0x12, 0x04, 0x01, 0x08]⟩]
    interfaceImpls := [⟨2, ⟨0x1B000001⟩⟩]
    memberRefs := [⟨⟨0x1B000001⟩, "Put", [0x20, 0x01, 0x01, 0x13, 0x00]⟩,
      ⟨⟨0x1B000001⟩, "Put", [0x20, 0x01, 0x01, 0x0E]⟩]
    methodImpls := [⟨2, ⟨0x06000003⟩, ⟨0x0A000001⟩⟩, ⟨2, ⟨0x06000004⟩, ⟨0x0A000002⟩⟩]
    genericParams := [⟨0, 0, ⟨0x02000001⟩, "T"⟩] }
  version := Root.defaultVersion
  path? := none
  constants := []
  modules_ne_nil := Row.Module.named_ne_nil "Lib.dll"

/-- A registry in which the types are all there is besides the core library. -/
def cratesRegistry : Registry :=
  ({ modules := #[CoreLibrary.module, cratesModule], holders := [1] } : Registry).register 1

/-- The home of the types. -/
def cratesHome : Resident := ⟨1, cratesModule⟩

lemma cratesRegistry_follows : cratesRegistry.Follows cratesRegistry :=
  ((Registry.isFresh _ _).register 1).follows

lemma cratesRegistry_held : Session.outcome (heldModule? 1) cratesRegistry = .ok (some cratesHome) :=
  (cratesRegistry_follows.outcome_eq fun _ => inferInstance).1.trans
    (rfl : (heldModule? 1 : Afresh (Option Resident)).run cratesRegistry.view = _)

/-- A method of the class. -/
def storeMethod (row : UInt32) : MethodHandle := { declaring := .definition 1 2, module := 1, row }

/-- Each of the references means the method of the interface in its own row, and links a method of the class. -/
lemma cratesRegistry_checks : ([1, 2] : List UInt32).all fun row =>
    ((do
      let reference ← rowAt? cratesModule.tables.memberRefs row
      let signature ← (MethodSignature.decode reference.signature).toOption
      let parent ← ((typeToken cratesHome (.ofType 2) reference.parent : Afresh TypeHandle).run
        cratesRegistry.view).toOption
      let type ← cratesRegistry.view.type? parent
      let method ← (cratesRegistry.view.methodsOf type)[row.toNat - 1]?
      let spelled ← (signature.parameters.mapM fun parameter =>
        cratesRegistry.view.spell cratesHome (.ofMethod 1 (some 2) 0) parameter.toType).toOption
      let body ← (cratesRegistry.view.method (storeMethod (row + 2))).toOption
      return decide (method.name = reference.name ∧ method.genericCount = signature.genericCount.toNat ∧
        method.parameterTypes.map cratesRegistry.view.canonical = spelled.map (fun type =>
          cratesRegistry.view.canonical (type.substitute
            (cratesRegistry.view.typeArguments (cratesRegistry.view.canonical parent))
            (methodParameters method.handle.module method.handle.row method.genericCount))) ∧
        method.handle.row = row ∧ cratesRegistry.view.isInterfaceMethod? method = some true ∧
        body.handle.module = 1 ∧ body.definitionHandle = body.handle ∧ body.declaringRow = 2 ∧
        body.firstLink? cratesHome = some (body.handle.token, .ofParts .memberRef row)) :
          Option Bool) == some true) := by
  decide +kernel

/-- Both references are there, and one of them means a method that does not come first. -/
lemma cratesRegistry_references {row : UInt32} (h : row ∈ ([1, 2] : List UInt32)) :
    ∃ reference signature parent methods method body,
      cratesRegistry.Refers cratesHome 2 (.ofParts .memberRef row) reference signature parent methods ∧
      methods[row.toNat - 1]? = some method ∧
      cratesRegistry.view.Means cratesHome 2 reference signature parent method ∧
      method.handle.row = row ∧
      Session.outcome method.isInterfaceMethod? cratesRegistry = .ok (some true) ∧
      Session.outcome (getMethod (storeMethod (row + 2))) cratesRegistry = .ok body ∧
      cratesRegistry.IsLinked cratesHome 2 (.ofParts .memberRef row) body := by
  have hchecks := beq_iff_eq.mp (List.all_eq_true.mp cratesRegistry_checks row h)
  obtain ⟨reference, hreference, hchecks⟩ := Option.bind_eq_some_iff.mp hchecks
  obtain ⟨signature, hsignature, hchecks⟩ := Option.bind_eq_some_iff.mp hchecks
  obtain ⟨parent, hparent, hchecks⟩ := Option.bind_eq_some_iff.mp hchecks
  obtain ⟨type, htype, hchecks⟩ := Option.bind_eq_some_iff.mp hchecks
  obtain ⟨method, hmethod, hchecks⟩ := Option.bind_eq_some_iff.mp hchecks
  obtain ⟨spelled, hspelled, hchecks⟩ := Option.bind_eq_some_iff.mp hchecks
  obtain ⟨body, hbody, hchecks⟩ := Option.bind_eq_some_iff.mp hchecks
  obtain ⟨hname, hcount, htypes, hrow, hkind, hmodule, hdefinition, hdeclared, hlink⟩ :=
    of_decide_eq_true (Option.some.inj hchecks)
  have htoken : (Token.ofParts .memberRef row).isTable .memberRef ∧
      (Token.ofParts .memberRef row).row = row := by
    rcases List.mem_pair.mp h with rfl | rfl <;> decide
  refine ⟨reference, signature, parent, cratesRegistry.view.methodsOf type, method, body, ?_, hmethod, ?_, hrow,
    ?_, ?_, ?_⟩
  · refine ⟨htoken.1, ?_, toOption_eq_some.mp hsignature, ?_,
      cratesRegistry_follows.outcome_methodsIn htype⟩
    · rw [htoken.2]
      exact hreference
    exact (cratesRegistry_follows.outcome_eq fun _ => inferInstance).1.trans (toOption_eq_some.mp hparent)
  · exact ⟨hname, hcount, spelled, toOption_eq_some.mp hspelled, htypes⟩
  · rw [cratesRegistry_follows.outcome_isInterfaceMethod, hkind]
  · rw [cratesRegistry_follows.outcome_getMethod rfl rfl]
    exact toOption_eq_some.mp hbody
  · refine ⟨hdefinition, hdeclared, ?_, hlink⟩
    rw [hmodule]
    exact cratesRegistry_held

/-- The reference to the method for values stands for it, as it comes first, and it is implemented. -/
theorem cratesRegistry_value_bound :
    ∃ method body,
      Session.outcome (methodOfToken cratesHome (.ofType 2) (.ofParts .memberRef 1)) cratesRegistry =
        .ok method ∧
      Session.outcome (getMethod (storeMethod 3)) cratesRegistry = .ok body ∧
      Session.outcome body.implemented? cratesRegistry = .ok (some method) ∧ method.handle.row = 1 := by
  obtain ⟨reference, signature, parent, methods, method, body, hrefers, hmethod, hmeans, hrow, hkind, hbody,
    hlinked⟩ := @cratesRegistry_references 1 (by decide)
  have hfirst : method.ComesFirst reference signature methods := by
    cases methods with
    | nil => cases hmethod
    | cons first after =>
      obtain rfl : first = method := Option.some.inj hmethod
      exact ⟨[], after, rfl, fun _ hother => nomatch hother⟩
  obtain ⟨-, hbound, hfollowed⟩ :=
    cratesRegistry_follows.reference_bound_iff hrefers (List.mem_of_getElem? hmethod) hmeans
  exact ⟨method, body, hbound.mpr hfirst, hbody, ((hfollowed body hlinked).1 hkind).mpr hfirst, hrow⟩

/-- The reference to the method for texts stands for the one for values, which has the same name and as many
parameters, and it is that one that is implemented. -/
theorem cratesRegistry_text_mistaken :
    ∃ reference signature parent methods method bound body,
      cratesRegistry.Refers cratesHome 2 (.ofParts .memberRef 2) reference signature parent methods ∧
      method ∈ methods ∧ cratesRegistry.view.Means cratesHome 2 reference signature parent method ∧
      method.handle.row = 2 ∧ bound.handle.row = 1 ∧
      Session.outcome (methodOfToken cratesHome (.ofType 2) (.ofParts .memberRef 2)) cratesRegistry =
        .ok bound ∧
      Session.outcome (getMethod (storeMethod 4)) cratesRegistry = .ok body ∧
      cratesRegistry.IsLinked cratesHome 2 (.ofParts .memberRef 2) body ∧
      Session.outcome body.implemented? cratesRegistry = .ok (some bound) := by
  obtain ⟨reference, signature, parent, methods, method, body, hrefers, hmethod, hmeans, hrow, -, hbody,
    hlinked⟩ := @cratesRegistry_references 2 (by decide)
  have hmistaken : ((methodOfToken cratesHome (.ofType 2) (.ofParts .memberRef 2) :
      Afresh MethodInfo).run cratesRegistry.view).toOption.map (fun bound =>
        (bound.handle.row, cratesRegistry.view.isInterfaceMethod? bound)) = some (1, some true) := by
    decide +kernel
  obtain ⟨bound, hbound, hfacts⟩ := Option.map_eq_some_iff.mp hmistaken
  obtain ⟨hfirst, hinterface⟩ := Prod.mk.inj hfacts
  have houtcome : Session.outcome (methodOfToken cratesHome (.ofType 2) (.ofParts .memberRef 2))
      cratesRegistry = .ok bound :=
    (cratesRegistry_follows.outcome_methodOfToken _ _).trans (toOption_eq_some.mp hbound)
  have himplemented := (cratesRegistry_follows.outcome_of_isLinked hlinked houtcome).1
    ((cratesRegistry_follows.outcome_isInterfaceMethod bound).trans (congrArg _ hinterface))
  exact ⟨reference, signature, parent, methods, method, bound, body, hrefers,
    List.mem_of_getElem? hmethod, hmeans, hrow, hfirst, houtcome, hbody, hlinked, himplemented⟩

end CliMetadata
