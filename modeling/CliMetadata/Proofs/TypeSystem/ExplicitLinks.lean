import CliMetadata.Proofs.TypeSystem.ImplementedInterfaces
import CliMetadata.Proofs.TypeSystem.InheritedMembers

/-!
# Links that a type declares

A type may say of its methods which methods of base types and interfaces they stand for. Several links may
concern one method, but only the first one is followed, both for what the method overrides and for what it
implements. If it does not lead to a method of the kind that is asked for, a method with the same name is
searched instead, and the other links are not looked at.
-/

namespace CliMetadata

/-! ## The first link -/

/-- What comes of the method that a first link leads to, if a method of one kind is asked for: that method, if
it is of the kind, and otherwise what a search gives. -/
def followFirst (kind? : MethodInfo → Option Bool) (asked : Bool)
    (search : Except Error (Option MethodInfo)) : Option MethodInfo → Except Error (Option MethodInfo)
  | none => search
  | some declared =>
    match kind? declared with
    | none => .ok none
    | some kind => if kind = asked then .ok (some declared) else search

/-- A method that links lead to is given if the first link leads to it and it is of the kind, or if the search
is made and finds it. -/
lemma followFirst_eq_iff {kind? : MethodInfo → Option Bool} {asked : Bool}
    {search : Except Error (Option MethodInfo)} {first? : Option MethodInfo} {found : MethodInfo} {P : Prop}
    (hfirst : first? = some found → kind? found = some asked → P) :
    (followFirst kind? asked search first? = .ok (some found) ∧ P) ↔
      (first? = some found ∧ kind? found = some asked) ∨
        (∀ declared, first? = some declared → kind? declared = some !asked) ∧
          search = .ok (some found) ∧ P := by
  cases first? with
  | none => simp [followFirst]
  | some declared =>
    cases hkind : kind? declared with
    | none =>
      -- Nothing is given, and no search is made either.
      have hnot : ¬(declared = found ∧ kind? found = some asked) := by
        rintro ⟨rfl, hasked⟩
        cases hkind.symm.trans hasked
      simp [followFirst, hkind, hnot]
    | some kind =>
      by_cases hsame : kind = asked
      · -- The method is given, so that no other one can be.
        subst hsame
        have hgiven : followFirst kind? kind search (some declared) = .ok (some declared) := by
          simp [followFirst, hkind]
        rw [hgiven]
        constructor
        · rintro ⟨hfound, -⟩
          obtain rfl : declared = found := Option.some.inj (Except.ok.inj hfound)
          exact .inl ⟨rfl, hkind⟩
        · rintro (⟨hdeclared, hasked⟩ | ⟨hother, -⟩)
          · obtain rfl := Option.some.inj hdeclared
            exact ⟨rfl, hfirst rfl hasked⟩
          · have hopposite := hkind.symm.trans (hother declared rfl)
            cases kind <;> cases hopposite
      -- The method is of the other kind, so the search decides.
      · have hother : kind = !asked := by cases kind <;> cases asked <;> simp_all
        have hnot : ¬(declared = found ∧ kind? found = some asked) := by
          rintro ⟨rfl, hasked⟩
          exact hsame (Option.some.inj (hkind.symm.trans hasked))
        simp [followFirst, hkind, hother, hnot]

/-- The first link of a method in its module. -/
def MethodInfo.firstLink? (method : MethodInfo) (home : Resident) : Option (Token × Token) :=
  (home.module.methodImpls method.declaringRow).find? (·.1 == method.handle.token)

namespace View

variable {view : View}

/-- The method that a link of the type in a row leads to. -/
def linked? (view : View) (home : Resident) (row : UInt32) (link : Token × Token) : Option MethodInfo :=
  ((methodOfToken home (.ofType row) link.2 : Afresh MethodInfo).run view).toOption

/-- A method is one of an interface; nothing if its type can not be loaded. -/
def isInterfaceMethod? (view : View) (method : MethodInfo) : Option Bool :=
  (view.type? method.handle.declaring).map (·.kind == .interface)

end View

namespace Afresh

variable {view : View} {home : Resident} {method : MethodInfo}

/-- Whether a method belongs to an interface is answered as in the view. -/
lemma run_isInterfaceMethod (method : MethodInfo) :
    (method.isInterfaceMethod? : Afresh (Option Bool)).run view = .ok (view.isInterfaceMethod? method) := by
  rw [MethodInfo.isInterfaceMethod?, MethodInfo.declaringType?, ReaderT.run_bind, run_findType, ok_bind]
  rfl

/-- What is found by a test has what the test stands for. -/
lemma finds_firstWith_of_test {α : Type} {P : α → Prop} {test : α → Afresh Bool} {items : List α}
    (htest : ∀ item, Gives view (fun holds => holds = true → P item) (test item)) :
    Finds view P (MethodInfo.firstWith test items) := by
  refine finds_firstFound fun item _ => (htest item).bind fun holds hholds => gives_pure fun found h => ?_
  cases holds with
  | false => cases h
  | true => exact Option.some.inj h ▸ hholds rfl

/-- A method as its type defines it is its own definition. -/
lemma run_memberDefinition (hdefinition : method.definitionHandle = method.handle) :
    (method.memberDefinition : Afresh MethodInfo).run view = .ok method := by
  rw [MethodInfo.memberDefinition, if_pos hdefinition]
  rfl

/-- What is found for a method as its type defines it needs no arguments. -/
lemma run_projectFound (hdefinition : method.definitionHandle = method.handle)
    (found? : Option MethodInfo) :
    (match found? with
      | some found => some <$> method.project found
      | none => return none : Afresh (Option MethodInfo)).run view = .ok found? := by
  cases found? with
  | none => rfl
  | some found =>
    simp only
    rw [ReaderT.run_map, MethodInfo.project, ← hdefinition, MethodInfo.definitionHandle, ite_self]
    rfl

/-- On its own definition a method is asked for what it overrides there. -/
lemma run_overridden (hdefinition : method.definitionHandle = method.handle) :
    (method.overridden? : Afresh (Option MethodInfo)).run view =
      (method.overriddenOnDefinition : Afresh (Option MethodInfo)).run view := by
  rw [MethodInfo.overridden?, ReaderT.run_bind, run_memberDefinition hdefinition, ok_bind, ReaderT.run_bind]
  obtain ⟨found?, hfound, -⟩ := @finds_overriddenOnDefinition view method
  rw [hfound, ok_bind]
  exact run_projectFound hdefinition found?

lemma run_implemented (hdefinition : method.definitionHandle = method.handle) :
    (method.implemented? : Afresh (Option MethodInfo)).run view =
      (method.implementedOnDefinition : Afresh (Option MethodInfo)).run view := by
  rw [MethodInfo.implemented?, ReaderT.run_bind, run_memberDefinition hdefinition, ok_bind, ReaderT.run_bind]
  obtain ⟨found?, hfound, -⟩ := @finds_implementedOnDefinition view method
  rw [hfound, ok_bind]
  exact run_projectFound hdefinition found?

section

variable (hhome : (heldModule? method.handle.module : Afresh (Option Resident)).run view = .ok (some home))
include hhome

/-- The explicit links of a type are the rows about it. -/
lemma run_methodImpls :
    (method.methodImpls : Afresh (Option (Resident × List (Token × Token)))).run view =
      .ok (some (home, home.module.methodImpls method.declaringRow)) := by
  rw [MethodInfo.methodImpls, ReaderT.run_bind, hhome]
  rfl

/-- The explicit declaration is what the first link leads to. -/
lemma run_explicitDeclaration :
    (method.explicitDeclaration? : Afresh (Option MethodInfo)).run view =
      .ok ((method.firstLink? home).bind (view.linked? home method.declaringRow)) := by
  rw [MethodInfo.explicitDeclaration?, ReaderT.run_bind, run_methodImpls hhome, ok_bind,
    MethodInfo.firstLink?]
  simp only
  cases (home.module.methodImpls method.declaringRow).find? (·.1 == method.handle.token) with
  | none => rfl
  | some link => exact run_attempt view _

lemma run_explicitlyImplemented :
    (method.explicitlyImplemented : Afresh (List MethodInfo)).run view =
      .ok ((home.module.methodImpls method.declaringRow).filterMap
        (view.linked? home method.declaringRow)) := by
  rw [MethodInfo.explicitlyImplemented, ReaderT.run_bind, run_methodImpls hhome, ok_bind]
  exact run_filterMapM view fun link _ => run_attempt view _

/-- What is overridden is the first link, if it leads to a class, or else found in the bases. -/
lemma run_overriddenOnDefinition (hkind : method.kind ≠ .constructor) (hvirtual : method.isVirtual)
    (hslot : MemberFlags.has method.flags MethodFlags.newSlot = false) :
    (method.overriddenOnDefinition : Afresh (Option MethodInfo)).run view =
      followFirst view.isInterfaceMethod? false
        ((method.overriddenInBases : Afresh (Option MethodInfo)).run view)
        ((method.firstLink? home).bind (view.linked? home method.declaringRow)) := by
  rw [MethodInfo.overriddenOnDefinition, if_neg (by simp [hkind, hvirtual, hslot]), ReaderT.run_bind,
    run_explicitDeclaration hhome, ok_bind]
  cases (method.firstLink? home).bind (view.linked? home method.declaringRow) with
  | none => rfl
  | some declared =>
    simp only [ReaderT.run_bind, run_isInterfaceMethod, ok_bind, followFirst]
    rcases view.isInterfaceMethod? declared with - | - | - <;> rfl

lemma run_implementedOnDefinition :
    (method.implementedOnDefinition : Afresh (Option MethodInfo)).run view =
      followFirst view.isInterfaceMethod? true
        ((method.implementedInInterfaces : Afresh (Option MethodInfo)).run view)
        ((method.firstLink? home).bind (view.linked? home method.declaringRow)) := by
  rw [MethodInfo.implementedOnDefinition, ReaderT.run_bind, run_explicitDeclaration hhome, ok_bind]
  cases (method.firstLink? home).bind (view.linked? home method.declaringRow) with
  | none => rfl
  | some declared =>
    simp only [ReaderT.run_bind, run_isInterfaceMethod, ok_bind, followFirst]
    rcases view.isInterfaceMethod? declared with - | - | - <;> rfl

/-- Among interfaces no method is found that some link leads to. -/
lemma finds_implementedInInterfaces_unlinked :
    Finds view (fun found => ∀ link ∈ home.module.methodImpls method.declaringRow,
      view.linked? home method.declaringRow link ≠ some found) method.implementedInInterfaces := by
  unfold MethodInfo.implementedInInterfaces
  split
  · exact finds_none
  refine Gives.bind ⟨_, run_explicitlyImplemented hhome, rfl⟩ fun explicit hexplicit => ?_
  refine (gives_findType method.handle.declaring).bind fun declaring? _ => ?_
  cases declaring? with
  | none => exact finds_none
  | some declaring =>
    refine Gives.bind (P := fun _ => True) ⟨_, run_implementedInterfaces declaring, trivial⟩
      fun interfaces _ => ?_
    refine finds_firstFound fun interface _ => ?_
    refine Gives.bind (P := fun _ => True) ⟨_, run_allMethods interface, trivial⟩ fun methods _ => ?_
    refine finds_firstWith_of_test fun candidate => ?_
    split
    · exact gives_pure fun h => nomatch h
    -- A candidate is tested only if no link of the type leads to it.
    next hfree =>
      obtain ⟨same, hrun, -⟩ := @gives_sameSignature view method candidate
      refine ⟨same, hrun, fun _ link hlink hlinked => hfree ?_⟩
      rw [← hexplicit, List.contains_iff_mem]
      exact List.mem_map_of_mem (List.mem_filterMap.mpr ⟨link, hlink, hlinked⟩)

end

end Afresh

/-! ## In a session -/

namespace Registry

section

variable (registry : Registry) (home : Resident) (method : MethodInfo)

/-- A registry answers that a link of a method's type leads to a method, of an interface or of a class. -/
def LinksTo (link : Token × Token) (isInterface : Bool) (declared : MethodInfo) : Prop :=
  Session.outcome (methodOfToken home (.ofType method.declaringRow) link.2) registry = .ok declared ∧
    Session.outcome declared.isInterfaceMethod? registry = .ok (some isInterface)

/-- Some link binds a method to one of an interface or of a class. -/
def Binds (isInterface : Bool) (declared : MethodInfo) : Prop :=
  ∃ link ∈ home.module.methodImpls method.declaringRow, link.1 = method.handle.token ∧
    registry.LinksTo home method link isInterface declared

/-- The first link of a method binds it to one of an interface or of a class. -/
def FirstBinds (isInterface : Bool) (declared : MethodInfo) : Prop :=
  ∃ link, method.firstLink? home = some link ∧ registry.LinksTo home method link isInterface declared

/-- The first link of a method, if there is one and it leads to a method, binds it to one of an interface. -/
def FirstIsOther : Prop :=
  ∀ link, method.firstLink? home = some link → ∀ declared,
    Session.outcome (methodOfToken home (.ofType method.declaringRow) link.2) registry = .ok declared →
      Session.outcome declared.isInterfaceMethod? registry = .ok (some true)

end

variable {used fresh : Registry} {home : Resident} {method : MethodInfo}

/-- A method whose first link binds it is bound. -/
lemma FirstBinds.binds {isInterface : Bool} {declared : MethodInfo}
    (h : used.FirstBinds home method isInterface declared) : used.Binds home method isInterface declared := by
  obtain ⟨link, hfirst, hlinks⟩ := h
  exact ⟨link, List.mem_of_find?_eq_some hfirst, beq_iff_eq.mp (List.find?_some hfirst :), hlinks⟩

variable (h : used.Follows fresh)
include h

/-- A method of a type definition is found anew. -/
lemma Follows.outcome_getMethod {handle : MethodHandle} {owner : ModuleId} {row : UInt32}
    (hplain : handle.arguments = []) (hdeclaring : handle.declaring = .definition owner row) :
    Session.outcome (getMethod handle) used = fresh.view.method handle := by
  have hsame : Session.outcome (getMethod handle) used =
      (getMethod handle : Afresh MethodInfo).run fresh.view := (h.outcome_eq fun _ => inferInstance).1
  rw [hsame, Afresh.run_getMethod, View.canonicalMethod_of_definition hplain hdeclaring]

/-- The method of a token does not depend on what was asked before. -/
lemma Follows.outcome_methodOfToken (row : UInt32) (token : Token) :
    Session.outcome (methodOfToken home (.ofType row) token) used =
      (methodOfToken home (.ofType row) token : Afresh MethodInfo).run fresh.view :=
  (h.outcome_eq fun _ => inferInstance).1

lemma Follows.outcome_isInterfaceMethod (method : MethodInfo) :
    Session.outcome method.isInterfaceMethod? used = .ok (fresh.view.isInterfaceMethod? method) := by
  rw [← Afresh.run_isInterfaceMethod]
  exact (h.outcome_eq fun _ => inferInstance).1

/-- A link leads to what the view finds for it. -/
lemma Follows.linksTo_iff {link : Token × Token} {isInterface : Bool} {declared : MethodInfo} :
    used.LinksTo home method link isInterface declared ↔
      fresh.view.linked? home method.declaringRow link = some declared ∧
        fresh.view.isInterfaceMethod? declared = some isInterface := by
  rw [LinksTo, h.outcome_methodOfToken, h.outcome_isInterfaceMethod, View.linked?, toOption_eq_some,
    Except.ok.injEq]

lemma Follows.firstBinds_iff {isInterface : Bool} {declared : MethodInfo} :
    used.FirstBinds home method isInterface declared ↔
      (method.firstLink? home).bind (fresh.view.linked? home method.declaringRow) = some declared ∧
        fresh.view.isInterfaceMethod? declared = some isInterface := by
  rw [FirstBinds, Option.bind_eq_some_iff]
  constructor
  · rintro ⟨link, hfirst, hlinks⟩
    obtain ⟨hlinked, hkind⟩ := h.linksTo_iff.mp hlinks
    exact ⟨⟨link, hfirst, hlinked⟩, hkind⟩
  · rintro ⟨⟨link, hfirst, hlinked⟩, hkind⟩
    exact ⟨link, hfirst, h.linksTo_iff.mpr ⟨hlinked, hkind⟩⟩

lemma Follows.binds_of_first {isInterface : Bool} {declared : MethodInfo}
    (hfirst : (method.firstLink? home).bind (fresh.view.linked? home method.declaringRow) = some declared)
    (hkind : fresh.view.isInterfaceMethod? declared = some isInterface) :
    used.Binds home method isInterface declared :=
  (h.firstBinds_iff.mpr ⟨hfirst, hkind⟩).binds

/-- The first link goes elsewhere if what it leads to belongs to an interface. -/
lemma Follows.firstIsOther_iff :
    used.FirstIsOther home method ↔ ∀ declared,
      (method.firstLink? home).bind (fresh.view.linked? home method.declaringRow) = some declared →
        fresh.view.isInterfaceMethod? declared = some true := by
  rw [FirstIsOther]
  constructor
  · intro hother declared hdeclared
    obtain ⟨link, hfirst, hlinked⟩ := Option.bind_eq_some_iff.mp hdeclared
    have houtcome := hother link hfirst declared
      ((h.outcome_methodOfToken _ _).trans (toOption_eq_some.mp hlinked))
    exact Except.ok.inj ((h.outcome_isInterfaceMethod declared).symm.trans houtcome)
  · intro hother link hfirst declared hdeclared
    rw [h.outcome_isInterfaceMethod, hother declared]
    rw [hfirst, Option.bind_some, View.linked?, ← h.outcome_methodOfToken, hdeclared]
    rfl

variable (hhome : Session.outcome (heldModule? method.handle.module) used = .ok (some home))
include hhome

/-- The module of the method is the one that is held. -/
lemma Follows.run_heldModule :
    (heldModule? method.handle.module : Afresh (Option Resident)).run fresh.view = .ok (some home) :=
  (h.outcome_eq fun _ => inferInstance).1.symm.trans hhome

variable (hdefinition : method.definitionHandle = method.handle)
include hdefinition

/-- An implemented method is one that a link binds exactly if the first link does. -/
lemma Follows.implemented_binds_iff (declared : MethodInfo) :
    Session.outcome method.implemented? used = .ok (some declared) ∧
        used.Binds home method true declared ↔
      used.FirstBinds home method true declared := by
  have hhome := h.run_heldModule hhome
  rw [(h.outcome_eq fun _ => Session.SameAfresh.implemented method).1, Afresh.run_implemented hdefinition,
    Afresh.run_implementedOnDefinition hhome, followFirst_eq_iff h.binds_of_first, h.firstBinds_iff, or_iff_left]
  -- The search leaves out what links lead to, so what it finds is bound by none of them.
  rintro ⟨-, hsearch, link, hlink, -, hlinks⟩
  obtain ⟨found?, hfound, hunlinked⟩ := Afresh.finds_implementedInInterfaces_unlinked hhome
  obtain rfl := Except.ok.inj (hfound.symm.trans hsearch)
  exact hunlinked declared rfl link hlink (h.linksTo_iff.mp hlinks).1

/-- An overridden method is one that a link binds exactly if the first link does, or if the first link is
passed over and a link binds the method that is searched. -/
lemma Follows.overridden_binds_iff (hkind : method.kind ≠ .constructor) (hvirtual : method.isVirtual)
    (hslot : MemberFlags.has method.flags MethodFlags.newSlot = false) (declared : MethodInfo) :
    Session.outcome method.overridden? used = .ok (some declared) ∧
        used.Binds home method false declared ↔
      used.FirstBinds home method false declared ∨
        used.FirstIsOther home method ∧
          Session.outcome method.overriddenInBases used = .ok (some declared) ∧
            used.Binds home method false declared := by
  have hhome := h.run_heldModule hhome
  have hsearch : Session.outcome method.overriddenInBases used =
      (method.overriddenInBases : Afresh (Option MethodInfo)).run fresh.view :=
    (h.outcome_eq fun _ => inferInstance).1
  rw [(h.outcome_eq fun _ => Session.SameAfresh.overridden method).1, hsearch,
    Afresh.run_overridden hdefinition, Afresh.run_overriddenOnDefinition hhome hkind hvirtual hslot,
    followFirst_eq_iff h.binds_of_first, h.firstBinds_iff, h.firstIsOther_iff]
  rfl

/-- **Declared links.** Of the methods that links of its type bind a method to, the one is reported that the
first link of the method leads to. Another one is reported only as the overridden method, if the first link is
passed over and the search in base types happens to find it. -/
theorem Follows.explicit_links_iff (declared : MethodInfo) :
    (method.kind ≠ .constructor → method.isVirtual →
        MemberFlags.has method.flags MethodFlags.newSlot = false →
      (Session.outcome method.overridden? used = .ok (some declared) ∧
          used.Binds home method false declared ↔
        used.FirstBinds home method false declared ∨
          used.FirstIsOther home method ∧
            Session.outcome method.overriddenInBases used = .ok (some declared) ∧
              used.Binds home method false declared)) ∧
      (Session.outcome method.implemented? used = .ok (some declared) ∧
          used.Binds home method true declared ↔
        used.FirstBinds home method true declared) := by
  refine ⟨fun hkind hvirtual hslot => ?_, h.implemented_binds_iff hhome hdefinition declared⟩
  exact h.overridden_binds_iff hhome hdefinition hkind hvirtual hslot declared

end Registry

/-! ## Two links of one method -/

/-- A module with an interface, a class and a class derived from both, which has two methods with two links
each: one of them is linked to a method of the interface first, the other one to one of the class first. -/
def linksModule : Module where
  tables := {
    modules := [.named "Lib.dll"]
    typeDefs := [⟨0xA1, "IMotor", "N", .null, 1, 1⟩, ⟨0x100001, "Gate", "N", .null, 1, 3⟩,
      ⟨0x100001, "Lift", "N", ⟨0x02000002⟩, 1, 5⟩]
    methods := [⟨0, 0, 0x5C6, "Start", [0x20, 0x00, 0x01], 1⟩, ⟨0, 0, 0x5C6, "Stop", [0x20, 0x00, 0x01], 1⟩,
      ⟨0, 0, 0x1C6, "Open", [0x20, 0x00, 0x01], 1⟩, ⟨0, 0, 0x1C6, "Close", [0x20, 0x00, 0x01], 1⟩,
      ⟨0, 0, 0xC6, "Run", [0x20, 0x00, 0x01], 1⟩, ⟨0, 0, 0xC6, "Halt", [0x20, 0x00, 0x01], 1⟩]
    interfaceImpls := [⟨3, ⟨0x02000001⟩⟩]
    methodImpls := [⟨3, ⟨0x06000005⟩, ⟨0x06000001⟩⟩, ⟨3, ⟨0x06000005⟩, ⟨0x06000003⟩⟩,
      ⟨3, ⟨0x06000006⟩, ⟨0x06000004⟩⟩, ⟨3, ⟨0x06000006⟩, ⟨0x06000002⟩⟩] }
  version := Root.defaultVersion
  path? := none
  constants := []
  modules_ne_nil := Row.Module.named_ne_nil "Lib.dll"

/-- A registry in which the types are all there is besides the core library. -/
def linksRegistry : Registry :=
  ({ modules := #[CoreLibrary.module, linksModule], holders := [1] } : Registry).register 1

/-- A method of the derived class. -/
def liftMethod (row : UInt32) : MethodHandle := { declaring := .definition 1 3, module := 1, row }

lemma linksRegistry_follows : linksRegistry.Follows linksRegistry :=
  ((Registry.isFresh _ _).register 1).follows

/-- The home of the types. -/
def linksHome : Resident := ⟨1, linksModule⟩

lemma linksRegistry_held :
    Session.outcome (heldModule? 1) linksRegistry = .ok (some linksHome) :=
  (linksRegistry_follows.outcome_eq fun _ => inferInstance).1.trans
    (rfl : (heldModule? 1 : Afresh (Option Resident)).run linksRegistry.view = _)

/-- Both methods are virtual and use no new slot. The first link of the one leads to a method of the interface
and the second one to one of the class, and those of the other one the other way round. -/
lemma linksRegistry_checks : ([5, 6] : List UInt32).all fun row =>
    ((do
      let method ← (linksRegistry.view.method (liftMethod row)).toOption
      let first ← (method.firstLink? linksHome).bind
        (linksRegistry.view.linked? linksHome method.declaringRow)
      let link ← (linksModule.methodImpls method.declaringRow)[if row = 5 then 1 else 3]?
      let second ← linksRegistry.view.linked? linksHome method.declaringRow link
      return decide (first.name = (if row = 5 then "Start" else "Close") ∧ link.1 = method.handle.token ∧
        linksRegistry.view.isInterfaceMethod? first = some (row == 5) ∧
        linksRegistry.view.isInterfaceMethod? second = some (row == 6) ∧
        method.handle = liftMethod row ∧ method.definitionHandle = method.handle ∧
        method.kind ≠ .constructor ∧ method.isVirtual ∧
        MemberFlags.has method.flags MethodFlags.newSlot = false) : Option Bool) == some true) := by
  decide +kernel

/-- Both methods have two links, the first of which decides. -/
lemma linksRegistry_links {row : UInt32} (h : row ∈ ([5, 6] : List UInt32)) :
    ∃ method first second,
      Session.outcome (getMethod (liftMethod row)) linksRegistry = .ok method ∧
      method.handle = liftMethod row ∧ method.definitionHandle = method.handle ∧
      method.kind ≠ .constructor ∧ method.isVirtual ∧
      MemberFlags.has method.flags MethodFlags.newSlot = false ∧
      first.name = (if row = 5 then "Start" else "Close") ∧
      linksRegistry.FirstBinds linksHome method (row == 5) first ∧
      linksRegistry.Binds linksHome method (row == 6) second := by
  have hchecks := beq_iff_eq.mp (List.all_eq_true.mp linksRegistry_checks row h)
  obtain ⟨method, hmethod, hchecks⟩ := Option.bind_eq_some_iff.mp hchecks
  obtain ⟨first, hfirst, hchecks⟩ := Option.bind_eq_some_iff.mp hchecks
  obtain ⟨link, hlink, hchecks⟩ := Option.bind_eq_some_iff.mp hchecks
  obtain ⟨second, hsecond, hchecks⟩ := Option.bind_eq_some_iff.mp hchecks
  obtain ⟨hname, htoken, hkind, hother, hhandle, hdefinition, hnot, hvirtual, hslot⟩ :=
    of_decide_eq_true (Option.some.inj hchecks)
  refine ⟨method, first, second, ?_, hhandle, hdefinition, hnot, hvirtual, hslot, hname, ?_, ?_⟩
  · rw [linksRegistry_follows.outcome_getMethod rfl rfl]
    exact toOption_eq_some.mp hmethod
  · exact linksRegistry_follows.firstBinds_iff.mpr ⟨hfirst, hkind⟩
  · exact ⟨link, List.mem_of_getElem? hlink, htoken,
      linksRegistry_follows.linksTo_iff.mpr ⟨hsecond, hother⟩⟩

/-- What is linked first is reported: a method of the interface as the one that is implemented, and one of the
class as the one that is overridden. -/
theorem linksRegistry_first_links_reported :
    (∃ run start, Session.outcome (getMethod (liftMethod 5)) linksRegistry = .ok run ∧
      start.name = "Start" ∧ Session.outcome run.implemented? linksRegistry = .ok (some start) ∧
      linksRegistry.Binds linksHome run true start) ∧
    ∃ halt close, Session.outcome (getMethod (liftMethod 6)) linksRegistry = .ok halt ∧
      close.name = "Close" ∧ Session.outcome halt.overridden? linksRegistry = .ok (some close) ∧
      linksRegistry.Binds linksHome halt false close := by
  constructor
  · obtain ⟨run, start, -, hrun, hhandle, hdefinition, -, -, -, hname, hfirst, -⟩ :=
      @linksRegistry_links 5 (by decide)
    have hheld : Session.outcome (heldModule? run.handle.module) linksRegistry = .ok (some linksHome) := by
      rw [hhandle]
      exact linksRegistry_held
    have hiff := linksRegistry_follows.explicit_links_iff hheld hdefinition start
    exact ⟨run, start, hrun, hname, hiff.2.mpr hfirst⟩
  · obtain ⟨halt, close, -, hhalt, hhandle, hdefinition, hkind, hvirtual, hslot, hname, hfirst, -⟩ :=
      @linksRegistry_links 6 (by decide)
    have hheld : Session.outcome (heldModule? halt.handle.module) linksRegistry = .ok (some linksHome) := by
      rw [hhandle]
      exact linksRegistry_held
    have hiff := linksRegistry_follows.explicit_links_iff hheld hdefinition close
    exact ⟨halt, close, hhalt, hname, (hiff.1 hkind hvirtual hslot).mpr (.inl hfirst)⟩

/-- What is linked second is not reported: the one method is linked to one of the class and overrides nothing,
and the other one is linked to one of the interface and implements nothing. -/
theorem linksRegistry_second_links_lost :
    (∃ run other, Session.outcome (getMethod (liftMethod 5)) linksRegistry = .ok run ∧
      run.kind ≠ .constructor ∧ run.isVirtual ∧ MemberFlags.has run.flags MethodFlags.newSlot = false ∧
      linksRegistry.Binds linksHome run false other ∧
      Session.outcome run.overridden? linksRegistry = .ok none) ∧
    ∃ halt other, Session.outcome (getMethod (liftMethod 6)) linksRegistry = .ok halt ∧
      linksRegistry.Binds linksHome halt true other ∧
      Session.outcome halt.implemented? linksRegistry = .ok none := by
  have hlost : ((do
      let run ← (linksRegistry.view.method (liftMethod 5)).toOption
      let halt ← (linksRegistry.view.method (liftMethod 6)).toOption
      let overridden? ← ((run.overridden? : Afresh (Option MethodInfo)).run linksRegistry.view).toOption
      let implemented? ← ((halt.implemented? : Afresh (Option MethodInfo)).run linksRegistry.view).toOption
      return overridden?.isNone && implemented?.isNone : Option Bool)) = some true := by
    decide +kernel
  obtain ⟨run, -, second, hrun, -, -, hkind, hvirtual, hslot, -, -, hsecond⟩ :=
    @linksRegistry_links 5 (by decide)
  obtain ⟨halt, -, other, hhalt, -, -, -, -, -, -, -, hother⟩ := @linksRegistry_links 6 (by decide)
  rw [toOption_eq_some.mpr ((linksRegistry_follows.outcome_getMethod rfl rfl).symm.trans hrun),
    toOption_eq_some.mpr ((linksRegistry_follows.outcome_getMethod rfl rfl).symm.trans hhalt)] at hlost
  simp only [Option.bind_eq_bind, Option.bind_some] at hlost
  obtain ⟨overridden?, hoverridden, hlost⟩ := Option.bind_eq_some_iff.mp hlost
  obtain ⟨implemented?, himplemented, hlost⟩ := Option.bind_eq_some_iff.mp hlost
  obtain ⟨rfl, rfl⟩ : overridden? = none ∧ implemented? = none := by simpa using hlost
  rw [toOption_eq_some, ← (linksRegistry_follows.outcome_eq fun _ => Session.SameAfresh.overridden run).1]
    at hoverridden
  rw [toOption_eq_some, ← (linksRegistry_follows.outcome_eq fun _ => Session.SameAfresh.implemented halt).1]
    at himplemented
  exact ⟨⟨run, second, hrun, hkind, hvirtual, hslot, hsecond, hoverridden⟩,
    halt, other, hhalt, hother, himplemented⟩

end CliMetadata
