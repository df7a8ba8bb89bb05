import CliMetadata.Reference.Resolve
import CliMetadata.Proofs.Reference.Names
import CliMetadata.Proofs.TypeSystem.DeclaredMembers

/-!
# Resolving under a fixed set of modules

The type at a path and the member that a reference names, as plain functions of the modules. In a
session resolving a reference comes to the same.
-/

namespace CliMetadata

/-- Among candidates the first one with the given parameters; if none are given, the first one
without parameters, or else the first one of all. -/
def selected? {α : Type} (parameters? : Option (List TypeName))
    (signature : α → Option (List TypeName)) (candidates : List α) : Option α :=
  match parameters? with
  | some parameters => candidates.find? fun candidate => namesAre (signature candidate) parameters
  | none =>
    (candidates.find? fun candidate => namesAre (signature candidate) []).or candidates.head?

namespace View

variable (view : View)

/-- The type at a path in a module: the one with the longest namespace of those that can be
loaded. -/
def typeAtWithin? (home : Resident) (path : List String) : Option UInt32 :=
  (List.range path.length).reverse.findSome? fun split =>
    (home.module.findPath? path split).filter fun row =>
      (view.typeDefinition home.id row).toOption.isSome

/-- The type at a path, in the first module that has one. -/
def typeAt? (path : List String) : Option (Resident × UInt32) :=
  view.searchOrder.findSome? fun home => (view.typeAtWithin? home path).map (home, ·)

/-- A method has the name, the number of generic parameters and the return type that a reference
spells. -/
def fits (reference : CodeReference) (name : String) (method : MethodInfo) : Bool :=
  referenceName method.name == name &&
    reference.arity.all (fun arity => method.genericCount == arity.toNat) &&
    reference.returnType.all fun expected => view.typeName? method.returnType == some expected

/-- The member of a type that a reference names. -/
def memberNamed? (home : Resident) (row : UInt32) (reference : CodeReference) (name : String) :
    Option Member :=
  match reference.kind with
  | .method =>
    (selected? reference.parameters (fun method => view.typeNames? method.parameterTypes)
      ((view.methods home row).filter (view.fits reference name))).map .method
  | .property =>
    (selected? reference.parameters (fun property => view.typeNames? property.indexTypes)
      ((view.properties home row).filter fun property => referenceName property.name == name)).map
        .property
  | .field => ((view.fields home row).find? (referenceName ·.name == name)).map .field
  | .event => ((view.events home row).find? (referenceName ·.name == name)).map .event
  | .space | .type => none

/-- The place of a type that is found is in a module that is searched. -/
lemma mem_searchOrder_of_typeAt? {path : List String} {home : Resident} {row : UInt32}
    (h : view.typeAt? path = some (home, row)) : home ∈ view.searchOrder := by
  obtain ⟨found, hfound, hplace⟩ := List.exists_of_findSome?_eq_some h
  obtain ⟨row, -, hsame⟩ := Option.map_eq_some_iff.mp hplace
  obtain rfl : found = home := congrArg Prod.fst hsame
  exact hfound

/-- The member that a reference names. -/
def resolve? (reference : CodeReference) : Option Member := do
  let (home, row) ← view.typeAt? reference.path
  view.memberNamed? home row reference (← reference.member)

end View

namespace Session

variable {α β γ : Type} {view : View} {among : Registry → Prop}

/-! ## Searching -/

/-- What is found first is what a plain function finds first. -/
lemma succeeds_firstFound {find : α → Session (Option β)} {f : α → Option γ} {R : γ → β → Prop}
    {items : List α}
    (hfind : ∀ item ∈ items, Succeeds among (find item) (Option.Rel R (f item))) :
    Succeeds among (MethodInfo.firstFound find items) (Option.Rel R (items.findSome? f)) := by
  induction items with
  | nil => exact (yields_pure none).ensures ⟨none, rfl, .none⟩
  | cons item items ih =>
    have hothers := ih fun other hother => hfind other (List.mem_cons_of_mem item hother)
    rw [MethodInfo.firstFound, List.findSome?_cons]
    refine (hfind item List.mem_cons_self).bind fun found? hfound => ?_
    generalize f item = expected at hfound
    cases hfound with
    | none => exact hothers
    | some hfound => exact (yields_pure _).ensures ⟨_, rfl, .some hfound⟩

lemma yields_firstWith {test : α → Session Bool} {f : α → Bool} {items : List α}
    (htest : ∀ item ∈ items, Yields among (test item) (.ok (f item))) :
    Yields among (MethodInfo.firstWith test items) (.ok (items.find? f)) := by
  induction items with
  | nil => exact yields_pure none
  | cons item items ih =>
    have hothers := ih fun other hother => htest other (List.mem_cons_of_mem item hother)
    rw [MethodInfo.firstWith, MethodInfo.firstFound, bind_assoc]
    refine (htest item List.mem_cons_self).bind ?_
    cases hitem : f item with
    | false =>
      rw [List.find?_cons_of_neg (by simp [hitem])]
      exact hothers
    | true =>
      rw [List.find?_cons_of_pos hitem]
      exact yields_pure (some item)

lemma yields_select {parameters? : Option (List TypeName)}
    {signature : α → Session (Option (List TypeName))} {f : α → Option (List TypeName)}
    {candidates : List α}
    (hsignature : ∀ candidate ∈ candidates, Yields among (signature candidate) (.ok (f candidate))) :
    Yields among (select? parameters? signature candidates)
      (.ok (selected? parameters? f candidates)) := by
  have htest (parameters : List TypeName) :
      Yields among
        (MethodInfo.firstWith (fun candidate => return namesAre (← signature candidate) parameters)
          candidates)
        (.ok (candidates.find? fun candidate => namesAre (f candidate) parameters)) :=
    yields_firstWith fun candidate hcandidate => (hsignature candidate hcandidate).bind (yields_pure _)
  cases parameters? with
  | some parameters => exact htest parameters
  | none => exact (htest []).bind (yields_pure _)

/-! ## Resolving -/

section

variable (hobjects : view.DescribesObjects among)
include hobjects

/-- The type at a path is found in a module, as its row makes it. -/
lemma succeeds_findSplit (home : Resident) (path : List String) (split : Nat) :
    Succeeds among
      (do
        match home.module.findPath? path split with
        | some row => findType? (home.definition row)
        | none => return none)
      (Option.Rel (fun row (type : TypeInfo) => type.IsDefinitionOf home row)
        ((home.module.findPath? path split).filter fun row =>
          (view.typeDefinition home.id row).toOption.isSome)) := by
  cases home.module.findPath? path split with
  | none => exact (yields_pure none).ensures ⟨none, rfl, .none⟩
  | some row =>
    refine (succeeds_findDefinition hobjects home row).mono fun outcome h => ?_
    obtain ⟨found?, rfl, hsome, hdefinition⟩ := h
    refine ⟨found?, rfl, ?_⟩
    rw [Option.filter_some, ← hsome]
    cases found? with
    | none => exact .none
    | some type => exact .some (hdefinition type rfl)

/-- The type at a path is found, as its row makes it. -/
lemma succeeds_findTypeAt (path : List String) :
    Succeeds among (findTypeAt? path)
      (Option.Rel (fun (place : Resident × UInt32) type => type.IsDefinitionOf place.1 place.2)
        (view.typeAt? path)) := by
  refine (yields_searchOrder hobjects.toDescribes).bind ?_
  refine succeeds_firstFound fun home _ => ?_
  refine Ensures.mono (succeeds_firstFound fun split _ =>
    succeeds_findSplit hobjects home path split) fun outcome h => ?_
  obtain ⟨found?, rfl, hfound⟩ := h
  refine ⟨found?, rfl, ?_⟩
  rw [View.typeAtWithin?]
  generalize List.findSome? _ _ = row? at hfound
  cases hfound with
  | none => exact .none
  | some hdefinition => exact .some hdefinition

/-- A return type is compared with the one that a reference spells. -/
lemma yields_returns (method : MethodInfo) (expected? : Option TypeName) :
    Yields among
      (match expected? with
      | some expected => do
        match ← typeName? method.returnType with
        | some returned => return returned == expected
        | none => return false
      | none => return true)
      (.ok (expected?.all fun expected => view.typeName? method.returnType == some expected)) := by
  cases expected? with
  | none => exact yields_pure true
  | some expected =>
    refine (yields_typeName hobjects.toDescribes method.returnType).bind ?_
    cases view.typeName? method.returnType <;> exact yields_pure _

section

variable {home : Resident} {row : UInt32} {type : TypeInfo}
  (hhome : view.held? home.id = some home.module) (htype : type.IsDefinitionOf home row)
  (reference : CodeReference) (name : String)
include hhome htype

lemma yields_method :
    Yields among (reference.method? type name)
      (.ok (selected? reference.parameters (fun method => view.typeNames? method.parameterTypes)
        ((view.methods home row).filter (view.fits reference name)))) := by
  have hnames := yields_typeNames hobjects.toDescribes
  refine (yields_allMethods hobjects hhome htype).bind ?_
  refine Yields.bind (yields_filterM fun method _ => ?_) (yields_select fun method _ => hnames _)
  rw [View.fits]
  -- The session stops at the first test that fails. The plain function takes them all, which comes
  -- to the same.
  by_cases hname : referenceName method.name = name
  · have hreturn := yields_returns hobjects method reference.returnType
    simp only [hname, ne_eq, not_true_eq_false, if_false, beq_self_eq_true, Bool.true_and]
    cases reference.arity with
    | none => exact hreturn
    | some arity =>
      by_cases hcount : method.genericCount = arity.toNat
      · simp only [hcount, not_true_eq_false, if_false, Option.all_some, beq_self_eq_true,
          Bool.true_and]
        exact hreturn
      · simp only [hcount, not_false_eq_true, if_true, Option.all_some,
          beq_eq_false_iff_ne.mpr hcount, Bool.false_and]
        exact yields_pure false
  · simp only [hname, ne_eq, not_false_eq_true, if_true, beq_eq_false_iff_ne.mpr hname,
      Bool.false_and]
    exact yields_pure false

lemma yields_property :
    Yields among (reference.property? type name)
      (.ok (selected? reference.parameters (fun property => view.typeNames? property.indexTypes)
        ((view.properties home row).filter fun property =>
          referenceName property.name == name))) :=
  (yields_properties hobjects hhome htype).bind
    (yields_select fun _ _ => yields_typeNames hobjects.toDescribes _)

end

/-- What is looked up in the type at a path is looked up in its definition. -/
lemma yields_inTypeAt {path : List String} {next : TypeInfo → Session (Option Member)}
    {expected : Resident × UInt32 → Option Member}
    (hnext : ∀ home row type, home ∈ view.searchOrder → type.IsDefinitionOf home row →
      Yields among (next type) (.ok (expected (home, row)))) :
    Yields among
      (do
        let some declaring ← findTypeAt? path | return none
        next declaring)
      (.ok ((view.typeAt? path).bind expected)) := by
  refine (succeeds_findTypeAt hobjects path).bind fun found? hfound => ?_
  cases hplace : view.typeAt? path with
  | none =>
    rw [hplace] at hfound
    cases hfound
    exact yields_pure none
  | some place =>
    rw [hplace] at hfound
    cases hfound with
    | some hdefinition =>
      exact hnext place.1 place.2 _ (view.mem_searchOrder_of_typeAt? hplace) hdefinition

/-- Resolving the reference of a member comes to the same in a session. -/
lemma yields_resolve (hheld : ∀ home ∈ view.searchOrder, view.held? home.id = some home.module)
    {reference : CodeReference} (hkind : reference.kind.isMember = true) :
    Yields among reference.resolve? (.ok (view.resolve? reference)) := by
  obtain ⟨kind, path, member, arity, parameters, returnType⟩ := reference
  cases kind with
  | space => exact absurd hkind (by simp [ReferenceKind.isMember])
  | type => exact absurd hkind (by simp [ReferenceKind.isMember])
  | method =>
    refine yields_inTypeAt hobjects fun home row type hhome htype => ?_
    cases member with
    | none => exact yields_pure none
    | some name =>
      exact (yields_method hobjects (hheld home hhome) htype _ name).bind (yields_pure _)
  | property =>
    refine yields_inTypeAt hobjects fun home row type hhome htype => ?_
    cases member with
    | none => exact yields_pure none
    | some name =>
      exact (yields_property hobjects (hheld home hhome) htype _ name).bind (yields_pure _)
  | field =>
    refine yields_inTypeAt hobjects fun home row type hhome htype => ?_
    cases member with
    | none => exact yields_pure none
    | some name => exact (yields_fields hobjects (hheld home hhome) htype).bind (yields_pure _)
  | event =>
    refine yields_inTypeAt hobjects fun home row type hhome htype => ?_
    cases member with
    | none => exact yields_pure none
    | some name => exact (yields_events hobjects (hheld home hhome) htype).bind (yields_pure _)

end

end Session

end CliMetadata
