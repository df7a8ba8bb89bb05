import CliMetadata.Reference.Format
import CliMetadata.Proofs.Reference.TypeNames
import CliMetadata.Proofs.Registry.Outcome

/-!
# Names under a fixed set of modules

The name of a type in a parameter list as a plain function of the modules. In a session naming a type
comes to the same.
-/

namespace CliMetadata

namespace View

variable (view : View)

/-! ## Names -/

/-- The name of a definition with arguments. -/
def definitionName? (owner : ModuleId) (row : UInt32) (arguments : Module → List TypeName) :
    Option TypeName :=
  ((CliMetadata.definitionName? owner row arguments : ReaderM View _).run view).run

/-- The name of a type in a parameter list, given the name of a type reference. -/
def typeNameBy (ofReference : TypeHandle → Option TypeName) (handle : TypeHandle) :
    Option TypeName :=
  ((CliMetadata.typeNameBy (fun handle => pure (ofReference handle)) handle :
    ReaderM View _).run view).run

/-- The names of several types; nothing if one has none. -/
def typeNamesBy (ofReference : TypeHandle → Option TypeName) (handles : List TypeHandle) :
    Option (List TypeName) :=
  ((CliMetadata.typeNamesBy (fun handle => pure (ofReference handle)) handles :
    ReaderM View _).run view).run

/-- The name of a type reference: that of the type that it stands for. -/
def boundName? (handle : TypeHandle) : Option TypeName :=
  view.typeNameBy (fun _ => none) (view.canonical handle)

/-- The name of a type in a parameter list. -/
def typeName? (handle : TypeHandle) : Option TypeName := view.typeNameBy view.boundName? handle

/-- The names of several types; nothing if one has none. -/
def typeNames? (handles : List TypeHandle) : Option (List TypeName) :=
  view.typeNamesBy view.boundName? handles

/-- The name of a definition has a segment for each type around it. -/
lemma definitionName?_eq (owner : ModuleId) (row : UInt32)
    (arguments : Module → List TypeName) :
    view.definitionName? owner row arguments =
      (view.resident? owner).bind fun module =>
        (module.nestedSegments? row (arguments module)).map .named := by
  rw [definitionName?, CliMetadata.definitionName?]
  cases h : view.resident? owner <;> simp [h]

variable (ofReference : TypeHandle → Option TypeName)

/-- A generic definition is named over its own parameters. -/
lemma typeNameBy_definition (owner : ModuleId) (row : UInt32) :
    view.typeNameBy ofReference (.definition owner row) =
      view.definitionName? owner row fun module =>
        (List.range (module.typeParameterCount row)).map fun number =>
          .typeParameter (UInt32.ofNat number) :=
  rfl

/-- A construction is named over the names of its arguments. -/
lemma typeNameBy_inst (owner : ModuleId) (row : UInt32) (arguments : List TypeHandle) :
    view.typeNameBy ofReference (.inst (.definition owner row) arguments) =
      if (view.resident? owner).isNone then none
      else
        (view.typeNamesBy ofReference arguments).bind fun names =>
          view.definitionName? owner row fun _ => names := by
  rw [typeNameBy, CliMetadata.typeNameBy]
  cases h : view.resident? owner with
  | none => simp [h]
  | some module =>
    rw [typeNamesBy]
    cases hnames : ((CliMetadata.typeNamesBy (fun handle => pure (ofReference handle)) arguments :
      ReaderM View _).run view).run <;> simp [h, hnames, definitionName?]

/-- A list has names if each of its handles has one. -/
lemma typeNamesBy_cons (handle : TypeHandle) (handles : List TypeHandle) :
    view.typeNamesBy ofReference (handle :: handles) =
      (view.typeNameBy ofReference handle).bind fun name =>
        (view.typeNamesBy ofReference handles).map (name :: ·) := by
  rw [typeNamesBy, CliMetadata.typeNamesBy]
  rw [typeNameBy, typeNamesBy]
  cases hname : ((CliMetadata.typeNameBy (fun handle => pure (ofReference handle)) handle :
    ReaderM View _).run view).run with
  | none => simp [hname]
  | some name =>
    cases hnames : ((CliMetadata.typeNamesBy (fun handle => pure (ofReference handle)) handles :
      ReaderM View _).run view).run <;> simp [hname, hnames]

/-- A name is cut into its segments. -/
@[simp]
lemma typeNameBy_named (assembly fullName : String) :
    view.typeNameBy ofReference (.named assembly fullName) =
      some (.named (namedSegments fullName)) :=
  rfl

/-- A reference is named as the caller says. -/
@[simp]
lemma typeNameBy_reference (owner : ModuleId) (row : UInt32) :
    view.typeNameBy ofReference (.reference owner row) = ofReference (.reference owner row) :=
  rfl

/-- An array is named over its element; one dimension is not written out. -/
@[simp]
lemma typeNameBy_array (element : TypeHandle) (rank : UInt32) :
    view.typeNameBy ofReference (.array element rank) =
      (view.typeNameBy ofReference element).map (.array · (if rank ≤ 1 then 0 else rank)) :=
  rfl

/-- A pointer is named over its element. -/
@[simp]
lemma typeNameBy_pointer (element : TypeHandle) :
    view.typeNameBy ofReference (.pointer element) =
      (view.typeNameBy ofReference element).map .pointer :=
  rfl

@[simp]
lemma typeNameBy_byRef (element : TypeHandle) :
    view.typeNameBy ofReference (.byRef element) =
      (view.typeNameBy ofReference element).map .byRef :=
  rfl

end View

/-! ## Naming in a session -/

namespace Session

variable {view : View} {among : Registry → Prop}

/-- Sessions name a definition as the view does. -/
lemma yields_definitionName (hview : view.Describes among) (owner : ModuleId) (row : UInt32)
    (arguments : Module → List TypeName) :
    Yields among (definitionName? owner row arguments)
      (.ok (view.definitionName? owner row arguments)) := by
  rw [definitionName?, View.definitionName?_eq]
  refine (yields_resident hview owner).bind ?_
  cases view.resident? owner <;> exact yields_pure _

mutual

/-- Sessions name a type as the view does, if they name references so. -/
lemma yields_typeNameBy (hview : view.Describes among)
    {ofReference : TypeHandle → Session (Option TypeName)}
    {expected : TypeHandle → Option TypeName}
    (hreference : ∀ handle, Yields among (ofReference handle) (.ok (expected handle))) :
    ∀ handle : TypeHandle, Yields among (typeNameBy ofReference handle)
      (.ok (view.typeNameBy expected handle))
  | .definition owner row => by
    rw [typeNameBy, View.typeNameBy_definition]
    exact yields_definitionName hview owner row _
  | .inst type arguments => by
    cases type with
    | definition owner row =>
      rw [typeNameBy, View.typeNameBy_inst]
      refine (yields_resident hview owner).bind ?_
      by_cases hnone : (view.resident? owner).isNone
      · rw [if_pos hnone, if_pos hnone]
        exact yields_pure none
      · rw [if_neg hnone, if_neg hnone]
        refine (yields_typeNamesBy hview hreference arguments).bind ?_
        cases view.typeNamesBy expected arguments with
        | none => exact yields_pure none
        | some names => exact yields_definitionName hview owner row _
    | _ => exact yields_pure _
  | .named assembly fullName => by
    rw [typeNameBy, View.typeNameBy_named]
    exact yields_pure _
  | .reference owner row => by
    rw [typeNameBy, View.typeNameBy_reference]
    exact hreference _
  | .parameter (.type owner row) number => yields_pure _
  | .parameter (.method owner row) number => yields_pure _
  | .array element rank => by
    rw [typeNameBy, View.typeNameBy_array]
    exact (yields_typeNameBy hview hreference element).bind (yields_pure _)
  | .pointer element => by
    rw [typeNameBy, View.typeNameBy_pointer]
    exact (yields_typeNameBy hview hreference element).bind (yields_pure _)
  | .byRef element => by
    rw [typeNameBy, View.typeNameBy_byRef]
    exact (yields_typeNameBy hview hreference element).bind (yields_pure _)
  | .functionPointer => yields_pure _
  | .typedReference => yields_pure _

lemma yields_typeNamesBy (hview : view.Describes among)
    {ofReference : TypeHandle → Session (Option TypeName)}
    {expected : TypeHandle → Option TypeName}
    (hreference : ∀ handle, Yields among (ofReference handle) (.ok (expected handle))) :
    ∀ handles : List TypeHandle, Yields among (typeNamesBy ofReference handles)
      (.ok (view.typeNamesBy expected handles))
  | [] => yields_pure _
  | handle :: handles => by
    rw [typeNamesBy, View.typeNamesBy_cons]
    refine (yields_typeNameBy hview hreference handle).bind ?_
    cases view.typeNameBy expected handle with
    | none => exact yields_pure none
    | some name =>
      refine (yields_typeNamesBy hview hreference handles).bind ?_
      cases view.typeNamesBy expected handles <;> exact yields_pure _

end

/-- Sessions name what a reference is bound to as the view does. -/
lemma yields_boundName (hview : view.Describes among) (handle : TypeHandle) :
    Yields among (boundName? handle) (.ok (view.boundName? handle)) :=
  (yields_canonicalType hview handle).bind (yields_typeNameBy hview (fun _ => yields_pure none) _)

lemma yields_typeName (hview : view.Describes among) (handle : TypeHandle) :
    Yields among (typeName? handle) (.ok (view.typeName? handle)) :=
  yields_typeNameBy hview (yields_boundName hview) handle

lemma yields_typeNames (hview : view.Describes among) (handles : List TypeHandle) :
    Yields among (typeNames? handles) (.ok (view.typeNames? handles)) :=
  yields_typeNamesBy hview (yields_boundName hview) handles

end Session

end CliMetadata
