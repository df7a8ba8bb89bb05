import CliMetadata.Proofs.TypeSystem.Assignment
import CliMetadata.Proofs.TypeSystem.KeptObjects
import CliMetadata.TypeSystem.Inheritance

/-!
# Questions about objects that are kept

What is asked of a type or method in a session is answered from other objects that are looked up. As
each look-up gives what is loaded anew, so does every question, definition by definition.
-/

namespace CliMetadata

namespace View.Loads

variable {view : View} {current : TypeHandle → Nat → Prop} {known info : TypeInfo}

/-- A held type and the loaded one have one handle. -/
lemma handle_eq (h : view.Loads current known info) : info.handle = known.handle := by
  obtain ⟨-, stamp, -, rfl⟩ := h
  rfl

/-- A held type and the loaded one are of one kind. -/
lemma kind_eq (h : view.Loads current known info) : info.kind = known.kind := by
  obtain ⟨-, stamp, -, rfl⟩ := h
  rfl

/-- A held type and the loaded one have one modifier. -/
lemma modifier?_eq (h : view.Loads current known info) : info.modifier? = known.modifier? := by
  rw [TypeInfo.modifier?, TypeInfo.modifier?, h.kind_eq]

end View.Loads

namespace Session.SameAfresh

variable {α β γ δ : Type} {view : View} {among : Registry → Prop}
  {current : TypeHandle → Nat → Prop} [hall : view.DescribesAll among current]
  {known info : TypeInfo}

/-! ## Types -/

/-- The full name does not depend on what the registry holds. -/
lemma fullName (hloads : view.Loads current known info) :
    SameAfresh among view Eq info.fullName known.fullName :=
  fullNameBy hloads fun owner number => getType (.parameter owner number)

lemma element (hlike : known.IsLike current info) :
    SameAfresh among view (Option.Rel (view.Loads current)) info.element? known.element? := by
  obtain ⟨stamp, -, rfl⟩ := hlike
  have hsame : ({ known with stamp } : TypeInfo).elementHandle? = known.elementHandle? := rfl
  rw [TypeInfo.element?, TypeInfo.element?, hsame]
  cases known.elementHandle? with
  | none => exact .pure .none
  | some handle => exact findType handle

lemma constraints (hlike : known.IsLike current info) :
    SameAfresh among view (List.Forall₂ (view.Loads current)) info.constraints known.constraints :=
  (constraintHandles hlike).bind_eq findTypes

omit hall in
/-- A test that does not look at stamps holds for some held type if and only if it holds for some loaded
one. -/
lemma any_eq {knowns infos : List TypeInfo} (h : List.Forall₂ (view.Loads current) knowns infos)
    {test : TypeInfo → Bool} (htest : ∀ known info, known.IsLike current info → test known = test info) :
    knowns.any test = infos.any test := by
  induction h with
  | nil => rfl
  | cons hhead _ ih => rw [List.any_cons, List.any_cons, htest _ _ hhead.2, ih]

/-- Whether a type is a reference type does not depend on what the registry holds. -/
lemma isReferenceType (hlike : known.IsLike current info) :
    SameAfresh among view Eq info.isReferenceType known.isReferenceType := by
  have hflags : SameAfresh among view _ _ _ := constraintFlags hlike
  have hconstraints : SameAfresh among view _ _ _ := constraints hlike
  obtain ⟨stamp, -, rfl⟩ := hlike
  cases known with
  | mk handle kind name space flags row home? base known =>
    cases kind with
    | decorator modifier => cases modifier <;> exact .pure rfl
    | genericParameter =>
      refine hflags.bind_eq fun flags => ?_
      -- The flag answers before the constraints are asked.
      by_cases hreference : MemberFlags.has flags GenericParamFlags.referenceType
      · simp only [if_pos hreference]
        exact .pure rfl
      · simp only [if_neg hreference]
        refine hconstraints.bind fun knowns infos _ h => .pure (any_eq h ?_)
        rintro known info ⟨stamp, -, rfl⟩
        rfl
    | _ => exact .pure rfl

lemma baseType (hloads : view.Loads current known info) :
    SameAfresh among view (Option.Rel (view.Loads current)) info.baseType? known.baseType? := by
  refine (baseHandle hloads).bind_eq_option (.pure .none) fun handle => ?_
  exact findType handle

omit hall in
/-- Whether a type is in a list is a question of handles. -/
lemma contains_eq {knowns infos : List TypeInfo} (h : List.Forall₂ (view.Loads current) knowns infos)
    (hlike : known.IsLike current info) : infos.contains info = knowns.contains known := by
  induction h with
  | nil => rfl
  | cons hhead _ ih =>
    obtain ⟨-, stamp, -, rfl⟩ := hhead
    rw [List.contains_cons, List.contains_cons, ih]
    obtain ⟨stamp, -, rfl⟩ := hlike
    rfl

/-- The chain of bases is followed alike, as the types met before are alike. -/
lemma baseChainFrom (length : Nat) {knowns infos : List TypeInfo}
    (hseen : List.Forall₂ (view.Loads current) knowns infos) {known? info? : Option TypeInfo}
    (hloads : Option.Rel (view.Loads current) known? info?) :
    SameAfresh among view (List.Forall₂ (view.Loads current)) (TypeInfo.baseChainFrom length infos info?)
      (TypeInfo.baseChainFrom length knowns known?) := by
  induction length generalizing knowns infos known? info? with
  | zero => exact .pure .nil
  | succ length ih =>
    cases hloads with
    | none => exact .pure .nil
    | @some known info hloads =>
      unfold TypeInfo.baseChainFrom
      rw [contains_eq hseen hloads.2]
      split
      · exact .pure .nil
      · refine (baseType hloads).bind fun base? base?' _ hbase => ?_
        exact (ih (.cons hloads hseen) hbase).bind fun _ _ _ h => .pure (.cons hloads h)

/-- The chain of bases does not depend on what the registry holds. -/
lemma baseChain (hloads : view.Loads current known info) :
    SameAfresh among view (List.Forall₂ (view.Loads current)) info.baseChain known.baseChain :=
  (baseType hloads).bind fun _ _ _ hbase => baseChainFrom _ .nil hbase

/-! ## Generic parameters -/

lemma parameterCount (hlike : known.IsLike current info) :
    SameAfresh among view Eq info.parameterCount known.parameterCount := by
  have hmodule : SameAfresh among view _ _ _ := moduleOf hlike
  obtain ⟨stamp, -, rfl⟩ := hlike
  have hsame : ({ known with stamp } : TypeInfo).definitionToken? = known.definitionToken? := rfl
  rw [TypeInfo.parameterCount, TypeInfo.parameterCount, hsame]
  cases known.definitionToken? with
  | none => infer_instance
  | some token => exact hmodule.bind_eq_option inferInstance fun home => inferInstance

lemma isGenericDefinition (hlike : known.IsLike current info) :
    SameAfresh among view Eq info.isGenericDefinition known.isGenericDefinition := by
  have hcount : SameAfresh among view _ _ _ := parameterCount hlike
  obtain ⟨stamp, -, rfl⟩ := hlike
  unfold TypeInfo.isGenericDefinition
  simp only
  split <;> infer_instance

lemma genericParameters (hlike : known.IsLike current info) :
    SameAfresh among view (List.Forall₂ (view.Loads current)) info.genericParameters
      known.genericParameters := by
  have hmodule : SameAfresh among view _ _ _ := moduleOf hlike
  obtain ⟨stamp, -, rfl⟩ := hlike
  refine hmodule.bind_eq_option (.pure .nil) fun home => ?_
  show SameAfresh among view _ (if known.isDefined then _ else _) (if known.isDefined then _ else _)
  split
  · exact bind_eq inferInstance findTypes
  · exact .pure .nil

lemma variance (hlike : known.IsLike current info) :
    SameAfresh among view Eq info.variance known.variance := by
  have hflags : SameAfresh among view _ _ _ := parameterFlags hlike
  obtain ⟨stamp, -, rfl⟩ := hlike
  have hsame : ({ known with stamp } : TypeInfo).owner? = known.owner? := rfl
  rw [TypeInfo.variance, TypeInfo.variance, hsame]
  cases known.owner? with
  | none => infer_instance
  | some owner =>
    cases owner with
    | type module row => exact hflags.bind_eq fun _ => inferInstance
    | method module row => infer_instance

/-! ## Interfaces -/

/-- The interfaces of a definition are read off its rows, whatever is held. -/
lemma definedInterfaces (hlike : known.IsLike current info) :
    SameAfresh among view Eq info.definedInterfaces known.definedInterfaces := by
  have hmodule : SameAfresh among view _ _ _ := moduleOf hlike
  obtain ⟨stamp, -, rfl⟩ := hlike
  exact hmodule.bind_eq_option inferInstance fun home => inferInstance

/-- The interfaces of a parameter are those of its constraints, whatever is held. -/
lemma constrainedInterfaces (hlike : known.IsLike current info) :
    SameAfresh among view Eq info.constrainedInterfaces known.constrainedInterfaces := by
  refine (constraints hlike).bind fun knowns infos hrun h => .pure ?_
  clear hrun
  induction h with
  | nil => rfl
  | cons hhead _ ih =>
    obtain ⟨-, stamp, -, rfl⟩ := hhead
    rw [List.filter_cons, List.filter_cons]
    simp only
    split
    · rw [List.map_cons, List.map_cons, ih]
    · exact ih

/-- The interfaces are found alike before any of them is noted. -/
lemma plainInterfaces (hlike : known.IsLike current info) :
    SameAfresh among view Eq info.plainInterfaces known.plainInterfaces := by
  have hdefined : SameAfresh among view _ _ _ := definedInterfaces hlike
  have hconstrained : SameAfresh among view _ _ _ := constrainedInterfaces hlike
  obtain ⟨stamp, -, rfl⟩ := hlike
  unfold TypeInfo.plainInterfaces
  simp only
  split
  · exact hdefined
  · exact hconstrained
  · infer_instance
  · infer_instance

/-- Noted interfaces are those that would be found again. -/
lemma noteInterfaces {find : Session (List TypeHandle)} {find' : Afresh (List TypeHandle)}
    (hloads : view.Loads current known info) (hfind : SameAfresh among view Eq find find')
    (hrun : find'.run view = (known.interfaceHandles : Afresh (List TypeHandle)).run view) :
    SameAfresh among view Eq (info.noteInterfaces find) (known.noteInterfaces find') :=
  finding hloads rfl hfind (fun _ handles hfound h => hrun.trans (hfound.interfaces handles h))
    fun _ handles hfound h => { hfound with
      interfaces := fun other hother => by rw [← hrun, h, ← Option.some.inj hother] }

/-- The interfaces are alike once there are as many levels as the handle is deep. -/
lemma interfaceHandlesWithin (levels : Nat) (hloads : view.Loads current known info)
    (hlevels : known.handle.depth ≤ levels + 1) :
    SameAfresh among view Eq (info.interfaceHandlesWithin levels) known.interfaceHandles := by
  have hrun : (known.interfaceHandlesWithin levels : Afresh _).run view = _ :=
    Afresh.run_interfaceHandlesWithin levels hlevels
  refine of_run_eq ?_ hrun.symm
  induction levels generalizing known info with
  | zero =>
    refine noteInterfaces hloads (plainInterfaces hloads.2) ?_
    rw [← hrun, TypeInfo.interfaceHandlesWithin, Afresh.noteInterfaces_eq]
  | succ levels ih =>
    unfold TypeInfo.interfaceHandlesWithin
    refine noteInterfaces hloads ?_ ?_
    · have hplain : SameAfresh among view _ _ _ := plainInterfaces hloads.2
      rw [hloads.handle_eq]
      generalize (info.plainInterfaces : Session _) = plain at hplain
      generalize (known.plainInterfaces : Afresh _) = plain' at hplain
      cases hhandle : known.handle with
      | inst definition arguments =>
        simp only
        refine (findType definition).bind_option inferInstance fun generic other hgeneric hother => ?_
        -- The generic type needs a level less, because it lies less deep.
        have hsmaller := View.depth_le_of_type?
          (Except.ok.inj ((Afresh.run_findType definition).symm.trans hgeneric))
        rw [hhandle, TypeHandle.depth] at hlevels
        have hsame := ih hother (by omega) (Afresh.run_interfaceHandlesWithin levels (by omega))
        exact hsame.bind_eq fun handles => inferInstance
      | _ => exact hplain
    · rw [← hrun, TypeInfo.interfaceHandlesWithin, Afresh.noteInterfaces_eq]

/-- The handles of the interfaces do not depend on what the registry holds. -/
lemma interfaceHandles (hloads : view.Loads current known info) :
    SameAfresh among view Eq info.interfaceHandles known.interfaceHandles := by
  rw [TypeInfo.interfaceHandles, hloads.handle_eq]
  exact interfaceHandlesWithin _ hloads (Nat.le_succ _)

lemma interfaces (hloads : view.Loads current known info) :
    SameAfresh among view (List.Forall₂ (view.Loads current)) info.interfaces known.interfaces :=
  (interfaceHandles hloads).bind_eq findTypes

include hall in
/-- One step of the closure after another meets the same interfaces. -/
lemma closeInterfaces (room : Nat) (closure pending : List TypeHandle) :
    SameAfresh among view Eq (TypeInfo.closeInterfaces room closure pending)
      (TypeInfo.closeInterfaces room closure pending) := by
  induction room generalizing closure pending with
  | zero =>
    unfold TypeInfo.closeInterfaces
    cases pending.dropWhile (closure.contains ·) <;> infer_instance
  | succ room ih =>
    unfold TypeInfo.closeInterfaces
    cases pending.dropWhile (closure.contains ·) with
    | nil => infer_instance
    | cons handle others =>
      simp only
      refine (findType handle).bind_option (bind_eq inferInstance fun _ => ih _ _) ?_
      intro _ _ _ hloads
      exact (interfaceHandles hloads).bind_eq fun _ => ih _ _

/-- The closure of the interfaces does not depend on what the registry holds. -/
lemma implementedHandles (hloads : view.Loads current known info) :
    SameAfresh among view Eq info.implementedHandles known.implementedHandles := by
  -- With nothing kept nothing is noted, so that the handles are closed each time.
  have hrun : (known.implementedHandles : Afresh (List TypeHandle)) = (do
      let own ← known.interfaceHandles
      let inherited ← (← known.baseChain).mapM fun base => base.interfaceHandles
      TypeInfo.closeInterfaces maxChainLength [] (own ++ inherited.flatten)) :=
    Afresh.finding_eq rfl known _ _
  refine finding hloads rfl ?_ (fun found handles hfound h => ?_) fun found handles hfound h => ?_
  · refine (interfaceHandles hloads).bind_eq fun own => ?_
    refine (baseChain hloads).bind fun knowns infos _ hchain => ?_
    have hinherited : SameAfresh among view (List.Forall₂ Eq)
        (infos.mapM fun base => base.interfaceHandles)
        (knowns.mapM fun base => base.interfaceHandles) :=
      mapM hchain fun _ _ hloads => interfaceHandles hloads
    refine hinherited.bind fun inherited inherited' _ hsame => ?_
    rw [List.forall₂_eq_eq_eq] at hsame
    exact hsame ▸ closeInterfaces _ _ _
  · rw [← hrun]
    exact hfound.implemented handles h
  · exact { hfound with
      implemented := fun other hother => by rw [hrun, h, ← Option.some.inj hother] }

lemma implementedInterfaces (hloads : view.Loads current known info) :
    SameAfresh among view (List.Forall₂ (view.Loads current)) info.implementedInterfaces
      known.implementedInterfaces :=
  (implementedHandles hloads).bind_eq findTypes

lemma ancestors (hloads : view.Loads current known info) :
    SameAfresh among view (List.Forall₂ (view.Loads current)) info.ancestors known.ancestors := by
  refine (baseChain hloads).bind fun bases bases' _ hbases => ?_
  refine (implementedInterfaces hloads).bind fun interfaces interfaces' _ hinterfaces => .pure ?_
  exact List.rel_append (.cons hloads hbases) hinterfaces

/-! ## Derivation -/

omit hall in
/-- Types that differ in nothing but numbers are the same types. -/
lemma beq_eq {known' info' : TypeInfo} (hlike : known.IsLike current info)
    (hlike' : known'.IsLike current info') : (info == info') = (known == known') := by
  obtain ⟨stamp, -, rfl⟩ := hlike
  obtain ⟨stamp', -, rfl⟩ := hlike'
  rfl

lemma isInstanceOf {known' info' : TypeInfo} (hlike : known.IsLike current info)
    (hlike' : known'.IsLike current info') :
    SameAfresh among view Eq (info.isInstanceOf info') (known.isInstanceOf known') := by
  have hgeneric : SameAfresh among view _ _ _ := isGenericDefinition hlike'
  unfold TypeInfo.isInstanceOf
  rw [beq_eq hlike hlike']
  obtain ⟨stamp, -, rfl⟩ := hlike
  obtain ⟨stamp', -, rfl⟩ := hlike'
  simp only
  split
  · infer_instance
  · split
    · exact hgeneric.bind_eq fun _ => inferInstance
    · infer_instance

/-- Whether a type derives from another one. -/
lemma isSubclassOf {known' info' : TypeInfo} (hloads : view.Loads current known info)
    (hloads' : view.Loads current known' info') :
    SameAfresh among view Eq (info.isSubclassOf info') (known.isSubclassOf known') := by
  unfold TypeInfo.isSubclassOf
  rw [beq_eq hloads.2 hloads'.2]
  split
  · infer_instance
  · refine (baseChain hloads).bind fun knowns infos _ hchain => ?_
    exact anyM hchain fun _ _ hloads => isInstanceOf hloads.2 hloads'.2

/-! ## Assignment -/

section

variable {convert : TypeInfo → TypeInfo → Session Bool}
  {convert' : TypeInfo → TypeInfo → Afresh Bool}
  (hconvert : ∀ target target' source source', view.Loads current target target' →
    view.Loads current source source' →
      SameAfresh among view Eq (convert target' source') (convert' target source))
include hconvert

/-- One argument may stand for another one, and so may the others. -/
lemma argumentConverts {rest : Session Bool} {rest' : Afresh Bool}
    (hrest : SameAfresh among view Eq rest rest') (variance : TypeInfo.Variance)
    (target source : TypeHandle) :
    SameAfresh among view Eq
      (do
        let target? ← findType? target
        let source? ← findType? source
        match variance, target?, source? with
        | .covariant, some target, some source => do
          if ← convert target source then rest else return false
        | .contravariant, some target, some source => do
          if ← convert source target then rest else return false
        | _, _, _ => do
          if ← Pure.pure false then rest else return false)
      (do
        let target? ← findType? target
        let source? ← findType? source
        match variance, target?, source? with
        | .covariant, some target, some source => do
          if ← convert' target source then rest' else return false
        | .contravariant, some target, some source => do
          if ← convert' source target then rest' else return false
        | _, _, _ => do
          if ← Pure.pure false then rest' else return false) := by
  refine (findType target).bind fun target? target?' _ htarget => ?_
  refine (findType source).bind fun source? source?' _ hsource => ?_
  cases htarget with
  | none => cases variance <;> exact .pure rfl
  | some htarget =>
    cases hsource with
    | none => cases variance <;> exact .pure rfl
    | some hsource =>
      cases variance with
      | invariant => exact .pure rfl
      | covariant => exact (hconvert _ _ _ _ htarget hsource).bind_eq fun _ => inferInstance
      | contravariant => exact (hconvert _ _ _ _ hsource htarget).bind_eq fun _ => inferInstance

/-- Arguments convert alike if each pair of them does. -/
lemma argumentsConvert {knowns infos : List TypeInfo}
    (hparameters : List.Forall₂ (view.Loads current) knowns infos)
    (targets sources : List TypeHandle) :
    SameAfresh among view Eq (TypeInfo.argumentsConvert convert infos targets sources)
      (TypeInfo.argumentsConvert convert' knowns targets sources) := by
  induction targets generalizing knowns infos sources with
  | nil => cases sources <;> exact .pure rfl
  | cons target targets ih =>
    cases sources with
    | nil => exact .pure rfl
    | cons source sources =>
      unfold TypeInfo.argumentsConvert
      simp only
      -- Behind the last parameter arguments have to be equal.
      cases hparameters with
      | nil =>
        have hrest := ih .nil sources
        split
        · exact hrest
        · exact bind_eq (.pure rfl) fun variance =>
            argumentConverts hconvert hrest variance target source
      | cons hhead hothers =>
        have hrest := ih hothers sources
        split
        · exact hrest
        · exact (variance hhead.2).bind_eq fun variance =>
            argumentConverts hconvert hrest variance target source

/-- Variance is judged alike if arguments convert alike. -/
lemma variantOf {known' info' : TypeInfo} (hlike : known.IsLike current info)
    (hlike' : known'.IsLike current info') :
    SameAfresh among view Eq (TypeInfo.variantOf convert info info')
      (TypeInfo.variantOf convert' known known') := by
  obtain ⟨stamp, -, rfl⟩ := hlike
  obtain ⟨stamp', -, rfl⟩ := hlike'
  unfold TypeInfo.variantOf
  simp only
  split
  next definition targets definition' sources htarget hsource =>
    split
    · infer_instance
    · refine (findType definition).bind_option (.pure rfl) fun generic _ _ hgeneric => ?_
      refine (genericParameters hgeneric.2).bind fun knowns infos _ hparameters => ?_
      exact argumentsConvert hconvert hparameters targets sources
  · infer_instance

/-- Arrays, pointers and references are settled alike if their elements convert alike. -/
lemma decoratorsSettle {known' info' : TypeInfo} (hlike : known.IsLike current info)
    (hlike' : known'.IsLike current info') :
    SameAfresh among view Eq (TypeInfo.decoratorsSettle convert info info')
      (TypeInfo.decoratorsSettle convert' known known') := by
  -- The numbers of the objects show neither in their kinds nor in what is inside.
  have helement : SameAfresh among view _ _ _ := element hlike
  have helement' : SameAfresh among view _ _ _ := element hlike'
  have hkind : info.kind = known.kind := by
    obtain ⟨stamp, -, rfl⟩ := hlike
    rfl
  have hkind' : info'.kind = known'.kind := by
    obtain ⟨stamp, -, rfl⟩ := hlike'
    rfl
  unfold TypeInfo.decoratorsSettle
  rw [hkind, hkind']
  split
  · refine helement.bind_option (.pure rfl) fun element other _ hloads => ?_
    simp only
    rw [beq_eq hloads.2 hlike']
    infer_instance
  · split
    · infer_instance
    · refine helement.bind fun target? target?' _ htarget => ?_
      refine helement'.bind fun source? source?' _ hsource => ?_
      cases htarget with
      | none => exact .pure rfl
      | some htarget =>
        cases hsource with
        | none => exact .pure rfl
        | some hsource =>
          simp only
          rw [beq_eq htarget.2 hsource.2]
          split
          · infer_instance
          · refine (isReferenceType hsource.2).bind_eq fun isReference => ?_
            cases isReference with
            | false => exact .pure rfl
            | true => exact (hconvert _ _ _ _ htarget hsource).bind_eq fun _ => inferInstance
  · infer_instance

end

/-- One level of a check, given that what is checked further on is the same with and without what is
kept. -/
lemma assignableStep {convert : TypeInfo → TypeInfo → Session Bool}
    {convert' : TypeInfo → TypeInfo → Afresh Bool}
    (hconvert : ∀ target target' source source', view.Loads current target target' →
      view.Loads current source source' →
        SameAfresh among view Eq (convert target' source') (convert' target source))
    {known' info' : TypeInfo} (hloads : view.Loads current known info)
    (hloads' : view.Loads current known' info') :
    SameAfresh among view Eq (TypeInfo.assignableStep convert info info')
      (TypeInfo.assignableStep convert' known known') := by
  have hsettle := decoratorsSettle hconvert hloads.2 hloads'.2
  have hvariant (type other : TypeInfo) (hlike : type.IsLike current other) :=
    variantOf hconvert hloads.2 hlike
  -- What the first tests look at does not depend on the numbers of the objects.
  have hindirect : (info.isIndirect || info'.isIndirect) = (known.isIndirect || known'.isIndirect) := by
    obtain ⟨-, stamp, -, rfl⟩ := hloads
    obtain ⟨-, stamp', -, rfl⟩ := hloads'
    rfl
  have hwidens : info'.widensTo info = known'.widensTo known := by
    obtain ⟨-, stamp, -, rfl⟩ := hloads
    obtain ⟨-, stamp', -, rfl⟩ := hloads'
    rfl
  unfold TypeInfo.assignableStep
  rw [beq_eq hloads.2 hloads'.2, hindirect, hwidens, hloads.handle_eq, hloads'.handle_eq]
  split
  · infer_instance
  split
  · infer_instance
  split
  · infer_instance
  split
  · infer_instance
  refine hsettle.bind_eq_option ?_ fun settled => .pure rfl
  refine (findType known'.handle).bind_option (.pure rfl) fun source other _ hsource => ?_
  refine (ancestors hsource).bind fun knowns infos _ hancestors => ?_
  refine anyM hancestors fun ancestor other hancestor => ?_
  rw [beq_eq hancestor.2 hloads.2]
  split
  · infer_instance
  · exact hvariant _ _ hancestor.2

/-- Assignability does not depend on what the registry holds, by induction on the levels that are left.
-/
lemma assignableWithin (levels : Nat) {known' info' : TypeInfo}
    (hloads : view.Loads current known info) (hloads' : view.Loads current known' info') :
    SameAfresh among view Eq (TypeInfo.assignableWithin levels info info')
      (TypeInfo.assignableWithin levels known known') := by
  induction levels generalizing known info known' info' with
  | zero =>
    unfold TypeInfo.assignableWithin
    rw [beq_eq hloads.2 hloads'.2]
    infer_instance
  | succ levels ih =>
    exact assignableStep (fun _ _ _ _ htarget hsource => ih htarget hsource) hloads hloads'

/-- The same of a check that fails where it would pass the last level. -/
lemma assignableBeyond_giveUp (levels : Nat) {known' info' : TypeInfo}
    (hloads : view.Loads current known info) (hloads' : view.Loads current known' info') :
    SameAfresh among view Eq (TypeInfo.assignableBeyond TypeInfo.giveUp levels info info')
      (TypeInfo.assignableBeyond TypeInfo.giveUp levels known known') := by
  induction levels generalizing known info known' info' with
  | zero =>
    show SameAfresh among view Eq (TypeInfo.giveUp info info') (TypeInfo.giveUp known known')
    unfold TypeInfo.giveUp
    rw [beq_eq hloads.2 hloads'.2]
    infer_instance
  | succ levels ih =>
    exact assignableStep (fun _ _ _ _ htarget hsource => ih htarget hsource) hloads hloads'

include hall in
/-- Whether a check passes the limit. -/
lemma checkAssignable (target source : TypeHandle) :
    SameAfresh among view Eq (TypeInfo.checkAssignable target source)
      (TypeInfo.checkAssignable target source) := by
  refine (getType target).bind fun _ _ _ hloads => (getType source).bind fun _ _ _ hloads' => ?_
  exact assignableBeyond_giveUp _ hloads hloads'

/-- **Assignment.** Whether a value of one type may stand where one of another is expected. -/
theorem isAssignableFrom {known' info' : TypeInfo} (hloads : view.Loads current known info)
    (hloads' : view.Loads current known' info') :
    SameAfresh among view Eq (info.isAssignableFrom info') (known.isAssignableFrom known') :=
  assignableWithin _ hloads hloads'

end Session.SameAfresh

end CliMetadata
