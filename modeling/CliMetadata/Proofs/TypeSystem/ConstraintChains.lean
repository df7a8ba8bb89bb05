import CliMetadata.Proofs.TypeSystem.FreshRelations

/-!
# Chains of constraints

To load a construction the base type of its generic type has to be known. Where that is a generic parameter,
its base type is chosen among its constraints, which are loaded for it in turn. Metadata may spell a parameter
that is constrained by a construction of itself: the choice of its base type then waits for itself, and never
ends. All other look-ups end, and come to the same however such a circle would be dealt with.
-/

namespace CliMetadata

/-- The types inside a handle that are looked up before its own type is made. -/
def TypeHandle.foundations : TypeHandle → List TypeHandle
  | .inst generic _ => [generic]
  | .array element _ | .pointer element | .byRef element => [element]
  | _ => []

namespace View

/-- The look-up of a handle waits for that of another one: of a type inside it, or of a constraint where it is
a construction of a generic parameter, with as many arguments as that takes. -/
inductive Awaits (view : View) (handle : TypeHandle) : TypeHandle → Prop where
  | inside {part : TypeHandle} (hpart : part ∈ (view.canonical handle).foundations) :
      Awaits view handle part
  | constraint {definition constraint : TypeHandle} {arguments : List TypeHandle} {generic : TypeInfo}
      (hhandle : view.canonical handle = .inst definition arguments)
      (hgeneric : view.type? definition = some generic)
      (hcount : ∀ home, view.moduleOf? generic = some home →
        home.module.typeParameterCount generic.row = arguments.length)
      (hbase : generic.base = .constrained) (hconstraint : constraint ∈ view.constraintHandles generic) :
      Awaits view handle constraint

/-- The look-up of a handle ends: it does not wait for itself, or for ever. -/
def Ends (view : View) (handle : TypeHandle) : Prop :=
  Acc (fun other handle => view.Awaits handle other) handle

/-- A handle is looked up along at most `hops` generic parameters that constrain each other. What would come of
longer chains makes no difference. -/
def FindsWithin (view : View) (hops : Nat) (handle : TypeHandle) : Prop :=
  ∀ (atEnd : TypeInfo → Afresh (Option TypeHandle)) (more : Nat), hops ≤ more →
    (lookupBy (baseHandleAlong atEnd more) (.type handle)).run view =
      (getMember (.type handle) : Afresh Member).run view

/-- The base type of a type is told along at most `hops` generic parameters that constrain each other. What
would come of longer chains makes no difference. -/
def ChoosesWithin (view : View) (hops : Nat) (type : TypeInfo) : Prop :=
  ∀ (atEnd : TypeInfo → Afresh (Option TypeHandle)) (more : Nat), hops ≤ more →
    (baseHandleAlong atEnd more type).run view = .ok (view.baseHandle? type)

variable {view : View}

lemma FindsWithin.mono {hops hops' : Nat} {handle : TypeHandle} (h : view.FindsWithin hops handle)
    (hle : hops ≤ hops') : view.FindsWithin hops' handle :=
  fun atEnd more hmore => h atEnd more (Nat.le_trans hle hmore)

/-- One number of hops is enough for all of several handles. -/
lemma exists_findsWithin {handles : List TypeHandle}
    (h : ∀ handle ∈ handles, ∃ hops, view.FindsWithin hops handle) :
    ∃ hops, ∀ handle ∈ handles, view.FindsWithin hops handle := by
  induction handles with
  | nil => exact ⟨0, fun _ hmem => absurd hmem List.not_mem_nil⟩
  | cons handle handles ih =>
    obtain ⟨hops, hhops⟩ := h handle List.mem_cons_self
    obtain ⟨others, hothers⟩ := ih fun other hother => h other (List.mem_cons_of_mem _ hother)
    refine ⟨max hops others, fun other hother => ?_⟩
    rcases List.mem_cons.mp hother with rfl | hother
    · exact hhops.mono (Nat.le_max_left _ _)
    · exact (hothers other hother).mono (Nat.le_max_right _ _)

/-- To choose a base type takes one hop more than the constraints among which it is chosen. -/
lemma choosesWithin_succ {hops : Nat} {type : TypeInfo}
    (h : type.base = .constrained →
      ∀ constraint ∈ view.constraintHandles type, view.FindsWithin hops constraint) :
    view.ChoosesWithin (hops + 1) type := by
  intro atEnd more hmore
  obtain ⟨more, rfl⟩ : ∃ fewer, more = fewer + 1 := ⟨more - 1, by omega⟩
  rw [View.baseHandle?]
  cases hbase : type.base with
  | fixed base? =>
    rw [baseHandleAlong_fixed atEnd (more + 1) hbase]
    rfl
  | constrained =>
    rw [baseHandleAlong_succ atEnd more hbase, Afresh.run_chosenBase]
    refine congrArg (fun constraints => Except.ok (baseOfConstraints constraints _)) ?_
    refine List.filterMap_congr fun constraint hmem => ?_
    rw [View.type?, getType, ReaderT.run_bind, ReaderT.run_bind,
      h hbase constraint hmem atEnd more (by omega)]

lemma exists_choosesWithin {type : TypeInfo}
    (h : type.base = .constrained →
      ∀ constraint ∈ view.constraintHandles type, ∃ hops, view.FindsWithin hops constraint) :
    ∃ hops, view.ChoosesWithin hops type := by
  by_cases hbase : type.base = .constrained
  · obtain ⟨hops, hhops⟩ := exists_findsWithin (h hbase)
    exact ⟨hops + 1, choosesWithin_succ fun _ => hhops⟩
  · exact ⟨1, choosesWithin_succ fun hconstrained => absurd hconstrained hbase⟩

end View

namespace Afresh

variable {view : View} {base base' : TypeInfo → Afresh (Option TypeHandle)}

/-- To load a construction the base type of its generic type is asked for, if it takes that many
arguments. -/
lemma run_loadConstruction_congr_base {getType : TypeHandle → Afresh TypeInfo} {definition : TypeHandle}
    {arguments : List TypeHandle}
    (hbase : ∀ generic, (getType definition).run view = .ok generic →
      (∀ home, view.moduleOf? generic = some home →
        home.module.typeParameterCount generic.row = arguments.length) →
      (base generic).run view = (base' generic).run view) :
    (loadConstruction getType base definition arguments).run view =
      (loadConstruction getType base' definition arguments).run view := by
  rw [loadConstruction, loadConstruction, ReaderT.run_bind, ReaderT.run_bind]
  cases hgeneric : (getType definition).run view with
  | error error => rfl
  | ok generic =>
    have hbase := hbase generic hgeneric
    simp only [ok_bind, ReaderT.run_bind, run_module, pure_bind]
    cases hhome : view.moduleOf? generic with
    | none => simp only [ReaderT.run_bind, hbase fun home h => by simp [hhome] at h]
    | some home =>
      simp only
      split
      · rfl
      · rename_i hcount
        have hcount := of_not_not hcount
        simp only [ReaderT.run_bind, hbase fun other h => by
          obtain rfl := Option.some.inj (hhome.symm.trans h)
          exact hcount]

/-- A type is made from the types inside it, from generic parameters, and where it is a construction from the
base type of its generic type. -/
lemma run_loadMember_congr_foundations {lookup lookup' : Handle → Afresh Member} {handle : TypeHandle}
    (hinside : ∀ part ∈ handle.foundations,
      (lookup (.type part)).run view = (lookup' (.type part)).run view)
    (hparameters : ∀ owner number,
      (lookup (.type (.parameter owner number))).run view =
        (lookup' (.type (.parameter owner number))).run view)
    (hbase : ∀ definition arguments generic, handle = .inst definition arguments →
      (do MonadExcept.ofExcept (← lookup' (.type definition)).asType : Afresh TypeInfo).run view =
          .ok generic →
        (∀ home, view.moduleOf? generic = some home →
          home.module.typeParameterCount generic.row = arguments.length) →
        (base generic).run view = (base' generic).run view) :
    (loadMember base lookup (.type handle)).run view =
      (loadMember base' lookup' (.type handle)).run view := by
  cases handle with
  | inst definition arguments =>
    refine congrArg (Member.type <$> ·) ((run_loadConstruction_congr ?_ fun owner number => ?_).trans
      (run_loadConstruction_congr_base fun generic => hbase definition arguments generic rfl))
    · simp only [ReaderT.run_bind, hinside definition (List.mem_singleton_self _)]
    · simp only [ReaderT.run_bind, hparameters owner number]
  | array element rank =>
    simp only [loadMember, loadType, loadDecorator, ReaderT.run_map, ReaderT.run_bind,
      hinside element (List.mem_singleton_self _)]
  | pointer element =>
    simp only [loadMember, loadType, loadDecorator, ReaderT.run_map, ReaderT.run_bind,
      hinside element (List.mem_singleton_self _)]
  | byRef element =>
    simp only [loadMember, loadType, loadDecorator, ReaderT.run_map, ReaderT.run_bind,
      hinside element (List.mem_singleton_self _)]
  | _ => simp only [loadMember, loadType]

/-- Parameters are looked up without asking for any base type. -/
lemma run_lookupBy_parameter (owner : GenericOwner) (number : UInt32) :
    (lookupBy base (.type (.parameter owner number))).run view =
      (lookupBy base' (.type (.parameter owner number))).run view := by
  obtain ⟨level, hkey⟩ : ∃ level,
      view.canonicalHandle (.type (.parameter owner number)) = .type (.parameter level number) := by
    cases owner <;> exact ⟨_, rfl⟩
  rw [run_lookupBy, run_lookupBy, hkey]
  simp only [loadMember, loadType]

end Afresh

namespace View

variable {view : View}

/-- **Look-ups that end.** A look-up that does not wait for itself takes a limited number of hops, and comes to
the same whatever would come of longer chains. -/
theorem Ends.exists_findsWithin {handle : TypeHandle} (h : view.Ends handle) :
    ∃ hops, view.FindsWithin hops handle := by
  induction h with
  | intro handle _ ih =>
    obtain ⟨hops, hinside⟩ : ∃ hops, ∀ part ∈ (view.canonical handle).foundations,
        view.FindsWithin hops part :=
      View.exists_findsWithin fun part hpart => ih part (.inside hpart)
    -- A construction asks for the base type of one generic type, if it takes that many arguments.
    obtain ⟨others, hchosen⟩ : ∃ others, ∀ definition arguments generic,
        view.canonical handle = .inst definition arguments → view.type? definition = some generic →
          (∀ home, view.moduleOf? generic = some home →
            home.module.typeParameterCount generic.row = arguments.length) →
          view.ChoosesWithin others generic := by
      by_cases hmade : ∃ definition arguments generic,
          view.canonical handle = .inst definition arguments ∧ view.type? definition = some generic ∧
            ∀ home, view.moduleOf? generic = some home →
              home.module.typeParameterCount generic.row = arguments.length
      · obtain ⟨definition, arguments, generic, hhandle, hgeneric, hcount⟩ := hmade
        obtain ⟨others, hothers⟩ : ∃ others, view.ChoosesWithin others generic :=
          exists_choosesWithin fun hbase constraint hmem =>
            ih constraint (.constraint hhandle hgeneric hcount hbase hmem)
        refine ⟨others, fun definition' arguments' generic' hhandle' hgeneric' _ => ?_⟩
        obtain ⟨rfl, rfl⟩ := TypeHandle.inst.inj (hhandle.symm.trans hhandle')
        obtain rfl := Option.some.inj (hgeneric.symm.trans hgeneric')
        exact hothers
      · exact ⟨0, fun definition arguments generic hhandle hgeneric hcount =>
          absurd ⟨definition, arguments, generic, hhandle, hgeneric, hcount⟩ hmade⟩
    refine ⟨max hops others, fun atEnd more hmore => ?_⟩
    have hpart (part : TypeHandle) (hmem : part ∈ (view.canonical handle).foundations) :
        (lookupBy (baseHandleAlong atEnd more) (.type part)).run view =
          (lookupBy TypeInfo.baseHandle? (.type part) : Afresh Member).run view :=
      hinside part hmem atEnd more (Nat.le_trans (Nat.le_max_left _ _) hmore)
    rw [getMember, Afresh.run_lookupBy, Afresh.run_lookupBy]
    refine bind_congr fun _ => Afresh.run_loadMember_congr_foundations hpart
      (fun owner number => Afresh.run_lookupBy_parameter owner number)
      fun definition arguments generic hhandle hgeneric hcount => ?_
    rw [Afresh.run_baseHandle]
    exact hchosen definition arguments generic hhandle (type?_eq_some.mpr hgeneric) hcount atEnd more
      (Nat.le_trans (Nat.le_max_right _ _) hmore)

/-- Where a handle holds no other type, its look-up waits for nothing. -/
lemma ends_of_foundations_eq_nil {handle : TypeHandle} (h : (view.canonical handle).foundations = []) :
    view.Ends handle := by
  refine Acc.intro handle fun other hother => ?_
  cases hother with
  | inside hpart =>
    rw [h] at hpart
    exact absurd hpart List.not_mem_nil
  | constraint hhandle =>
    rw [hhandle] at h
    cases h

end View

end CliMetadata
