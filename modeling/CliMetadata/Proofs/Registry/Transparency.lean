import CliMetadata.Proofs.Binding.FixedPoints
import CliMetadata.Proofs.Registry.Remains
import CliMetadata.Proofs.TypeSystem.KeptInheritance

/-!
# What is kept does not show

A registry keeps what look-ups loaded and notes what questions found out. As long as no module that is
registered later would have changed any of that, every answer is the one that a registry gives from
which nothing was looked up before.
-/

namespace CliMetadata

/-- What is noted about a type is found out to be the same from other modules. -/
structure View.AgreesOn (view other : View) (type : TypeInfo) : Prop where
  fullName : (type.fullName : Afresh String).run other = (type.fullName : Afresh String).run view
  base : (type.baseHandle? : Afresh (Option TypeHandle)).run other =
    (type.baseHandle? : Afresh (Option TypeHandle)).run view
  interfaces : (type.interfaceHandles : Afresh (List TypeHandle)).run other =
    (type.interfaceHandles : Afresh (List TypeHandle)).run view
  implemented : (type.implementedHandles : Afresh (List TypeHandle)).run other =
    (type.implementedHandles : Afresh (List TypeHandle)).run view

/-- What was found out about a type in one view holds in every view that says the same of the type. -/
lemma View.FoundOut.of_agreesOn {view other : View} {type : TypeInfo} {found : Findings}
    (h : view.FoundOut type found) (hagrees : view.AgreesOn other type) :
    other.FoundOut type found where
  fullName name hname := hagrees.fullName.trans (h.fullName name hname)
  base base? hbase := hagrees.base.trans (h.base base? hbase)
  interfaces handles hhandles := hagrees.interfaces.trans (h.interfaces handles hhandles)
  implemented handles hhandles := hagrees.implemented.trans (h.implemented handles hhandles)

namespace Registry

variable {registry other used : Registry} {view : View} {current : TypeHandle → Nat → Prop}

/-! ## What is kept and noted -/

/-- Everything that is kept is what is loaded anew, and everything that was noted about a type with a
current number is what is found out anew. Numbers that have not been given away are current. -/
structure Recalls (view : View) (current : TypeHandle → Nat → Prop) (registry : Registry) :
    Prop where
  objects : registry.KeepsOnly fun key member =>
    ∃ known, view.afresh key = .ok known ∧ known.IsNumbered current member
  findings : ∀ stamp known found, current known.handle stamp →
    registry.findings[stamp]? = some (known.handle, found) →
      view.afresh (.type known.handle) = .ok (.type known) → view.FoundOut known found
  unused : ∀ handle stamp, registry.findings.size ≤ stamp → current handle stamp

namespace Recalls

/-- Nothing is kept and all numbers are unused. -/
lemma of_empty (hobjects : registry.KeepsOnly fun _ _ => False) (view : View) :
    registry.Recalls view fun _ stamp => registry.findings.size ≤ stamp where
  objects handle member hmember := (hobjects handle member hmember).elim
  findings stamp known found hcurrent hfound := by
    rw [Array.getElem?_eq_none hcurrent] at hfound
    exact nomatch hfound
  unused _ _ h := h

/-- A registry recalls a view by what it holds and what it has found out. -/
lemma of_findings (h : registry.Recalls view current)
    (hobjects : other.KeepsOnly fun key member =>
      ∃ known, view.afresh key = .ok known ∧ known.IsNumbered current member)
    (hfindings : other.findings = registry.findings) : other.Recalls view current where
  objects := hobjects
  findings := by
    rw [hfindings]
    exact h.findings
  unused := by
    rw [hfindings]
    exact h.unused

/-- A visit, sweep and all, leaves nothing behind that the view would not answer. -/
lemma visit (h : registry.Recalls view current) : registry.visit.Recalls view current := by
  refine h.of_findings h.objects.visit ?_
  rcases registry.visit_cases with hvisit | hvisit <;> rw [hvisit] <;> rfl

/-- Asking what is held changes nothing that is recalled. -/
lemma loaded (h : registry.Recalls view current) (key : Handle) :
    (registry.loaded? key).2.Recalls view current := by
  refine h.of_findings (h.objects.loaded key) ?_
  rw [loaded?]
  cases key.home? with
  | none => rfl
  | some owner => cases hbucket : registry.buckets[owner]? <;> simp [hbucket]

/-- Holding what the view answers keeps the registry true to the view. -/
lemma keep (h : registry.Recalls view current) {key : Handle} {known member : Member}
    (hknown : view.afresh key = .ok known) (hmember : known.IsNumbered current member) :
    (registry.keep key member).Recalls view current := by
  refine h.of_findings (h.objects.keep ⟨known, hknown, hmember⟩) ?_
  rw [Registry.keep]
  cases key.home? <;> rfl

lemma stamp (h : registry.Recalls view current) (handle : TypeHandle) :
    current handle (registry.stamp handle).1 ∧ (registry.stamp handle).2.Recalls view current := by
  refine ⟨h.unused handle _ (Nat.le_refl _), h.objects.of_objects rfl rfl, ?_, ?_⟩
  · intro stamp known found hcurrent hfound hknown
    rw [Registry.stamp, Array.getElem?_push] at hfound
    split at hfound
    · obtain ⟨-, rfl⟩ := Prod.mk.inj (Option.some.inj hfound)
      exact view.foundOut_nothing known
    · exact h.findings stamp known found hcurrent hfound hknown
  · intro handle stamp hstamp
    rw [Registry.stamp, Array.size_push] at hstamp
    exact h.unused handle stamp (Nat.le_of_succ_le hstamp)

lemma found (h : registry.Recalls view current) {known info : TypeInfo}
    (hloads : view.Loads current known info) : view.FoundOut known (registry.found info) := by
  obtain ⟨hknown, stamp, hcurrent, rfl⟩ := hloads
  rw [Registry.found]
  cases hentry : registry.findings[stamp]? with
  | none => exact view.foundOut_nothing known
  | some entry =>
    obtain ⟨handle, found⟩ := entry
    simp only
    split
    next hhandle => exact h.findings stamp known found hcurrent (hhandle ▸ hentry) hknown
    next => exact view.foundOut_nothing known

lemma note (h : registry.Recalls view current) {known info : TypeInfo} {found : Findings}
    (hloads : view.Loads current known info) (hfound : view.FoundOut known found) :
    (registry.note info found).Recalls view current := by
  obtain ⟨hknown, stamp, hcurrent, rfl⟩ := hloads
  refine ⟨h.objects.of_objects rfl rfl, ?_, ?_⟩
  · intro place type noted hplace hnoted htype
    rw [Registry.note, Array.getElem?_modify] at hnoted
    -- Only the entry of one type changes, and of this the findings are those that a fresh look
    -- gives.
    split at hnoted
    next hsame =>
      obtain ⟨entry, hentry, hnoted⟩ := Option.map_eq_some_iff.mp hnoted
      split at hnoted
      next hhandle =>
        obtain ⟨hother, rfl⟩ := Prod.mk.inj hnoted
        rw [← hother, hhandle] at htype
        obtain rfl := Member.type.inj (Except.ok.inj (hknown.symm.trans htype))
        exact hfound
      next => exact h.findings place type noted hplace (hnoted ▸ hentry) htype
    next => exact h.findings place type noted hplace hnoted htype
  · intro handle place hsize
    rw [Registry.note, Array.size_modify] at hsize
    exact h.unused handle place hsize

/-- A registry that forgets all its objects still recalls the view. -/
lemma clear (h : registry.Recalls view current) : registry.clear.Recalls view current :=
  h.of_findings (keepsOnly_of_empty rfl rfl _) rfl

end Recalls

/-! ## Registries with the same modules -/

/-- Registries that share their modules are looked at with one view. -/
lemma SharesModules.view_eq (h : registry.SharesModules other) : other.view = registry.view := by
  rw [Registry.view, Registry.view, h.searchOrder_eq, funext h.held?_eq, funext h.resident?_eq]

/-- All modules that take part in look-ups are held. -/
def HoldsRegistered (registry : Registry) : Prop :=
  ∀ owner ∈ registry.registered, registry.isHeld owner

/-- A registry has the modules of another one, and recalls what is loaded from them. -/
structure Mirrors (registry : Registry) (current : TypeHandle → Nat → Prop) (used : Registry) :
    Prop where
  shares : registry.SharesModules used
  holds : used.HoldsRegistered
  recalls : used.Recalls registry.view current

/-- A registry that registered no more than another one, and holds the same modules, holds what it
registered. -/
lemma HoldsRegistered.of_subset (h : registry.HoldsRegistered)
    (hholders : other.holders = registry.holders)
    (hregistered : other.registered ⊆ registry.registered) : other.HoldsRegistered := by
  intro owner howner
  have hheld := h owner (hregistered howner)
  rwa [isHeld, ← hholders] at hheld

/-- A visit drops no module. -/
lemma HoldsRegistered.visit (h : registry.HoldsRegistered) : registry.visit.HoldsRegistered := by
  refine h.of_subset (visit_holders registry) ?_
  rcases registry.visit_cases with hvisit | hvisit
  · exact hvisit ▸ List.Subset.refl _
  · rw [hvisit]
    exact List.filter_subset_self _

instance (registry : Registry) (current : TypeHandle → Nat → Prop) :
    registry.view.DescribesAll (registry.Mirrors current) current where
  toDescribes := describes_of_sharesModules fun _ h => h.shares
  visit _ h := ⟨h.shares.visit, h.holds.visit, h.recalls.visit⟩
  loaded used key h := by
    refine ⟨h.shares.loaded key, ?_, h.recalls.loaded key⟩
    rw [loaded?]
    cases key.home? with
    | none => exact h.holds
    | some owner =>
      cases hbucket : used.buckets[owner]? <;> simp only [hbucket] <;> exact h.holds
  kept _ key member h hmember := h.recalls.objects key member hmember
  keep _ key known member h hknown hmember := by
    refine ⟨h.shares.keep key member, ?_, h.recalls.keep hknown hmember⟩
    rw [keep]
    cases key.home? <;> exact h.holds
  stamp _ handle h :=
    ⟨(h.recalls.stamp handle).1, h.shares.of_same rfl rfl rfl rfl, h.holds,
      (h.recalls.stamp handle).2⟩
  found _ _ _ h hloads := h.recalls.found hloads
  note _ _ _ _ h hloads hfound :=
    ⟨h.shares.of_same rfl rfl rfl rfl, h.holds, h.recalls.note hloads hfound⟩

/-! ## Registering modules -/

/-- Behind a registration only modules that are held are registered. -/
lemma holdsRegistered_register (registry : Registry) (owner : ModuleId) :
    (registry.register owner).HoldsRegistered := by
  have hsweep (registry : Registry) : registry.sweep.2.HoldsRegistered :=
    fun place hplace => (List.mem_filter.mp hplace).2
  unfold register
  exact hsweep _

/-- Two registries that hold what they registered and share their modules list the same modules. -/
lemma SharesModules.registered_eq (h : registry.SharesModules other)
    (hregistry : registry.HoldsRegistered) (hother : other.HoldsRegistered) :
    other.registered = registry.registered := by
  rw [← List.filter_eq_self.mpr hother, ← List.filter_eq_self.mpr hregistry]
  exact h.registered

lemma SharesModules.of_sweep (h : registry.SharesModules other) :
    registry.sweep.2.SharesModules other.sweep.2 := by
  refine ⟨h.modules, h.holders, ?_, h.resolvers⟩
  show (other.registered.filter other.isHeld).filter other.isHeld =
    (registry.registered.filter registry.isHeld).filter registry.isHeld
  rw [h.registered, h.isHeld_eq]

/-- Registering one module in both registries leaves them sharing their modules. -/
lemma SharesModules.register (h : registry.SharesModules other)
    (hregistry : registry.HoldsRegistered) (hother : other.HoldsRegistered) (owner : ModuleId) :
    (registry.register owner).SharesModules (other.register owner) := by
  have hregistered := h.registered_eq hregistry hother
  unfold Registry.register
  rw [h.held?_eq owner, isRegistered, isRegistered, hregistered]
  refine SharesModules.of_sweep ?_
  -- Both hold the same modules, so both register this one or neither does.
  cases registry.held? owner with
  | none => exact h
  | some module =>
    by_cases howner : registry.registered.contains owner
    · simp only [if_pos howner]
      exact h
    · simp only [if_neg howner]
      refine ⟨h.modules, h.holders, ?_, h.resolvers⟩
      show (insertAscending owner registry.registered).filter other.isHeld = _
      rw [h.isHeld_eq]
      rfl

/-! ## Modules that come in later -/

/-- What stays kept when a module is registered is also what is loaded and found out anew when the
module takes part. -/
structure Bears (registry : Registry) (owner : ModuleId) : Prop where
  objects : ∀ key member, ((registry.register owner).loaded? key).1 = some member →
    (registry.register owner).view.afresh key = registry.view.afresh key
  findings : ∀ key known info, ((registry.register owner).loaded? key).1 = some (.type info) →
    registry.view.afresh key = .ok (.type known) →
      registry.view.AgreesOn (registry.register owner).view known

/-- The numbers of the types that are kept, and those that are unused. -/
def IsCurrent (registry : Registry) (handle : TypeHandle) (stamp : Nat) : Prop :=
  (∃ key info, (registry.loaded? key).1 = some (.type info) ∧ info.handle = handle ∧
    info.stamp = stamp) ∨ registry.findings.size ≤ stamp

/-- What is kept of before is kept rightly when a module comes in that has nothing to do with it. -/
lemma Recalls.register (h : registry.Recalls registry.view current) {owner : ModuleId}
    (hbears : registry.Bears owner) :
    (registry.register owner).Recalls (registry.register owner).view
      (registry.register owner).IsCurrent := by
  have hkept := h.objects.register owner
  -- What is kept was loaded before the module came in. It is what would be loaded now, as the
  -- module does not bear on it.
  refine ⟨fun key member hmember => ?_, ?_, fun handle stamp hsize => Or.inr hsize⟩
  · obtain ⟨known, hknown, hlike⟩ := hkept key member hmember
    refine ⟨known, (hbears.objects key member hmember).trans hknown, ?_⟩
    cases known with
    | type type =>
      cases member with
      | type info =>
        obtain ⟨stamp, -, rfl⟩ := hlike
        exact ⟨stamp, Or.inl ⟨key, _, hmember, rfl, rfl⟩, rfl⟩
      | _ => exact hlike
    | _ => exact hlike
  · intro stamp known found hcurrent hfound hknown
    rw [register_findings] at hfound
    -- A number is current if an object has it, or if it was never given.
    rcases hcurrent with ⟨key, info, hmember, hhandle, rfl⟩ | hsize
    · obtain ⟨type, hold, hlike⟩ := hkept key _ hmember
      have hnew := (hbears.objects key _ hmember).trans hold
      cases type with
      | type type =>
        have hloads := View.loadsMember_of_isLike hold hlike
        have hagain := (View.loadsMember_of_isLike hnew hlike).1
        obtain ⟨stamp, hcurrent, rfl⟩ := hlike
        have hsame : known.handle = type.handle := hhandle.symm
        rw [hsame, hagain] at hknown
        obtain rfl := Member.type.inj (Except.ok.inj hknown)
        have hagrees := hbears.findings key type _ hmember hold
        exact (h.findings stamp type found hcurrent hfound hloads.1).of_agreesOn hagrees
      | _ => exact nomatch (show Member.type info = _ from hlike)
    · rw [register_findings] at hsize
      rw [Array.getElem?_eq_none hsize] at hfound
      exact nomatch hfound

/-- Whatever module comes in when nothing is kept, there is nothing that it could change. -/
lemma bears_of_empty (hobjects : registry.KeepsOnly fun _ _ => False) (owner : ModuleId) :
    registry.Bears owner where
  objects key member hmember := ((hobjects.register owner) key member hmember).elim
  findings key _ info hmember := ((hobjects.register owner) key (.type info) hmember).elim

end Registry

/-! ## Questions -/

/-- The type without its number. -/
def TypeInfo.unnumbered (type : TypeInfo) : TypeInfo := { type with stamp := 0 }

/-- The member without the number of a type. -/
def Member.unnumbered : Member → Member
  | .type info => .type info.unnumbered
  | member => member

/-- What a question is answered with. -/
inductive Reply where
  | member (member : Member)
  | member? (member? : Option Member)
  | type? (type? : Option TypeInfo)
  | types (types : List TypeInfo)
  | method? (method? : Option MethodInfo)
  | truth (holds : Bool)
  | variance (variance : TypeInfo.Variance)

/-- What is asked by names and handles, and of types and methods that are looked up by handles. -/
inductive Question where
  | member (handle : Handle)
  | typeNamed (fullName : String)
  | reference (text : String)
  | base (type : TypeHandle)
  | interfaces (type : TypeHandle)
  | implementedInterfaces (type : TypeHandle)
  | ancestors (type : TypeHandle)
  | variance (parameter : TypeHandle)
  | isSubclass (type other : TypeHandle)
  | isAssignable (target source : TypeHandle)
  | overridden (method : MethodHandle)
  | implemented (method : MethodHandle)

/-- The answer to a question. -/
def Question.ask {m : Type → Type} [Monad m] [MonadObjects m] [MonadExceptOf Error m] :
    Question → m Reply
  | member handle => do return .member (← getMember handle).unnumbered
  | typeNamed fullName => do return .type? ((← findTypeNamed? fullName).map (·.unnumbered))
  | reference text => do return .member? ((← resolveMember? text).map (·.unnumbered))
  | base type => do return .type? ((← (← getType type).baseType?).map (·.unnumbered))
  | interfaces type => do return .types ((← (← getType type).interfaces).map (·.unnumbered))
  | implementedInterfaces type => do
    return .types ((← (← getType type).implementedInterfaces).map (·.unnumbered))
  | ancestors type => do return .types ((← (← getType type).ancestors).map (·.unnumbered))
  | variance parameter => do return .variance (← (← getType parameter).variance)
  | isSubclass type other => do
    let type ← getType type
    return .truth (← type.isSubclassOf (← getType other))
  | isAssignable target source => do
    let target ← getType target
    return .truth (← target.isAssignableFrom (← getType source))
  | overridden method => do return .method? (← (← getMethod method).overridden?)
  | implemented method => do return .method? (← (← getMethod method).implemented?)

namespace Session.SameAfresh

variable {view : View} {among : Registry → Prop} {current : TypeHandle → Nat → Prop}

/-- Apart from its stamp, a held type is the one that the view loads. -/
lemma unnumbered_eq {known info : TypeInfo} (h : view.Loads current known info) :
    known.unnumbered = info.unnumbered := by
  obtain ⟨-, stamp, -, rfl⟩ := h
  rfl

lemma member_unnumbered_eq {known member : Member} (h : view.LoadsMember current known member) :
    known.unnumbered = member.unnumbered := by
  rcases h.types_or_eq with ⟨type, info, rfl, rfl, hloads⟩ | rfl
  · exact congrArg Member.type (unnumbered_eq hloads)
  · rfl

/-- A type is held if and only if one is loaded, and it is that one. -/
lemma type?_unnumbered_eq {known? info? : Option TypeInfo}
    (h : Option.Rel (view.Loads current) known? info?) :
    known?.map (·.unnumbered) = info?.map (·.unnumbered) := by
  cases h with
  | none => rfl
  | some h => exact congrArg some (unnumbered_eq h)

lemma member?_unnumbered_eq {known? member? : Option Member}
    (h : Option.Rel (view.LoadsMember current) known? member?) :
    known?.map (·.unnumbered) = member?.map (·.unnumbered) := by
  cases h with
  | none => rfl
  | some h => exact congrArg some (member_unnumbered_eq h)

/-- Held types are those that the view loads, in the same order. -/
lemma types_unnumbered_eq {knowns infos : List TypeInfo}
    (h : List.Forall₂ (view.Loads current) knowns infos) :
    knowns.map (·.unnumbered) = infos.map (·.unnumbered) := by
  induction h with
  | nil => rfl
  | cons hhead _ ih => rw [List.map_cons, List.map_cons, unnumbered_eq hhead, ih]

/-- **Questions.** The answer to a question is the one that is found out anew. -/
theorem ask [view.DescribesAll among current] (question : Question) :
    SameAfresh among view Eq question.ask question.ask := by
  -- Each question loads the types that it is about and then asks them.
  cases question with
  | member handle =>
    refine (getMember handle).bind fun _ _ _ h => .pure ?_
    exact congrArg Reply.member (member_unnumbered_eq h)
  | typeNamed fullName =>
    refine (findTypeNamed fullName).bind fun _ _ _ h => .pure ?_
    exact congrArg Reply.type? (type?_unnumbered_eq h)
  | reference text =>
    refine (resolveMember text).bind fun _ _ _ h => .pure ?_
    exact congrArg Reply.member? (member?_unnumbered_eq h)
  | base type =>
    refine (getType type).bind fun _ _ _ hloads => (baseType hloads).bind fun _ _ _ h => .pure ?_
    exact congrArg Reply.type? (type?_unnumbered_eq h)
  | interfaces type =>
    refine (getType type).bind fun _ _ _ hloads => (interfaces hloads).bind fun _ _ _ h => .pure ?_
    exact congrArg Reply.types (types_unnumbered_eq h)
  | implementedInterfaces type =>
    refine (getType type).bind fun _ _ _ hloads => ?_
    refine (implementedInterfaces hloads).bind fun _ _ _ h => .pure ?_
    exact congrArg Reply.types (types_unnumbered_eq h)
  | ancestors type =>
    refine (getType type).bind fun _ _ _ hloads => (ancestors hloads).bind fun _ _ _ h => .pure ?_
    exact congrArg Reply.types (types_unnumbered_eq h)
  | variance parameter =>
    exact (getType parameter).bind fun _ _ _ hloads => (variance hloads.2).bind_eq fun _ => inferInstance
  | isSubclass type other =>
    refine (getType type).bind fun _ _ _ hloads => (getType other).bind fun _ _ _ hloads' => ?_
    exact (isSubclassOf hloads hloads').bind_eq fun _ => inferInstance
  | isAssignable target source =>
    refine (getType target).bind fun _ _ _ hloads => (getType source).bind fun _ _ _ hloads' => ?_
    exact (isAssignableFrom hloads hloads').bind_eq fun _ => inferInstance
  | overridden method => exact bind_eq inferInstance fun _ => inferInstance
  | implemented method => exact bind_eq inferInstance fun _ => inferInstance

end Session.SameAfresh

/-! ## Registries in use -/

/-- What a registry is used for while all modules stay held. -/
inductive Use where
  | register (owner : ModuleId)
  | clear
  | ask (question : Question)

namespace Session

variable {α β : Type}

/-- The outcome of a computation from a registry. -/
def outcome (action : Session α) (registry : Registry) : Except Error α :=
  match action.run registry with
  | .ok value _ => .ok value
  | .error error _ => .error error

/-- The registry after a computation. -/
def after (action : Session α) (registry : Registry) : Registry :=
  match action.run registry with
  | .ok _ after => after
  | .error _ after => after

/-- The answer and the registry behind an action are read off its run. -/
lemma outcome_after_of_run {action : Session α} {registry last : Registry}
    {expected : Except Error α} (h : action registry = result expected last) :
    action.outcome registry = expected ∧ action.after registry = last := by
  rw [outcome, after, EStateM.run, h]
  cases expected <;> exact ⟨rfl, rfl⟩

/-- Outcomes that match by equality are equal. -/
lemma Matches.eq {known found : Except Error α} (h : Matches Eq known found) : found = known := by
  cases known <;> cases found
  · exact congrArg Except.error h
  · exact h.elim
  · exact h.elim
  · exact congrArg Except.ok h.symm

end Session

namespace Registry

/-- What questions are answered with, one after the other. -/
def replies : Registry → List Use → List (Except Error Reply)
  | _, [] => []
  | registry, .register owner :: uses => (registry.register owner).replies uses
  | registry, .clear :: uses => registry.clear.replies uses
  | registry, .ask question :: uses =>
    Session.outcome question.ask registry :: (Session.after question.ask registry).replies uses

/-- What questions are answered with if each is asked of a registry in which the modules so far were
registered and nothing else was done. -/
def freshReplies : Registry → List Use → List (Except Error Reply)
  | _, [] => []
  | registry, .register owner :: uses => (registry.register owner).freshReplies uses
  | registry, .clear :: uses => registry.freshReplies uses
  | registry, .ask question :: uses =>
    Session.outcome question.ask registry :: registry.freshReplies uses

/-- No module that is registered changes anything of what stays kept. -/
def BearsAll : Registry → List Use → Prop
  | _, [] => True
  | registry, .register owner :: uses =>
    registry.Bears owner ∧ (registry.register owner).BearsAll uses
  | registry, .clear :: uses => registry.clear.BearsAll uses
  | registry, .ask question :: uses =>
    (Session.after question.ask registry).BearsAll uses

/-- A registry from which nothing was looked up yet, whose modules are held. -/
structure IsFresh (registry : Registry) : Prop where
  objects : registry.KeepsOnly fun _ _ => False
  holds : registry.HoldsRegistered
  resolvers : registry.resolvers.filter (·.isAsked) = []

/-- A registry in use that goes on from a fresh one. -/
structure Follows (used fresh : Registry) : Prop where
  isFresh : fresh.IsFresh
  mirrors : ∃ current, fresh.Mirrors current used

section

variable {registry used fresh : Registry}

lemma isFresh (modules : Array Module) (holders : List ModuleId) :
    ({ modules, holders } : Registry).IsFresh where
  objects := keepsOnly_of_empty rfl rfl _
  holds owner howner := by
    obtain rfl := List.mem_singleton.mp howner
    rfl
  resolvers := rfl

lemma IsFresh.mirrors (h : registry.IsFresh) :
    registry.Mirrors (fun _ stamp => registry.findings.size ≤ stamp) registry :=
  ⟨.refl h.resolvers, h.holds, .of_empty h.objects _⟩

/-- Registering a module loads no object. -/
lemma IsFresh.register (h : registry.IsFresh) (owner : ModuleId) :
    (registry.register owner).IsFresh :=
  ⟨h.objects.register owner, holdsRegistered_register registry owner,
    (h.mirrors.shares.register h.holds h.holds owner).resolvers⟩

lemma IsFresh.follows (h : registry.IsFresh) : registry.Follows registry :=
  ⟨h, _, h.mirrors⟩

/-- A registration that the used registry bears is followed by the one in the fresh registry. -/
lemma Follows.register (h : used.Follows fresh) {owner : ModuleId}
    (hbears : used.Bears owner) : (used.register owner).Follows (fresh.register owner) := by
  obtain ⟨hfresh, current, hshares, hholds, hrecalls⟩ := h
  have hregistered := hshares.register hfresh.holds hholds owner
  refine ⟨hfresh.register owner, (used.register owner).IsCurrent, hregistered,
    holdsRegistered_register used owner, ?_⟩
  rw [← hshares.view_eq] at hrecalls
  rw [← hregistered.view_eq]
  exact hrecalls.register hbears

lemma Follows.clear (h : used.Follows fresh) : used.clear.Follows fresh := by
  obtain ⟨hfresh, current, hshares, hholds, hrecalls⟩ := h
  exact ⟨hfresh, current, hshares.of_same rfl rfl rfl rfl, hholds, hrecalls.clear⟩

/-- From a registry in use a computation comes to what it comes to when nothing is kept, and the
registry can be used further. -/
lemma Follows.outcome_eq {α : Type} (h : used.Follows fresh) {action : Session α}
    {afresh : Afresh α}
    (hsame : ∀ current, Session.SameAfresh (fresh.Mirrors current) fresh.view Eq action afresh) :
    Session.outcome action used = afresh.run fresh.view ∧ (Session.after action used).Follows fresh := by
  obtain ⟨hfresh, current, hmirrors⟩ := h
  obtain ⟨outcome, last, hrun, hlast, hmatches⟩ := (hsame current).ensures used hmirrors
  obtain ⟨houtcome, hafter⟩ := Session.outcome_after_of_run hrun
  rw [houtcome, hafter]
  exact ⟨hmatches.eq, hfresh, current, hlast⟩

/-- A registry in use answers what is found out anew, and can be used further. -/
lemma Follows.ask (h : used.Follows fresh) (question : Question) :
    Session.outcome question.ask used = (question.ask : Afresh Reply).run fresh.view ∧
      (Session.after question.ask used).Follows fresh :=
  h.outcome_eq fun _ => Session.SameAfresh.ask question

lemma IsFresh.outcome_ask (h : fresh.IsFresh) (question : Question) :
    Session.outcome question.ask fresh = (question.ask : Afresh Reply).run fresh.view :=
  (h.follows.ask question).1

/-- A registry that bears all its registrations replies to every question as one that is asked it first.
-/
lemma replies_eq_freshReplies (h : used.Follows fresh) {uses : List Use}
    (hbears : used.BearsAll uses) : used.replies uses = fresh.freshReplies uses := by
  induction uses generalizing used fresh with
  | nil => rfl
  | cons use uses ih =>
    cases use with
    | register owner =>
      exact ih (h.register hbears.1) hbears.2
    | clear => exact ih h.clear hbears
    | ask question =>
      obtain ⟨houtcome, hafter⟩ := h.ask question
      rw [replies, freshReplies, houtcome, h.isFresh.outcome_ask]
      exact congrArg _ (ih hafter hbears)

end

/-- Modules are registered only while nothing is kept: before the first question, or after what was kept
is forgotten and before the next question. -/
def RegistersUnasked : Bool → List Use → Prop
  | _, [] => True
  | unasked, .register _ :: uses => unasked = true ∧ RegistersUnasked unasked uses
  | _, .clear :: uses => RegistersUnasked true uses
  | _, .ask _ :: uses => RegistersUnasked false uses

/-- What is not kept can not be changed. -/
lemma bearsAll_of_registersUnasked {registry : Registry} {unasked : Bool} {uses : List Use}
    (hobjects : unasked = true → registry.KeepsOnly fun _ _ => False)
    (h : RegistersUnasked unasked uses) : registry.BearsAll uses := by
  induction uses generalizing registry unasked with
  | nil => trivial
  | cons use uses ih =>
    cases use with
    | register owner =>
      have hempty := hobjects h.1
      exact ⟨bears_of_empty hempty owner, ih (fun _ => hempty.register owner) h.2⟩
    | clear => exact ih (fun _ => keepsOnly_of_empty rfl rfl _) h
    | ask question => exact ih (fun h : false = true => nomatch h) h

/-- The uses but for those that forget what is kept. -/
def withoutClears : List Use → List Use
  | [] => []
  | .clear :: uses => withoutClears uses
  | use :: uses => use :: withoutClears uses

/-- Fresh replies do not depend on clears, there being nothing to clear. -/
lemma freshReplies_withoutClears (registry : Registry) (uses : List Use) :
    registry.freshReplies (withoutClears uses) = registry.freshReplies uses := by
  induction uses generalizing registry with
  | nil => rfl
  | cons use uses ih =>
    cases use with
    | register owner => exact ih (registry.register owner)
    | clear => exact ih registry
    | ask question => exact congrArg (Session.outcome question.ask registry :: ·) (ih registry)

/-- **Transparency.** Whatever a registry of held modules is used for: as long as no module that is
registered changes anything of what is kept, each question is answered as by a registry in which the
modules so far were registered and nothing else was done. So it makes no difference when what is kept
is forgotten. -/
theorem replies_are_fresh (modules : Array Module) (holders : List ModuleId) (uses : List Use)
    (hbears : ({ modules, holders } : Registry).BearsAll uses) :
    ({ modules, holders } : Registry).replies uses =
        ({ modules, holders } : Registry).freshReplies uses ∧
      ∀ others, withoutClears others = withoutClears uses →
        ({ modules, holders } : Registry).BearsAll others →
          ({ modules, holders } : Registry).replies others =
            ({ modules, holders } : Registry).replies uses := by
  have hreplies {uses : List Use} (hbears : BearsAll { modules, holders } uses) :
      replies { modules, holders } uses = freshReplies { modules, holders } uses :=
    replies_eq_freshReplies (isFresh modules holders).follows hbears
  refine ⟨hreplies hbears, fun others hothers hbears' => ?_⟩
  rw [hreplies hbears, hreplies hbears', ← freshReplies_withoutClears, hothers,
    freshReplies_withoutClears]

end Registry

/-! ## What is kept is answered -/

namespace Registry

variable {registry : Registry} {owner : ModuleId}

/-- A registry shares the modules of another one, and keeps a member under a key. -/
def Remembers (registry : Registry) (key : Handle) (member : Member) (other : Registry) : Prop :=
  registry.SharesModules other ∧ (other.loaded? key).1 = some member

end Registry

namespace Session

open Registry

variable {registry : Registry} {key : Handle} {member : Member} {owner : ModuleId}
  {module : Module}

/-- A member that is kept is what its key leads to, whatever would be loaded now. -/
lemma exists_getMember_run_of_remembers {used : Registry}
    (hused : registry.Remembers key member used) (hhome : key.home? = some owner)
    (hresident : registry.resident? owner = some module)
    (hcanonical : registry.view.canonicalHandle key = key) :
    ∃ after, (getMember key : Session Member).run used = .ok member after := by
  have hdescribes : registry.view.Describes (registry.Remembers key member) :=
    describes_of_sharesModules fun _ h => h.1
  have hheld : used.isHeld owner := by
    rw [hused.1.isHeld_eq]
    exact isHeld_of_resident? hresident
  have hvisited : registry.Remembers key member used.visit :=
    ⟨hused.1.visit, (loaded?_visit hhome hheld).trans hused.2⟩
  obtain ⟨_, middle, hrun, hmiddle, rfl⟩ := yields_canonical hdescribes key _ hvisited
  rw [hcanonical] at hrun
  obtain ⟨load, hload⟩ := exists_getMember_run_eq hrun
  rw [hload, retrieve_run hhome ((hmiddle.1.resident?_eq owner).trans hresident),
    loadedOr_run hmiddle.2]
  exact ⟨_, rfl⟩

/-- What a key led to is kept under it. -/
lemma loaded?_of_getMember_run {used after : Registry} (hshares : registry.SharesModules used)
    (hcanonical : registry.view.canonicalHandle key = key)
    (hrun : (getMember key : Session Member).run used = .ok member after) :
    (after.loaded? key).1 = some member := by
  obtain ⟨_, middle, hfound, -, rfl⟩ :=
    yields_canonical (describes_of_sharesModules fun _ h => h) key _ hshares.visit
  rw [hcanonical] at hfound
  obtain ⟨load, hload⟩ := exists_getMember_run_eq hfound
  exact loaded?_of_retrieve (hload.symm.trans hrun)

end Session

namespace Registry

/-- Whoever asks for a member once more is given what was kept of it, though a module came in that would
change it. -/
lemma Follows.outcome_member_register {used fresh : Registry} (h : used.Follows fresh)
    {key : Handle} (place : ModuleId) {owner : ModuleId} {module : Module} (hhome : key.home? = some owner)
    (hresident : (fresh.register place).resident? owner = some module)
    (hcanonical : fresh.view.canonicalHandle key = key)
    (hcanonical' : (fresh.register place).view.canonicalHandle key = key)
    (hok : (Session.outcome (Question.member key).ask used).isOk) :
    Session.outcome (Question.member key).ask
        ((Session.after (Question.member key).ask used).register place) =
      Session.outcome (Question.member key).ask used := by
  obtain ⟨-, hfollows⟩ := h.ask (.member key)
  obtain ⟨hfresh, _, hshares, hholds, -⟩ := h
  obtain ⟨-, _, hshares', hholds', -⟩ := hfollows
  have hregistered := hshares'.register hfresh.holds hholds' place
  cases hrun : (getMember key : Session Member).run used with
  | error error after =>
    have hfails : ((Question.member key).ask : Session Reply).run used = .error error after :=
      Session.run_bind_error _ hrun
    rw [Session.outcome, hfails] at hok
    exact nomatch hok
  | ok member after =>
    have hfirst : ((Question.member key).ask : Session Reply) used =
        Session.result (.ok (.member member.unnumbered)) after := Session.run_bind_ok _ hrun
    obtain ⟨houtcome, hafter⟩ := Session.outcome_after_of_run hfirst
    rw [hafter] at hregistered
    have hkept := Session.loaded?_of_getMember_run hshares hcanonical hrun
    have hheld : after.isHeld owner := by
      have hheld := isHeld_of_resident? hresident
      rw [← hregistered.isHeld_eq, isHeld, register_holders] at hheld
      exact hheld
    have hremembers : (fresh.register place).Remembers key member (after.register place) :=
      ⟨hregistered, (loaded?_register hhome hheld place).trans hkept⟩
    obtain ⟨last, hagain⟩ :=
      Session.exists_getMember_run_of_remembers hremembers hhome hresident hcanonical'
    have hsecond : ((Question.member key).ask : Session Reply) (after.register place) =
        Session.result (.ok (.member member.unnumbered)) last := Session.run_bind_ok _ hagain
    rw [houtcome, hafter]
    exact (Session.outcome_after_of_run hsecond).1

end Registry

/-! ## A module that comes in late -/

/-- A class with a virtual method that takes a shape, and a class that derives from it and has the
method again. Shapes are in another assembly. -/
def drawingModule : Module where
  tables := {
    modules := [.named "App.dll"]
    typeRefs := [⟨⟨0x23000001⟩, "Shape", "L"⟩]
    typeDefs := [⟨0x100001, "B", "N", .null, 1, 1⟩, ⟨0x100001, "D", "N", ⟨0x02000001⟩, 1, 2⟩]
    methods := [⟨0, 0, 0x146, "F", [0x20, 0x01, 0x01, 0x12, 0x05], 1⟩,
      ⟨0, 0, 0x046, "F", [0x20, 0x01, 0x01, 0x12, 0x05], 1⟩]
    assemblyRefs := [⟨⟨0, 0, 0, 0⟩, 0, [], "Library", "", []⟩] }
  version := Root.defaultVersion
  path? := none
  constants := []
  modules_ne_nil := Row.Module.named_ne_nil "App.dll"

/-- The other assembly. -/
def shapesModule : Module where
  tables := {
    modules := [.named "Library.dll"]
    typeDefs := [⟨0x100001, "Shape", "L", .null, 1, 1⟩] }
  version := Root.defaultVersion
  path? := none
  constants := []
  modules_ne_nil := Row.Module.named_ne_nil "Library.dll"

/-- A registry that may register both. -/
def drawingRegistry : Registry where
  modules := #[CoreLibrary.module, drawingModule, shapesModule]
  holders := [1, 2]

/-- The method of the base class. -/
def drawnMethod : MethodHandle := { declaring := .definition 1 1, module := 1, row := 1 }

/-- The method of the class that derives from it. -/
def drawnAgainMethod : MethodHandle := { declaring := .definition 1 2, module := 1, row := 2 }

lemma drawingRegistry_isFresh : drawingRegistry.IsFresh := Registry.isFresh _ _

/-- With both modules registered and nothing asked before, replies are those of the view. -/
lemma drawingRegistry_outcome_ask (question : Question) :
    Session.outcome question.ask ((drawingRegistry.register 1).register 2) =
      (question.ask : Afresh Reply).run ((drawingRegistry.register 1).register 2).view := by
  exact ((drawingRegistry_isFresh.register 1).register 2).outcome_ask question

/-- The handle of a method in a reply. -/
def foundMethod? : Except Error Reply → Option MethodHandle
  | .ok (.method? (some method)) => some method.handle
  | _ => none

/-- A method that is read off a reply is the method that was replied. -/
lemma exists_of_foundMethod? {reply : Except Error Reply} {handle : MethodHandle}
    (h : foundMethod? reply = some handle) :
    ∃ method, reply = .ok (.method? (some method)) ∧ method.handle = handle := by
  unfold foundMethod? at h
  split at h
  next method => exact ⟨method, rfl, Option.some.inj h⟩
  next => exact nomatch h

/-- The types of the parameters of a method in a reply. -/
def shownTypes : Except Error Reply → List TypeHandle
  | .ok (.member (.method method)) => method.parameterTypes
  | _ => []

/-- A method that was asked for before the other assembly came in still takes a type of which only the
name is known, where a registry that was not asked before shows the type that the assembly defines. -/
theorem drawingRegistry_goes_stale :
    let uses : List Use := [.register 1, .ask (.member (.method drawnMethod)), .register 2,
      .ask (.member (.method drawnMethod))]
    drawingRegistry.replies uses ≠ drawingRegistry.freshReplies uses := by
  intro uses hsame
  have hfresh := drawingRegistry_isFresh.register 1
  have hfirst := hfresh.outcome_ask (.member (.method drawnMethod))
  have hok : (Session.outcome (Question.member (.method drawnMethod)).ask
      (drawingRegistry.register 1)).isOk := by
    rw [hfirst]
    decide +kernel
  have hhome : (Handle.method drawnMethod).home? = some 1 := rfl
  have hkept := hfresh.follows.outcome_member_register 2 hhome rfl (by decide +kernel)
    (by decide +kernel) hok
  have hlast : Session.outcome (Question.member (.method drawnMethod)).ask
      (drawingRegistry.register 1) = Session.outcome (Question.member (.method drawnMethod)).ask
        ((drawingRegistry.register 1).register 2) := hkept ▸ (List.cons.inj (List.cons.inj hsame).2).1
  rw [hfirst, drawingRegistry_outcome_ask] at hlast
  have hshown : shownTypes (((Question.member (.method drawnMethod)).ask : Afresh Reply).run
        (drawingRegistry.register 1).view) ≠
      shownTypes (((Question.member (.method drawnMethod)).ask : Afresh Reply).run
        ((drawingRegistry.register 1).register 2).view) := by
    decide +kernel
  exact hshown (congrArg shownTypes hlast)

/-- Once what was kept is forgotten and the other assembly is registered, the method overrides the one
of the base class. -/
theorem drawingRegistry_overrides_after_clear :
    let uses : List Use := [.register 1, .ask (.member (.method drawnMethod)), .clear, .register 2,
      .ask (.overridden drawnAgainMethod)]
    ∃ first method, drawingRegistry.replies uses = [first, .ok (.method? (some method))] ∧
      method.handle = drawnMethod := by
  intro uses
  have hbears : drawingRegistry.BearsAll uses :=
    Registry.bearsAll_of_registersUnasked (fun _ => drawingRegistry_isFresh.objects)
      ⟨rfl, rfl, trivial⟩
  have hreplies := (Registry.replies_are_fresh _ _ uses hbears).1
  have hlast : foundMethod? ((Question.ask (.overridden drawnAgainMethod) : Afresh Reply).run
      ((drawingRegistry.register 1).register 2).view) = some drawnMethod := by decide +kernel
  obtain ⟨method, hmethod, hhandle⟩ := exists_of_foundMethod? hlast
  refine ⟨Session.outcome (Question.member (.method drawnMethod)).ask (drawingRegistry.register 1),
    method, hreplies.trans ?_, hhandle⟩
  rw [← hmethod, ← drawingRegistry_outcome_ask]
  rfl

end CliMetadata
