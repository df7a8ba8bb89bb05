import CliMetadata.Proofs.Binding.Substitution
import CliMetadata.Proofs.Registry.Outcome

/-!
# What signatures spell

The handle that a signature spells, written out as it stands: every token is the type that it stands
for, and constructions and parameters are left as they are. Converting a signature gives a handle
that is canonical but for names that wait to be bound, and into which arguments can be put as into
the canonical handle of what is spelled.
-/

namespace CliMetadata

/-- The parameters that a scope gives to methods are declared by methods. -/
def Scope.IsProper (scope : Scope) : Prop :=
  ∀ owner, scope.method? = some owner → ∃ module row, owner = .method module row

/-- The scope of a type stands for parameters of rows. -/
lemma Scope.isProper_ofType (row : UInt32) : (Scope.ofType row).IsProper :=
  fun _ h => absurd h (by simp [Scope.ofType])

lemma Scope.isProper_ofMethod (module : ModuleId) (typeRow? : Option UInt32) (row : UInt32) :
    (Scope.ofMethod module typeRow? row).IsProper :=
  fun _ h => ⟨module, row, (Option.some.inj h).symm⟩

namespace View

variable (view : View)

/-! ## Spelling -/

/-- The handle that a token spells, given what the signature of a type specification spells. -/
def spellToken (home : Resident) (spell : TypeSignature → Except Error TypeHandle)
    (token : Token) : Except Error TypeHandle :=
  match token.table? with
  | some .typeDef =>
    if (home.module.typeDef? token.row).isSome then .ok (home.definition token.row)
    else .error (.tokenNotFound token)
  | some .typeRef =>
    match view.resolveTypeRef home token.row with
    | some found => .ok found
    | none => .error (.tokenNotFound token)
  | some .typeSpec =>
    match rowAt? home.module.tables.typeSpecs token.row with
    | some spec => TypeSignature.decode spec.signature >>= spell
    | none => .error (.tokenNotFound token)
  | _ => .error (.tokenNotFound token)

/-- The handle that a signature spells, given what tokens and the signatures in it spell. -/
def spellSignature (home : Resident) (scope : Scope) (ofToken : Token → Except Error TypeHandle)
    (spell : TypeSignature → Except Error TypeHandle) (signature : TypeSignature) :
    Except Error TypeHandle :=
  match signature with
  | .typedByRef => .ok .typedReference
  | .class token | .valueType token => ofToken token
  | .inst definition arguments => do
    let definition ← spell definition
    return .inst definition (← arguments.mapM spell)
  | .typeParameter number =>
    match scope.typeRow? with
    | some row => .ok (.parameter (.type home.id row) number)
    | none => .error (.malformed (.typeParameterScope number))
  | .methodParameter number =>
    match scope.method? with
    | some owner => .ok (.parameter owner number)
    | none => .error (.malformed (.methodParameterScope number))
  | .vector element => return .array (← spell element) 0
  | .array element rank => return .array (← spell element) rank
  | .pointer element => return .pointer (← spell element)
  | .byRef element => return .byRef (← spell element)
  | .functionPointer _ => .ok .functionPointer
  | builtin => CoreLibrary.definition "System" (builtin.builtinName?.getD "")

mutual

/-- The handle that a token spells, with at most `levels` signatures inside each other. -/
def spellTokenWithin (home : Resident) (scope : Scope) : Nat → Token → Except Error TypeHandle
  | 0, token => view.spellToken home (fun _ => .error (.recursionLimit maxSignatureDepth)) token
  | levels + 1, token => view.spellToken home (spellWithin home scope levels) token

/-- The handle that a signature spells, with at most `levels` signatures inside each other. -/
def spellWithin (home : Resident) (scope : Scope) : Nat → TypeSignature → Except Error TypeHandle
  | 0, _ => .error (.recursionLimit maxSignatureDepth)
  | levels + 1, signature =>
    spellSignature home scope (spellTokenWithin home scope levels) (spellWithin home scope levels)
      signature

end

/-- The handle that a token spells. -/
def spellTypeToken (home : Resident) (scope : Scope) (token : Token) : Except Error TypeHandle :=
  view.spellTokenWithin home scope (maxSignatureDepth + 1) token

/-- The handle that a signature spells. -/
def spell (home : Resident) (scope : Scope) (signature : TypeSignature) :
    Except Error TypeHandle :=
  view.spellWithin home scope (maxSignatureDepth + 1) signature

/-! ## Converting -/

/-- The handle that is kept of what a signature spells: constructions and parameters are canonical,
and names wait to be bound. -/
def settle : TypeHandle → TypeHandle
  | .inst type arguments => view.canonical (.inst type arguments)
  | .parameter owner number => view.canonical (.parameter owner number)
  | .array element rank => .array (settle element) rank
  | .pointer element => .pointer (settle element)
  | .byRef element => .byRef (settle element)
  | other => other

end View

/-! ## Substitution of nothing -/

namespace TypeHandle

mutual

/-- Without arguments nothing is substituted. -/
lemma substitute_nil : ∀ handle : TypeHandle, handle.substitute [] [] = handle
  | .inst type arguments => by rw [substitute, substituteList_nil arguments]
  | .array element _ => by rw [substitute, substitute_nil element]
  | .pointer element => by rw [substitute, substitute_nil element]
  | .byRef element => by rw [substitute, substitute_nil element]
  | .parameter (.type _ _) _ => rfl
  | .parameter (.method _ _) _ => rfl
  | .definition _ _ => rfl
  | .reference _ _ => rfl
  | .named _ _ => rfl
  | .functionPointer => rfl
  | .typedReference => rfl

lemma substituteList_nil : ∀ handles : List TypeHandle, substituteList [] [] handles = handles
  | [] => rfl
  | handle :: handles => by
    rw [substituteList, substitute_nil handle, substituteList_nil handles]

end

/-- A handle that names a type is bound. -/
lemma NamesType.isBound {handle : TypeHandle} (h : handle.NamesType) : handle.IsBound := by
  rcases h with ⟨owner, row, rfl⟩ | ⟨assembly, fullName, rfl⟩ <;> exact trivial

end TypeHandle

/-! ## Kept handles -/

namespace View

variable (view : View)

lemma settle_of_namesType {handle : TypeHandle} (h : handle.NamesType) :
    view.settle handle = handle := by
  rcases h with ⟨owner, row, rfl⟩ | ⟨assembly, fullName, rfl⟩ <;> rfl

/-- Arguments are put into a kept handle as into the canonical one. -/
lemma canonical_substitute_settle (types methods : List TypeHandle) :
    ∀ handle : TypeHandle, handle.IsBound →
      view.canonical ((view.settle handle).substitute types methods) =
        view.canonical ((view.canonical handle).substitute types methods)
  | .inst _ _, _ => rfl
  | .parameter _ _, _ => rfl
  | .array element _, hbound => by
    have helement := canonical_substitute_settle types methods element hbound
    simp [settle, TypeHandle.substitute, helement]
  | .pointer element, hbound => by
    have helement := canonical_substitute_settle types methods element hbound
    simp [settle, TypeHandle.substitute, helement]
  | .byRef element, hbound => by
    have helement := canonical_substitute_settle types methods element hbound
    simp [settle, TypeHandle.substitute, helement]
  | .named assembly fullName, _ => by
    -- Nothing is put into a name, bound or not.
    rcases view.bindNamed_cases assembly fullName with ⟨owner, row, h⟩ | h <;>
      simp [settle, h, TypeHandle.substitute]
  | .definition _ _, _ => rfl
  | .reference _ _, hbound => hbound.elim
  | .functionPointer, _ => rfl
  | .typedReference, _ => rfl

/-- A kept handle has the canonical handle of what was spelled. -/
lemma canonical_settle {handle : TypeHandle} (hbound : handle.IsBound) :
    view.canonical (view.settle handle) = view.canonical handle := by
  have hnothing := view.canonical_substitute_settle [] [] handle hbound
  rw [TypeHandle.substitute_nil, TypeHandle.substitute_nil] at hnothing
  rw [hnothing, view.canonical_canonical handle hbound]

/-- A construction of kept handles has the canonical handle of the construction itself. -/
lemma canonical_inst_settle {type : TypeHandle} {arguments : List TypeHandle}
    (htype : type.IsBound) (harguments : TypeHandle.AllBound arguments) :
    view.canonical (.inst (view.settle type) (arguments.map view.settle)) =
      view.canonical (.inst type arguments) := by
  have hmap : view.canonicals (arguments.map view.settle) = view.canonicals arguments := by
    rw [canonicals_eq_map, canonicals_eq_map, List.map_map]
    refine List.map_congr_left fun argument hargument => ?_
    exact view.canonical_settle ((TypeHandle.allBound_iff arguments).mp harguments argument hargument)
  rw [canonical_inst, canonical_inst, view.canonical_settle htype, hmap]

/-! ## What is spelled -/

/-- A property that every spelled handle has: that of the handles that a token can stand for, kept by
everything that a signature puts around other handles. -/
structure HoldsOfSpelled (home : Resident) (P : TypeHandle → Prop) : Prop where
  definition : ∀ owner row, P (.definition owner row)
  reference : ∀ (token : Token) (found), token.table? = some .typeRef →
    view.resolveTypeRef home token.row = some found → P found
  parameter : ∀ owner number, P (.parameter owner number)
  inst : ∀ type arguments, P type → (∀ argument ∈ arguments, P argument) → P (.inst type arguments)
  array : ∀ element rank, P element → P (.array element rank)
  pointer : ∀ element, P element → P (.pointer element)
  byRef : ∀ element, P element → P (.byRef element)
  functionPointer : P .functionPointer
  typedReference : P .typedReference

/-- A type of the core library is a definition. -/
lemma coreDefinition_isDefinition {space name : String} {handle : TypeHandle}
    (h : CoreLibrary.definition space name = .ok handle) : handle.IsDefinition := by
  rw [CoreLibrary.definition] at h
  cases hrow : CoreLibrary.module.findType? space name with
  | none => simp [hrow] at h
  | some row =>
    rw [hrow] at h
    exact ⟨CoreLibrary.id, row, (Except.ok.inj h).symm⟩

namespace HoldsOfSpelled

variable {view} {home : Resident} {P : TypeHandle → Prop} (hP : view.HoldsOfSpelled home P)
include hP

/-- What holds of all handles that signatures and rows spell holds of those that tokens spell. -/
lemma of_spellToken {spell : TypeSignature → Except Error TypeHandle}
    (hspell : ∀ signature handle, spell signature = .ok handle → P handle)
    {token : Token} {handle : TypeHandle} (h : view.spellToken home spell token = .ok handle) :
    P handle := by
  rw [spellToken] at h
  -- Definitions, references and specifications in turn. No other table has types.
  split at h
  · split at h
    · exact Except.ok.inj h ▸ hP.definition home.id token.row
    · exact absurd h (by simp)
  next htable =>
    split at h
    next found hfound => exact Except.ok.inj h ▸ hP.reference token found htable hfound
    · exact absurd h (by simp)
  · split at h
    · obtain ⟨signature, -, hsignature⟩ := bind_eq_ok.mp h
      exact hspell signature handle hsignature
    · exact absurd h (by simp)
  · exact absurd h (by simp)

/-- What holds of the parts of a signature holds of what it spells. -/
lemma of_spellSignature {scope : Scope} {ofToken : Token → Except Error TypeHandle}
    {spell : TypeSignature → Except Error TypeHandle}
    (htoken : ∀ token handle, ofToken token = .ok handle → P handle)
    (hspell : ∀ signature handle, spell signature = .ok handle → P handle)
    {signature : TypeSignature} {handle : TypeHandle}
    (h : spellSignature home scope ofToken spell signature = .ok handle) : P handle := by
  cases signature with
  | «class» token => exact htoken token handle h
  | valueType token => exact htoken token handle h
  | inst definition arguments =>
    obtain ⟨type, htype, hrest⟩ := bind_eq_ok.mp h
    obtain ⟨spelled, hspelled, hinst⟩ := bind_eq_ok.mp hrest
    obtain rfl := pure_eq_ok.mp hinst
    refine hP.inst type spelled (hspell definition type htype) fun other hother => ?_
    obtain ⟨argument, -, hargument⟩ := exists_left_of_mem (mapM_eq_ok.mp hspelled) other hother
    exact hspell argument other hargument
  -- Parameters take their owner from the scope, and without a scope there is no handle.
  | typeParameter number =>
    rw [spellSignature] at h
    cases hrow : scope.typeRow? with
    | none => simp [hrow] at h
    | some row =>
      rw [hrow] at h
      exact Except.ok.inj h ▸ hP.parameter (.type home.id row) number
  | methodParameter number =>
    rw [spellSignature] at h
    cases howner : scope.method? with
    | none => simp [howner] at h
    | some owner =>
      rw [howner] at h
      exact Except.ok.inj h ▸ hP.parameter owner number
  | vector element =>
    obtain ⟨inner, hinner, hpure⟩ := bind_eq_ok.mp h
    obtain rfl := pure_eq_ok.mp hpure
    exact hP.array inner 0 (hspell element inner hinner)
  | array element rank =>
    obtain ⟨inner, hinner, hpure⟩ := bind_eq_ok.mp h
    obtain rfl := pure_eq_ok.mp hpure
    exact hP.array inner rank (hspell element inner hinner)
  | pointer element =>
    obtain ⟨inner, hinner, hpure⟩ := bind_eq_ok.mp h
    obtain rfl := pure_eq_ok.mp hpure
    exact hP.pointer inner (hspell element inner hinner)
  | byRef element =>
    obtain ⟨inner, hinner, hpure⟩ := bind_eq_ok.mp h
    obtain rfl := pure_eq_ok.mp hpure
    exact hP.byRef inner (hspell element inner hinner)
  | functionPointer method => exact Except.ok.inj h ▸ hP.functionPointer
  | typedByRef => exact Except.ok.inj h ▸ hP.typedReference
  | _ =>
    simp only [spellSignature] at h
    obtain ⟨owner, row, rfl⟩ := coreDefinition_isDefinition h
    exact hP.definition owner row

/-- Such a property holds of all that is spelled, by induction on the levels. -/
lemma of_spellWithin (scope : Scope) (levels : Nat) :
    (∀ token handle, view.spellTokenWithin home scope levels token = .ok handle → P handle) ∧
    ∀ signature handle, view.spellWithin home scope levels signature = .ok handle → P handle := by
  induction levels with
  | zero =>
    refine ⟨fun token handle h => ?_, fun signature handle h => absurd h (by simp [spellWithin])⟩
    exact hP.of_spellToken (fun _ _ h => absurd h (by simp)) h
  | succ levels ih =>
    exact ⟨fun token handle h => hP.of_spellToken ih.2 h,
      fun signature handle h => hP.of_spellSignature ih.1 ih.2 h⟩

lemma of_spellTypeToken {scope : Scope} {token : Token} {handle : TypeHandle}
    (h : view.spellTypeToken home scope token = .ok handle) : P handle :=
  (hP.of_spellWithin scope _).1 token handle h

lemma of_spell {scope : Scope} {signature : TypeSignature} {handle : TypeHandle}
    (h : view.spell home scope signature = .ok handle) : P handle :=
  (hP.of_spellWithin scope _).2 signature handle h

end HoldsOfSpelled

/-- Being bound is such a property. -/
lemma holdsOfSpelled_isBound (home : Resident) :
    view.HoldsOfSpelled home TypeHandle.IsBound where
  definition _ _ := trivial
  reference _ _ _ hfound := (view.resolveTypeRef_names hfound).isBound
  parameter _ _ := trivial
  inst _ arguments htype harguments := ⟨htype, (TypeHandle.allBound_iff arguments).mpr harguments⟩
  array _ _ helement := helement
  pointer _ helement := helement
  byRef _ helement := helement
  functionPointer := trivial
  typedReference := trivial

/-- No reference is left in what a token spells. -/
lemma spellTypeToken_isBound {home : Resident} {scope : Scope} {token : Token}
    {handle : TypeHandle} (h : view.spellTypeToken home scope token = .ok handle) :
    handle.IsBound :=
  (view.holdsOfSpelled_isBound home).of_spellTypeToken h

/-- No reference is left in what a signature spells. -/
lemma spell_isBound {home : Resident} {scope : Scope} {signature : TypeSignature}
    {handle : TypeHandle} (h : view.spell home scope signature = .ok handle) : handle.IsBound :=
  (view.holdsOfSpelled_isBound home).of_spell h

end View

/-! ## Converting in a session -/

namespace Session

variable {view : View} {among : Registry → Prop} (hview : view.Describes among)
include hview

/-- Sessions read a token as the settled form of what it spells, if they convert signatures so. -/
lemma yields_typeOfToken (home : Resident) {convert : TypeSignature → Session TypeHandle}
    {spell : TypeSignature → Except Error TypeHandle}
    (hconvert : ∀ signature, Yields among (convert signature) (view.settle <$> spell signature))
    (token : Token) :
    Yields among (typeOfToken home convert token)
      (view.settle <$> view.spellToken home spell token) := by
  rw [typeOfToken, View.spellToken]
  cases token.table? with
  | none => exact yields_throw _
  | some table =>
    cases table with
    | typeDef =>
      by_cases hrow : (home.module.typeDef? token.row).isSome
      -- A definition is there or not, whatever modules are known.
      · simp only [hrow, if_true]
        exact yields_pure _
      · simp only [hrow]
        exact yields_throw _
    | typeRef =>
      refine (yields_resolveTypeRef hview home token.row).bind ?_
      cases hfound : view.resolveTypeRef home token.row with
      | none => exact yields_throw _
      | some found =>
        show Yields among _ (.ok (view.settle found))
        rw [view.settle_of_namesType (view.resolveTypeRef_names hfound)]
        exact yields_pure found
    | typeSpec =>
      simp only
      cases rowAt? home.module.tables.typeSpecs token.row with
      | none => exact yields_throw _
      | some spec =>
        simp only
        cases TypeSignature.decode spec.signature with
        | error error => exact (yields_ofExcept (.error error)).bind_error
        | ok signature => exact (yields_ofExcept (.ok signature)).bind (hconvert signature)
    | _ => exact yields_throw _

omit hview in
lemma yields_coreDefinition (space name : String) :
    Yields among (MonadExcept.ofExcept (CoreLibrary.definition space name))
      (view.settle <$> CoreLibrary.definition space name) := by
  cases hcore : CoreLibrary.definition space name with
  | error error => exact yields_throw error
  | ok handle =>
    have hdefinition := View.coreDefinition_isDefinition hcore
    show Yields among _ (.ok (view.settle handle))
    rw [view.settle_of_namesType (Or.inl hdefinition)]
    exact yields_pure handle

omit hview in
/-- A step on what was converted, beside one on what was spelled. -/
lemma yields_decorate {action : Session TypeHandle} {spelled : Except Error TypeHandle}
    {f : TypeHandle → TypeHandle} (haction : Yields among action (view.settle <$> spelled))
    (hf : ∀ handle, f (view.settle handle) = view.settle (f handle)) :
    Yields among (do return f (← action)) (view.settle <$> do return f (← spelled)) := by
  cases spelled with
  | error error => exact haction.bind_error
  | ok handle =>
    refine haction.bind ?_
    rw [hf]
    exact yields_pure _

lemma yields_typeOfSignature (home : Resident) {scope : Scope} (hscope : scope.IsProper)
    {ofToken : Token → Session TypeHandle} {spellToken : Token → Except Error TypeHandle}
    {convert : TypeSignature → Session TypeHandle}
    {spell : TypeSignature → Except Error TypeHandle}
    (htoken : ∀ token, Yields among (ofToken token) (view.settle <$> spellToken token))
    (hbound : ∀ signature handle, spell signature = .ok handle → handle.IsBound)
    (hconvert : ∀ signature, Yields among (convert signature) (view.settle <$> spell signature))
    (signature : TypeSignature) :
    Yields among (typeOfSignature home scope ofToken convert signature)
      (view.settle <$> View.spellSignature home scope spellToken spell signature) := by
  cases signature with
  | «class» token => exact htoken token
  | valueType token => exact htoken token
  | inst definition arguments =>
    rw [typeOfSignature, View.spellSignature]
    have harguments : Yields among (arguments.mapM convert)
        (List.map view.settle <$> arguments.mapM spell) := by
      rw [← mapM_map_result]
      exact yields_mapM fun argument _ => hconvert argument
    -- Errors come from the definition first and then from the arguments, in both readings.
    have htype := hconvert definition
    cases hspelled : spell definition with
    | error error =>
      rw [hspelled] at htype
      exact htype.bind_error
    | ok type =>
      rw [hspelled] at htype
      refine htype.bind ?_
      cases hothers : arguments.mapM spell with
      | error error =>
        rw [hothers] at harguments
        exact harguments.bind_error
      | ok others =>
        rw [hothers] at harguments
        refine harguments.bind ?_
        -- The construction is made canonical only here, and then its parts must not have
        -- references left.
        have hall : TypeHandle.AllBound others := by
          refine (TypeHandle.allBound_iff others).mpr fun other hother => ?_
          obtain ⟨argument, -, h⟩ := exists_left_of_mem (mapM_eq_ok.mp hothers) other hother
          exact hbound argument other h
        show Yields among _ (.ok (view.canonical (.inst type others)))
        rw [← view.canonical_inst_settle (hbound definition type hspelled) hall]
        exact yields_canonicalType hview _
  | typeParameter number =>
    rw [typeOfSignature, View.spellSignature]
    cases scope.typeRow? with
    | none => exact yields_throw _
    | some row => exact yields_canonicalType hview _
  | methodParameter number =>
    rw [typeOfSignature, View.spellSignature]
    cases howner : scope.method? with
    | none => exact yields_throw _
    | some owner =>
      obtain ⟨module, row, rfl⟩ := hscope owner howner
      exact yields_pure _
  | vector element => exact yields_decorate (hconvert element) fun _ => rfl
  | array element rank => exact yields_decorate (hconvert element) fun _ => rfl
  | pointer element => exact yields_decorate (hconvert element) fun _ => rfl
  | byRef element => exact yields_decorate (hconvert element) fun _ => rfl
  | functionPointer method => exact yields_pure _
  | typedByRef => exact yields_pure _
  | _ =>
    simp only [typeOfSignature, View.spellSignature]
    exact yields_coreDefinition "System" _

/-- Sessions read tokens and signatures as settled forms, by induction on the levels. -/
lemma yields_convertWithin (home : Resident) {scope : Scope} (hscope : scope.IsProper)
    (levels : Nat) :
    (∀ token, Yields among (typeTokenWithin home scope levels token)
      (view.settle <$> view.spellTokenWithin home scope levels token)) ∧
    ∀ signature, Yields among (convertWithin home scope levels signature)
      (view.settle <$> view.spellWithin home scope levels signature) := by
  induction levels with
  | zero =>
    exact ⟨fun token => yields_typeOfToken hview home (fun _ => yields_throw _) token,
      fun _ => yields_throw _⟩
  | succ levels ih =>
    refine ⟨fun token => yields_typeOfToken hview home ih.2 token, fun signature => ?_⟩
    exact yields_typeOfSignature hview home hscope ih.1
      ((view.holdsOfSpelled_isBound home).of_spellWithin scope levels).2 ih.2 signature

/-- The type of a token is what it spells, made fit to be kept. -/
lemma yields_typeToken (home : Resident) {scope : Scope} (hscope : scope.IsProper)
    (token : Token) :
    Yields among (typeToken home scope token)
      (view.settle <$> view.spellTypeToken home scope token) :=
  (yields_convertWithin hview home hscope _).1 token

/-- The type of a signature is what it spells, made fit to be kept. -/
lemma yields_convert (home : Resident) {scope : Scope} (hscope : scope.IsProper)
    (signature : TypeSignature) :
    Yields among (convert home scope signature)
      (view.settle <$> view.spell home scope signature) :=
  (yields_convertWithin hview home hscope _).2 signature

end Session

end CliMetadata
