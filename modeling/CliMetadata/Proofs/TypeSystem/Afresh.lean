import CliMetadata.Proofs.TypeSystem.Lookup

/-!
# Looking up without keeping

A computation that sees a fixed set of modules and keeps nothing loads everything anew. What it
comes to is a plain function of the modules: this is what look-ups mean, whatever a registry keeps of
those that went before.
-/

namespace CliMetadata

/-- Computations that see a fixed set of modules and keep nothing. -/
abbrev Afresh := ReaderT View (Except Error)

instance : MonadObjects Afresh where
  held? owner := return (← read).held? owner
  resident? owner := return (← read).resident? owner
  searchOrder := return (← read).searchOrder
  resolvers := return (← read).resolvers
  supply resolver assembly := return (← read).supply resolver assembly
  visit := pure ()
  loaded? _ := pure none
  keep _ member := pure member
  freshStamp _ := pure 0
  findings _ := pure {}
  note _ _ := pure ()

namespace Afresh

variable {α β : Type} (view : View)

/-! ## Steps -/

/-- An outcome is answered as it is. -/
@[simp]
lemma run_ofExcept (outcome : Except Error α) :
    (MonadExcept.ofExcept outcome : Afresh α).run view = outcome := by
  cases outcome <;> rfl

/-- A failed action is no answer, and no failure. -/
@[simp]
lemma run_attempt (action : Afresh α) :
    (attempt action).run view = pure (action.run view).toOption := by
  show tryCatch (some <$> action.run view) (fun _ => pure none) = _
  cases action.run view <;> rfl

/-- Held modules are those of the view. -/
@[simp]
lemma run_held (owner : ModuleId) :
    (held? owner : Afresh (Option Module)).run view = pure (view.held? owner) := rfl

@[simp]
lemma run_resident (owner : ModuleId) :
    (resident? owner : Afresh (Option Module)).run view = pure (view.resident? owner) := rfl

/-- Modules are searched in the order of the view. -/
@[simp]
lemma run_searchOrder : (searchOrder : Afresh (List Resident)).run view = pure view.searchOrder :=
  rfl

@[simp]
lemma run_resolvers :
    (MonadModules.resolvers : Afresh (List Nat)).run view = pure view.resolvers := rfl

/-- A resolver supplies what it does in the view. -/
@[simp]
lemma run_supply (resolver : Nat) (assembly : String) :
    (MonadModules.supply resolver assembly : Afresh (Option Resident)).run view =
      pure (view.supply resolver assembly) := rfl

/-- Nothing is swept where nothing is held. -/
@[simp]
lemma run_visit : (MonadObjects.visit : Afresh Unit).run view = pure () := rfl

/-- Nothing is held. -/
@[simp]
lemma run_loaded (handle : Handle) :
    (MonadObjects.loaded? handle : Afresh (Option Member)).run view = pure none := rfl

/-- What is kept is handed back as it was. -/
@[simp]
lemma run_keep (handle : Handle) (member : Member) :
    (MonadObjects.keep handle member : Afresh Member).run view = pure member := rfl

/-- Without a registry all stamps are the same. -/
@[simp]
lemma run_freshStamp (handle : TypeHandle) :
    (MonadObjects.freshStamp handle : Afresh Nat).run view = pure 0 := rfl

/-- Actions over a list run one after another. -/
lemma run_mapM (step : β → Afresh α) (items : List β) :
    (items.mapM step).run view = items.mapM fun item => (step item).run view := by
  induction items with
  | nil => rfl
  | cons item items ih =>
    rw [List.mapM_cons, List.mapM_cons, ← ih]
    rfl

/-- Actions that all answer leave what they answer. -/
lemma run_filterMapM {step : β → Afresh (Option α)} {f : β → Option α} {items : List β}
    (hstep : ∀ item ∈ items, (step item).run view = pure (f item)) :
    (items.filterMapM step).run view = pure (items.filterMap f) := by
  have hloop (before : List α) : (List.filterMapM.loop step items before).run view =
      pure (before.reverse ++ items.filterMap f) := by
    induction items generalizing before with
    | nil => simp [List.filterMapM.loop]
    | cons item items ih =>
      have hrest := ih fun other hother => hstep other (List.mem_cons_of_mem item hother)
      rw [List.filterMapM.loop, ReaderT.run_bind, hstep item List.mem_cons_self, pure_bind,
        List.filterMap_cons]
      cases f item <;> simp [hrest]
  exact hloop []

/-- A finding is what is found out now. -/
lemma finding_eq {find? : Findings → Option α} (hnone : find? {} = none) (type : TypeInfo)
    (put : α → Findings → Findings) (find : Afresh α) : finding type find? put find = find := by
  have hfindings : (MonadObjects.findings type : Afresh Findings) = pure {} := rfl
  rw [finding, hfindings, pure_bind, hnone]
  exact bind_pure find

/-! ## Following references -/

/-- Resolvers are asked as in the view. -/
@[simp]
lemma run_askResolvers (assembly fullName : String) (resolvers : List Nat) :
    (askResolvers assembly fullName resolvers : Afresh (Option TypeHandle)).run view =
      pure (view.askResolvers assembly fullName resolvers) := by
  induction resolvers with
  | nil => rfl
  | cons resolver resolvers ih =>
    rw [askResolvers, View.askResolvers_cons]
    cases h : (view.supply resolver assembly).bind (·.find? fullName) <;> simp [h, ih]

/-- A name is bound as in the view. -/
@[simp]
lemma run_bindNamed (assembly fullName : String) :
    (bindNamed assembly fullName : Afresh TypeHandle).run view =
      pure (view.bindNamed assembly fullName) := by
  rw [bindNamed, View.bindNamed_eq]
  cases h : findAmong? view.searchOrder assembly fullName <;> simp [h]

@[simp]
lemma run_nestedIn (outer : TypeHandle) (name : String) :
    (nestedIn outer name : Afresh TypeHandle).run view = pure (view.nestedIn outer name) := by
  cases outer with
  | definition owner row =>
    rw [nestedIn, View.nestedIn_definition]
    cases h : view.resident? owner with
    | none => simp [h]
    | some module => cases hnested : module.findNested? row name <;> simp [h, hnested]
  | _ => rfl

/-- A reference is resolved as in the view, by induction on the levels. -/
@[simp]
lemma run_resolveTypeRefWithin (home : Resident) (levels : Nat) (row : UInt32) :
    (resolveTypeRefWithin home levels row : Afresh (Option TypeHandle)).run view =
      pure (view.resolveTypeRefWithin home levels row) := by
  induction levels generalizing row with
  | zero => rfl
  | succ levels ih =>
    rw [resolveTypeRefWithin, View.resolveTypeRefWithin_succ]
    cases hrow : home.module.typeRef? row with
    | none => simp
    | some reference =>
      by_cases hnested : reference.resolutionScope.isTable .typeRef
      -- The name is nested, so what is found is nested in what the outer name stands for.
      · cases houter : view.resolveTypeRefWithin home levels reference.resolutionScope.row <;>
          simp [hnested, ih, houter]
      -- Names are searched in another assembly only if the scope says so, and in the own module
      -- otherwise.
      · by_cases hassembly : reference.resolutionScope.isTable .assemblyRef
        · cases hname : rowAt? home.module.tables.assemblyRefs reference.resolutionScope.row <;>
            simp [hnested, hassembly, hname]
        · cases hfound : home.module.findType? reference.space reference.name <;>
            simp [hnested, hassembly, hfound]

@[simp]
lemma run_resolveTypeRef (home : Resident) (row : UInt32) :
    (resolveTypeRef home row : Afresh (Option TypeHandle)).run view =
      pure (view.resolveTypeRef home row) :=
  run_resolveTypeRefWithin view home _ row

/-! ## Canonical handles -/

/-- A parameter belongs to the level at which the view adds it. -/
@[simp]
lemma run_declaringLevel (owner : ModuleId) (row number : UInt32) :
    (declaringLevel owner row number : Afresh UInt32).run view =
      pure (view.declaringLevel owner row number) := by
  rw [declaringLevel, View.declaringLevel_eq]
  cases h : view.resident? owner <;> simp [h]

/-- The own parameters of a type are those of the view. -/
@[simp]
lemma run_ownParameters (home : Resident) (row : UInt32) :
    (ownParameters home row : Afresh (List TypeHandle)).run view =
      pure (view.ownParameters home row) := by
  rw [ownParameters, View.ownParameters_eq, run_mapM]
  exact (congrArg (List.mapM · _) (funext fun number => by simp; rfl)).trans (mapM_ok _ _)

/-- A construction over its own parameters is its definition, as in the view. -/
@[simp]
lemma run_construct (type : TypeHandle) (arguments : List TypeHandle) :
    (construct type arguments : Afresh TypeHandle).run view =
      pure (view.construct type arguments) := by
  cases type with
  | definition owner row =>
    rw [construct, View.construct_definition]
    cases h : view.resident? owner with
    | none => simp [h]
    | some module =>
      by_cases hown : arguments = view.ownParameters ⟨owner, module⟩ row <;> simp [h, hown]
  | _ => rfl

mutual

/-- A handle is made canonical as in the view. -/
@[simp]
lemma run_canonicalType : ∀ handle : TypeHandle,
    (canonicalType handle : Afresh TypeHandle).run view = pure (view.canonical handle)
  | .reference owner row => by
    rw [canonicalType, View.canonical_reference]
    cases h : view.resident? owner <;> simp [h]
  | .named assembly fullName => by rw [canonicalType, View.canonical_named, run_bindNamed]
  | .inst type arguments => by
    rw [canonicalType, View.canonical_inst]
    simp [run_canonicalType type, run_canonicalTypes arguments]
  | .parameter (.type owner row) number => by simp [canonicalType]
  | .array element rank => by simp [canonicalType, run_canonicalType element]
  | .pointer element => by simp [canonicalType, run_canonicalType element]
  | .byRef element => by simp [canonicalType, run_canonicalType element]
  | .definition _ _ => rfl
  | .parameter (.method _ _) _ => rfl
  | .functionPointer => rfl
  | .typedReference => rfl

@[simp]
lemma run_canonicalTypes : ∀ handles : List TypeHandle,
    (canonicalTypes handles : Afresh (List TypeHandle)).run view = pure (view.canonicals handles)
  | [] => rfl
  | handle :: handles => by
    simp [canonicalTypes, run_canonicalType handle, run_canonicalTypes handles]

end

@[simp]
lemma run_canonicalMethod (handle : MethodHandle) :
    (canonicalMethod handle : Afresh MethodHandle).run view =
      pure (view.canonicalMethod handle) := by
  simp [canonicalMethod, View.canonicalMethod]

@[simp]
lemma run_canonicalMember (handle : MemberHandle) :
    (canonicalMember handle : Afresh MemberHandle).run view =
      pure (view.canonicalMember handle) := by
  simp [canonicalMember, View.canonicalMember]

@[simp]
lemma run_canonical (handle : Handle) :
    (canonical handle : Afresh Handle).run view = pure (view.canonicalHandle handle) := by
  cases handle <;> simp [canonical, View.canonicalHandle]

/-! ## Types of signatures -/

/-- A token stands for the settled form of what the view spells for it. -/
lemma run_typeOfToken (home : Resident) {convert : TypeSignature → Afresh TypeHandle}
    {spell : TypeSignature → Except Error TypeHandle}
    (hconvert : ∀ signature, (convert signature).run view = view.settle <$> spell signature)
    (token : Token) :
    (typeOfToken home convert token).run view = view.settle <$> view.spellToken home spell token := by
  rw [typeOfToken, View.spellToken]
  cases token.table? with
  | none => rfl
  | some table =>
    cases table with
    | typeDef =>
      by_cases hrow : (home.module.typeDef? token.row).isSome <;> simp [hrow] <;> rfl
    | typeRef =>
      cases hfound : view.resolveTypeRef home token.row with
      | none =>
        simp [hfound]
        rfl
      | some found =>
        -- What a name is bound to is a definition, which is settled already.
        have hnames := view.resolveTypeRef_names hfound
        simp [hfound, Functor.map, Except.map, view.settle_of_namesType hnames]
        rfl
    | typeSpec =>
      cases hrow : rowAt? home.module.tables.typeSpecs token.row with
      | none => rfl
      | some spec =>
        cases hsignature : TypeSignature.decode spec.signature with
        | error error => simp [hsignature]; rfl
        | ok signature => simp [hsignature, ok_bind, hconvert]
    | _ => rfl

/-- A type of the core library is its own settled form. -/
lemma run_coreDefinition (space name : String) :
    (MonadExcept.ofExcept (CoreLibrary.definition space name) : Afresh TypeHandle).run view =
      view.settle <$> CoreLibrary.definition space name := by
  rw [run_ofExcept]
  cases hcore : CoreLibrary.definition space name with
  | error error => rfl
  | ok handle =>
    have hdefinition := View.coreDefinition_isDefinition hcore
    rw [Except.map_ok, view.settle_of_namesType (Or.inl hdefinition)]

variable {view} in
/-- A step on what was converted, beside one on what was spelled. -/
lemma run_decorate {action : Afresh TypeHandle} {spelled : Except Error TypeHandle}
    {f : TypeHandle → TypeHandle} (haction : action.run view = view.settle <$> spelled)
    (hf : ∀ handle, f (view.settle handle) = view.settle (f handle)) :
    (do return f (← action) : Afresh TypeHandle).run view =
      view.settle <$> do return f (← spelled) := by
  rw [ReaderT.run_bind, haction]
  cases spelled with
  | error error => rfl
  | ok handle => exact congrArg Except.ok (hf handle)

lemma run_typeOfSignature (home : Resident) {scope : Scope} (hscope : scope.IsProper)
    {ofToken : Token → Afresh TypeHandle} {spellToken : Token → Except Error TypeHandle}
    {convert : TypeSignature → Afresh TypeHandle}
    {spell : TypeSignature → Except Error TypeHandle}
    (htoken : ∀ token, (ofToken token).run view = view.settle <$> spellToken token)
    (hbound : ∀ signature handle, spell signature = .ok handle → handle.IsBound)
    (hconvert : ∀ signature, (convert signature).run view = view.settle <$> spell signature)
    (signature : TypeSignature) :
    (typeOfSignature home scope ofToken convert signature).run view =
      view.settle <$> View.spellSignature home scope spellToken spell signature := by
  cases signature with
  | «class» token => exact htoken token
  | valueType token => exact htoken token
  | inst definition arguments =>
    -- The arguments are converted one by one, before the construction is made canonical.
    have harguments : (arguments.mapM convert).run view =
        List.map view.settle <$> arguments.mapM spell := by
      rw [run_mapM, ← mapM_map_result]
      exact congrArg (List.mapM · arguments) (funext hconvert)
    rw [typeOfSignature, View.spellSignature, ReaderT.run_bind, hconvert]
    cases htype : spell definition with
    | error error => rfl
    | ok type =>
      rw [Except.map_ok, ok_bind, ok_bind, ReaderT.run_bind, harguments]
      cases hothers : arguments.mapM spell with
      | error error => rfl
      | ok others =>
        -- Nothing has to be settled in the arguments again as long as all of them are bound.
        have hall : TypeHandle.AllBound others := by
          refine (TypeHandle.allBound_iff others).mpr fun other hother => ?_
          obtain ⟨argument, -, h⟩ := exists_left_of_mem (mapM_eq_ok.mp hothers) other hother
          exact hbound argument other h
        rw [Except.map_ok, ok_bind, ok_bind, run_canonicalType,
          view.canonical_inst_settle (hbound definition type htype) hall]
        rfl
  | typeParameter number =>
    rw [typeOfSignature, View.spellSignature]
    cases scope.typeRow? with
    | none => rfl
    | some row => exact run_canonicalType view _
  | methodParameter number =>
    rw [typeOfSignature, View.spellSignature]
    cases howner : scope.method? with
    | none => rfl
    | some owner =>
      obtain ⟨module, row, rfl⟩ := hscope owner howner
      rfl
  | vector element => exact run_decorate (hconvert element) fun _ => rfl
  | array element rank => exact run_decorate (hconvert element) fun _ => rfl
  | pointer element => exact run_decorate (hconvert element) fun _ => rfl
  | byRef element => exact run_decorate (hconvert element) fun _ => rfl
  | functionPointer method => rfl
  | typedByRef => rfl
  | _ =>
    simp only [typeOfSignature, View.spellSignature]
    exact run_coreDefinition view "System" _

/-- Tokens and signatures are converted to settled forms, by induction on the levels. -/
lemma run_convertWithin (home : Resident) {scope : Scope} (hscope : scope.IsProper)
    (levels : Nat) :
    (∀ token, (typeTokenWithin home scope levels token : Afresh TypeHandle).run view =
      view.settle <$> view.spellTokenWithin home scope levels token) ∧
    ∀ signature, (convertWithin home scope levels signature : Afresh TypeHandle).run view =
      view.settle <$> view.spellWithin home scope levels signature := by
  induction levels with
  | zero => exact ⟨fun token => run_typeOfToken view home (fun _ => rfl) token, fun _ => rfl⟩
  | succ levels ih =>
    refine ⟨fun token => run_typeOfToken view home ih.2 token, fun signature => ?_⟩
    exact run_typeOfSignature view home hscope ih.1
      ((view.holdsOfSpelled_isBound home).of_spellWithin scope levels).2 ih.2 signature

/-- The type of a token is what it spells, made fit to be kept. -/
lemma run_typeToken (home : Resident) {scope : Scope} (hscope : scope.IsProper) (token : Token) :
    (typeToken home scope token : Afresh TypeHandle).run view =
      view.settle <$> view.spellTypeToken home scope token :=
  (run_convertWithin view home hscope _).1 token

/-- The type of a signature is what it spells, made fit to be kept. -/
lemma run_convert (home : Resident) {scope : Scope} (hscope : scope.IsProper)
    (signature : TypeSignature) :
    (convert home scope signature : Afresh TypeHandle).run view =
      view.settle <$> view.spell home scope signature :=
  (run_convertWithin view home hscope _).2 signature

end Afresh

end CliMetadata
