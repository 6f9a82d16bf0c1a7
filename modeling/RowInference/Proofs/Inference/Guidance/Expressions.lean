import RowInference.Proofs.Inference.Guidance.Patterns

/-! # Annotated expressions guide inference

An expression with consistent types on its nodes shows what the variables of its inference can stand for. The names in
scope are seen under the types chosen so far, and these are kept from then on.
-/

namespace RowInference

variable {valuation later : Valuation} {issued issued' : Nat}

/-! ## Names in scope -/

/-- A scheme of a name in scope: a type that has been issued, or a scheme that quantifies all its variables. -/
structure Scheme.Usual (issued : Nat) (scheme : Scheme) : Prop where
  below : scheme.binders = [] → scheme.body.Below issued
  tailless : scheme.binders ≠ [] → scheme.Tailless

namespace Scheme

variable {scheme : Scheme}

theorem Tailless.usual (tailless : scheme.Tailless) (issued : Nat) : scheme.Usual issued where
  below plain v inBody := by
    have isBinder : v ∈ scheme.binders := by
      rw [tailless.1]
      exact List.mem_eraseDups.mpr inBody
    rw [plain] at isBinder
    cases isBinder
  tailless _ := tailless

/-- There is nothing to read in a scheme that quantifies all its variables. -/
theorem Tailless.read_eq (tailless : scheme.Tailless) (valuation : Valuation) : scheme.read valuation = scheme := by
  rw [read]
  split
  · next plain =>
    obtain ⟨isClosed, own, _, kinded⟩ := tailless
    have binders := List.isEmpty_iff.mp plain
    have constant : scheme.body.read valuation = scheme.body := by
      refine Ty.mapVars_eq_self kinded.within.flat fun v inBody => ?_
      have isBinder : v ∈ (Scheme.closed scheme.body).binders := List.mem_eraseDups.mpr inBody
      rw [← isClosed, binders] at isBinder
      cases isBinder
    rw [constant, mono, ← binders]
  · rfl

theorem Usual.mono (usual : scheme.Usual issued) (le : issued ≤ issued') : scheme.Usual issued' :=
  ⟨fun plain => (usual.below plain).mono le, usual.tailless⟩

/-- A later valuation reads a usual scheme the same way. -/
theorem Usual.read_eq (usual : scheme.Usual issued) (continues : valuation.Continues issued later issued') :
    scheme.read later = scheme.read valuation := by
  rw [read, read]
  split
  · next plain => rw [continues.read_eq (usual.below (List.isEmpty_iff.mp plain))]
  · rfl

/-- A plain type has no instance but itself. -/
theorem eq_of_instance_mono {type target : Ty} (flat : target.Flat) (isInstance : (Scheme.mono target).Instance type) :
    target = type := by
  obtain ⟨_, _, rfl⟩ := isInstance
  exact (Ty.mapVars_eq_self flat fun v _ => by simp [mono, binds]).symm

/-- What the scheme has as an instance under a valuation, a use of it reaches. -/
theorem Usual.reaches (usual : scheme.Usual issued) (flat : valuation.Flat) {type : Ty} (regular : type.Regular)
    (isInstance : (scheme.read valuation).Instance type) : scheme.Reaches valuation type := by
  rw [read] at isInstance
  split at isInstance
  · next plain =>
    exact .inl ⟨List.isEmpty_iff.mp plain, eq_of_instance_mono (Ty.mapVars_flat _ flat) isInstance⟩
  · next plain =>
    have tailless := usual.tailless fun none => plain (List.isEmpty_iff.mpr none)
    exact .inr ⟨tailless, isInstance, regular.canonical, regular.flat⟩

end Scheme

namespace Environment

/-- What is in scope, under a valuation of the variables issued so far. -/
structure Reflects (env : Environment) (valuation : Valuation) (issued : Nat) (context : Context) : Prop where
  flat : valuation.Flat
  usual : env.All (Scheme.Usual issued)
  shown : ∀ name, context name = (env.get? name).map (Scheme.read valuation)

variable {env : Environment} {context : Context}

/-- An environment of closed schemes without tails reflects itself. -/
theorem Reflects.of_tailless (tailless : env.All Scheme.Tailless) (flat : valuation.Flat) (issued : Nat) :
    env.Reflects valuation issued env.get? where
  flat := flat
  usual := tailless.imp fun _ schemeTailless => schemeTailless.usual issued
  shown name := by
    cases found : env.get? name with
    | none => rfl
    | some scheme => rw [Option.map_some, (tailless.get? found).read_eq]

theorem Reflects.enter (reflects : env.Reflects valuation issued context) :
    env.enter.Reflects valuation issued context where
  flat := reflects.flat
  usual := reflects.usual.enter
  shown name := by rw [get?_enter, reflects.shown]

theorem Reflects.add (reflects : env.Reflects valuation issued context) (name : String) {type target : Ty}
    (reads : type.ReadsAs valuation issued target) :
    (env.add name (Scheme.mono type)).Reflects valuation issued (context.addAll [(name, target)]) where
  flat := reflects.flat
  usual := reflects.usual.add name ⟨fun _ => reads.below, fun binders => absurd rfl binders⟩
  shown other := by
    change (if other = name then _ else context other) = _
    rw [get?_add, reflects.shown]
    split
    · exact congrArg (fun type => some (Scheme.mono type)) reads.read.symm
    · rfl

/-- What is in scope stays reflected when more variables are issued. -/
theorem Reflects.continued (reflects : env.Reflects valuation issued context)
    (continues : valuation.Continues issued later issued') : env.Reflects later issued' context where
  flat := continues.flat reflects.flat
  usual := reflects.usual.imp fun _ usual => usual.mono continues.le
  shown name := by
    rw [reflects.shown]
    cases found : env.get? name with
    | none => rfl
    | some scheme => exact congrArg some ((reflects.usual.get? found).read_eq continues).symm

/-- A name can be used at every regular instance of its scheme. -/
theorem Reflects.reaches (reflects : env.Reflects valuation issued context) {name : String}
    {scheme : Scheme} {type : Ty}
    (found : context name = some scheme) (regular : type.Regular) (isInstance : scheme.Instance type) :
    ∃ own, env.get? name = some own ∧ own.Reaches valuation type := by
  rw [reflects.shown] at found
  obtain ⟨own, isOwn, rfl⟩ := Option.map_eq_some_iff.mp found
  exact ⟨own, isOwn, (reflects.usual.get? isOwn).reaches reflects.flat regular isInstance⟩

end Environment

/-- Names come into scope with the types that theirs stand for. -/
theorem declareAllScript_attains (names : List (String × Ty)) {scene : Scene} {context : Context} {depth : Nat}
    {targets : List (String × Ty)} {ends : Valuation → Scene → Unit → Prop}
    (reads : NamesRead valuation scene.issued names targets)
    (reflects : scene.env.Reflects valuation scene.issued context)
    (finish : ∀ env : Environment, env.Reflects valuation scene.issued (context.addAll targets) →
      env.outer = scene.env.outer → ends valuation { scene with env } ()) :
    (declareAllScript names).Attains depth valuation scene ends := by
  obtain ⟨below, rfl⟩ := reads
  induction names generalizing scene context with
  | nil => exact finish scene.env reflects rfl
  | cons entry rest ih =>
    obtain ⟨here, others⟩ := List.forall_mem_cons.mp below
    simp only [declareAllScript, Script.Attains]
    exact ih (reflects.add entry.1 ⟨here, rfl⟩) others finish

/-! ## Parts of expressions -/

namespace Expr

variable {scene scene₁ scene₂ : Scene} {context : Context} {depth : Nat} {valuation₁ valuation₂ : Valuation}

/-- The typed expression reads as the annotated one. -/
structure ReadsAs (valuation : Valuation) (issued : Nat) (typed given : Expr Typed) : Prop where
  read : typed.mapInfo (Typed.read valuation) = given
  below : InfosBelow issued typed.infos

theorem ReadsAs.type {typed given : Expr Typed} (reads : ReadsAs valuation issued typed given) :
    typed.type.ReadsAs valuation issued given.type := by
  refine ⟨reads.below _ typed.info_mem_infos, ?_⟩
  rw [← type_under, under, reads.read]

theorem ReadsAs.continued {typed given : Expr Typed} (reads : ReadsAs valuation issued typed given)
    (continues : valuation.Continues issued later issued') : ReadsAs later issued' typed given where
  read := (typed.mapInfo_congr (reads.below.read_eq continues)).trans reads.read
  below := reads.below.mono continues.le

/-- The type of a function reads as that of the annotated one. -/
theorem read_functionType {params givenParams : List (Pattern Typed)} {body given : Expr Typed}
    (paramsRead : params.map (Pattern.mapInfo (Typed.read valuation)) = givenParams)
    (bodyReads : body.mapInfo (Typed.read valuation) = given) :
    (functionType params body).read valuation = functionType givenParams given := by
  rw [← paramsRead, ← bodyReads]
  exact (functionType_under params body).symm

/-- From one scene to another with the same names in scope and the types of variables kept. -/
structure Leads (valuation : Valuation) (scene : Scene) (later : Valuation) (after : Scene) : Prop where
  continues : valuation.Continues scene.issued later after.issued
  env : after.env = scene.env

theorem Leads.refl (valuation : Valuation) (scene : Scene) : Leads valuation scene valuation scene := ⟨.refl _ _, rfl⟩

theorem Leads.trans (first : Leads valuation scene valuation₁ scene₁)
    (second : Leads valuation₁ scene₁ valuation₂ scene₂) : Leads valuation scene valuation₂ scene₂ :=
  ⟨first.continues.trans second.continues, second.env.trans first.env⟩

theorem Leads.issue (leads : Leads valuation scene valuation₁ scene₁)
    (continues : valuation₁.Continues scene₁.issued later issued) :
    Leads valuation scene later { scene₁ with issued } :=
  ⟨leads.continues.trans continues, leads.env⟩

theorem Leads.reflects (leads : Leads valuation scene later scene₁)
    (reflects : scene.env.Reflects valuation scene.issued context) :
    scene₁.env.Reflects later scene₁.issued context := by
  rw [leads.env]
  exact reflects.continued leads.continues

/-- The annotation guides the script of an expression, whatever the form of the expression. -/
def Guides (given : Expr Typed) {infer : InferM (Expr Typed)} (inner : Script infer) (depth : Nat) : Prop :=
  ∀ ⦃valuation : Valuation⦄ ⦃scene : Scene⦄ ⦃context : Context⦄ ⦃ends : Valuation → Scene → Expr Typed → Prop⦄,
    scene.env.Reflects valuation scene.issued context → given.WellTyped context →
    (∀ later after typed, Leads valuation scene later after → ReadsAs later after.issued typed given →
      ends later after typed) → inner.Attains depth valuation scene ends

variable {given : Expr Typed} {infer : InferM (Expr Typed)} {inner : Script infer}

/-- An argument is guided to its type. -/
theorem argScript_attains {function target : Ty} {ends : Valuation → Scene → Expr Typed × Ty → Prop}
    (guides : Guides given inner depth) (reflects : scene.env.Reflects valuation scene.issued context)
    (ok : given.WellTyped context)
    (isFunction : function.ReadsAs valuation scene.issued (.function given.type target)) (regular : target.Regular)
    (finish : ∀ later after typed result, Leads valuation scene later after →
      ReadsAs later after.issued typed given → result.ReadsAs later after.issued target →
      ends later after (typed, result)) : (argScript function inner).Attains depth valuation scene ends := by
  simp only [argScript, Script.Attains]
  refine guides reflects ok fun valuation₁ scene₁ typed leads reads => ?_
  refine ⟨target, regular.canonical, regular.flat, Ty.meets_none _, fun valuation₂ continues isTarget => ?_⟩
  have result : Ty.ReadsAs valuation₂ (scene₁.issued + 1) _ target := .fresh isTarget
  have applied := (reads.continued continues).type.function result
  have function' := isFunction.continued (leads.continues.trans continues)
  refine ⟨function'.read.trans applied.read.symm, fun later issued continues' => ?_⟩
  exact finish later _ typed _ (leads.issue (continues.trans continues')) (reads.continued (continues.trans continues'))
    (result.continued continues')

/-- Parameters are guided, and their names come into scope. -/
theorem paramsScript_attains {limit : Nat} {params : List (Pattern Typed)}
    {ends : Valuation → Scene → List (Pattern Typed) → Prop} (paramsGuided : Pattern.AllGuided limit params depth)
    (reflects : scene.env.Reflects valuation scene.issued context) (ok : ∀ param ∈ params, param.WellTyped)
    (distinct : Distinct (Pattern.namesOf params))
    (finish : ∀ later after typed names, valuation.Continues scene.issued later after.issued →
      Pattern.AllReadAs later after.issued typed names params →
      after.env.Reflects later after.issued (context.addAll (Pattern.namesOf params)) →
      after.env.outer = scene.env.outer → ends later after typed) :
    (paramsScript limit (params.map (Pattern.mapInfo Typed.span))).Attains depth valuation scene ends := by
  simp only [paramsScript, Script.Attains]
  refine paramsGuided ok (by exact distinct) fun later after typed names leads reads => ?_
  have bound : after.bound = names := leads.bound
  have env : after.env = scene.env := leads.env
  have reflects' : after.env.Reflects later after.issued context := by
    rw [env]
    exact reflects.continued leads.continues
  refine declareAllScript_attains after.bound (bound ▸ reads.names) reflects' fun env' reflects'' outer => ?_
  exact finish later _ typed names leads.continues reads reflects'' (outer.trans (by rw [env]))

/-- A function is guided in a scope of its own. -/
theorem functionScript_attains {limit : Nat} {params : List (Pattern Typed)}
    {ends : Valuation → Scene → List (Pattern Typed) × Expr Typed → Prop}
    (paramsGuided : Pattern.AllGuided limit params depth) (guides : Guides given inner depth)
    (reflects : scene.env.Reflects valuation scene.issued context) (paramsOk : ∀ param ∈ params, param.WellTyped)
    (distinct : Distinct (Pattern.namesOf params)) (bodyOk : given.WellTyped (context.addAll (Pattern.namesOf params)))
    (finish : ∀ later after typedParams typedBody names, Leads valuation scene later after →
      Pattern.AllReadAs later after.issued typedParams names params → ReadsAs later after.issued typedBody given →
      ends later after (typedParams, typedBody)) :
    (functionScript limit (params.map (Pattern.mapInfo Typed.span)) inner).Attains depth valuation scene ends := by
  simp only [functionScript, Script.Attains]
  have inside : ({ scene with env := scene.env.enter } : Scene).env.Reflects valuation scene.issued context :=
    reflects.enter
  refine paramsScript_attains paramsGuided (by exact inside) paramsOk distinct
    fun valuation₁ scene₁ typed names continues reads reflects' outer => ?_
  refine guides reflects' bodyOk fun valuation₂ scene₂ body leads bodyReads => ?_
  exact finish valuation₂ _ typed body names
    ⟨continues.trans leads.continues, Environment.exit_of_outer (by rw [leads.env, outer])⟩
    (reads.continued leads.continues) bodyReads

/-- The type of a function with regular parameters and a regular body is regular. -/
theorem functionType_regular {params : List (Pattern Typed)}
    (paramsRegular : ∀ info ∈ Pattern.infosOf params, info.Regular) (bodyRegular : ∀ info ∈ given.infos, info.Regular) :
    (functionType params given).Regular := by
  refine .curried (List.forall_mem_map.mpr fun param member => ?_) (bodyRegular _ given.info_mem_infos).type
  induction params with
  | nil => cases member
  | cons first rest ih =>
    obtain ⟨here, others⟩ := List.forall_mem_append.mp paramsRegular
    rcases List.mem_cons.mp member with rfl | inRest
    · exact (here _ param.info_mem_infos).type
    · exact ih others inRest

/-- A local function is guided. Inside, its name has the type of the whole function. -/
theorem localScript_attains {limit : Nat} {seen : List String} {name : String} {place : Span}
    {params : List (Pattern Typed)} {ends : Valuation → Scene → Binding Typed → Prop}
    (regular : (functionType params given).Regular)
    (paramsGuided : Pattern.AllGuided limit params depth) (guides : Guides given inner depth)
    (reflects : scene.env.Reflects valuation scene.issued context) (new : name ∉ seen)
    (paramsOk : ∀ param ∈ params, param.WellTyped) (distinct : Distinct (Pattern.namesOf params))
    (bodyOk : given.WellTyped ((context.addAll [(name, functionType params given)]).addAll (Pattern.namesOf params)))
    (finish : ∀ later after typedParams typedBody names, valuation.Continues scene.issued later after.issued →
      Pattern.AllReadAs later after.issued typedParams names params → ReadsAs later after.issued typedBody given →
      after.env.Reflects later after.issued (context.addAll [(name, functionType params given)]) →
      after.env.outer = scene.env.outer → ends later after (.function name typedParams typedBody)) :
    (localScript limit seen name place (params.map (Pattern.mapInfo Typed.span)) inner).Attains depth valuation scene
      ends := by
  simp only [localScript, Script.Attains]
  refine ⟨fun present => new (List.contains_iff_mem.mp present), fun _ => ?_⟩
  refine ⟨functionType params given, regular.canonical, regular.flat, Ty.meets_none _,
    fun valuation₁ continues isSelf => ?_⟩
  have self : Ty.ReadsAs valuation₁ (scene.issued + 1) _ _ := .fresh isSelf
  have inside := (reflects.continued continues).add name self
  refine functionScript_attains paramsGuided guides (by exact inside) paramsOk distinct bodyOk
    fun valuation₂ scene₂ typedParams typedBody names leads paramsRead bodyReads => ?_
  have self₂ := self.continued leads.continues
  refine ⟨self₂.read.trans (read_functionType paramsRead.read bodyReads.read).symm, fun later issued continues' => ?_⟩
  refine finish later _ typedParams typedBody names (continues.trans (leads.continues.trans continues'))
    (paramsRead.continued continues') (bodyReads.continued continues') ?_ ?_
  · exact (leads.reflects (by exact inside)).continued continues'
  · rw [leads.env]
    rfl

/-- A branch is guided, its pattern to the type of the subject. -/
theorem branchScript_attains {limit : Nat} {pattern : Pattern Typed} {subject result subjectType resultType : Ty}
    {ends : Valuation → Scene → Branch Typed → Prop} (patternGuided : Pattern.Guided limit pattern depth)
    (guides : Guides given inner depth)
    (reflects : scene.env.Reflects valuation scene.issued context)
    (typed : BranchTyped context subjectType resultType pattern given)
    (isSubject : subject.ReadsAs valuation scene.issued subjectType)
    (isResult : result.ReadsAs valuation scene.issued resultType)
    (finish : ∀ later after typedPattern typedBody names, Leads valuation scene later after →
      Pattern.ReadsAs later after.issued typedPattern names pattern → ReadsAs later after.issued typedBody given →
      ends later after (.mk typedPattern typedBody)) :
    (branchScript limit subject result (pattern.mapInfo Typed.span) inner).Attains depth valuation scene ends := by
  simp only [branchScript, Script.Attains]
  refine patternGuided typed.patternOk (by exact typed.distinct) fun valuation₁ scene₁ typedPattern names
    leads reads => ?_
  have isSubject₁ := isSubject.continued leads.continues
  refine ⟨isSubject₁.read.trans (reads.type.read.trans typed.subject).symm, fun valuation₂ issued₂ continues₂ => ?_⟩
  have bound : scene₁.bound = names := leads.bound
  have env : scene₁.env = scene.env.enter := leads.env
  have reads₂ := reads.continued continues₂
  have reflects₂ : scene₁.env.Reflects valuation₂ issued₂ context := by
    rw [env]
    exact reflects.enter.continued (leads.continues.trans continues₂)
  refine declareAllScript_attains scene₁.bound (by rw [bound]; exact reads₂.names) (by exact reflects₂)
    fun env' reflects₃ outer => ?_
  refine guides (by exact reflects₃) typed.bodyOk fun valuation₃ scene₃ typedBody bodyLeads bodyReads => ?_
  have continues₃ := continues₂.trans bodyLeads.continues
  have isResult₃ := isResult.continued (leads.continues.trans continues₃)
  refine ⟨isResult₃.read.trans (bodyReads.type.read.trans typed.result).symm, fun later issued continues => ?_⟩
  have restored : scene₃.env.exit = scene.env := Environment.exit_of_outer (by rw [bodyLeads.env, outer, env])
  exact finish later ⟨_, _, issued⟩ typedPattern typedBody names
    ⟨leads.continues.trans (continues₃.trans continues), restored⟩
    (reads.continued (continues₃.trans continues)) (bodyReads.continued continues)

/-- Distinct names can be taken one after the other. -/
theorem takeNamesScript_attains (span : Span) (seen : List String) (names : List (String × Ty))
    {ends : Valuation → Scene → List String → Prop} (distinct : (seen ++ names.map Prod.fst).Nodup)
    (finish : ends valuation scene (seen ++ names.map Prod.fst)) :
    (takeNamesScript span seen names).Attains depth valuation scene ends := by
  induction names generalizing seen with
  | nil =>
    rw [List.map_nil, List.append_nil] at finish
    exact finish
  | cons entry rest ih =>
    have new : entry.1 ∉ seen := by
      rw [List.nodup_append] at distinct
      exact fun present => distinct.2.2 entry.1 present entry.1 (List.mem_cons_self ..) rfl
    simp only [takeNamesScript, Script.Attains]
    refine ⟨fun present => new (List.contains_iff_mem.mp present), fun _ => ih (seen ++ [entry.1]) ?_ ?_⟩
    · rwa [List.append_assoc]
    · rwa [List.append_assoc]

/-! ## Lists of parts -/

structure ItemsRead (valuation : Valuation) (issued : Nat) (typed givens : List (Expr Typed)) : Prop where
  read : typed.map (mapInfo (Typed.read valuation)) = givens
  below : InfosBelow issued (itemInfos typed)

theorem ItemsRead.nil : ItemsRead valuation issued [] [] := ⟨rfl, by simp [InfosBelow, itemInfos]⟩

theorem ItemsRead.cons {typed : Expr Typed} {rest givens : List (Expr Typed)}
    (first : ReadsAs valuation issued typed given)
    (others : ItemsRead valuation issued rest givens) : ItemsRead valuation issued (typed :: rest) (given :: givens) :=
  ⟨by rw [List.map_cons, first.read, others.read], first.below.append others.below⟩

structure FieldsRead (valuation : Valuation) (issued : Nat) (typed givens : List (Field Typed)) : Prop where
  read : typed.map (Field.mapInfo (Typed.read valuation)) = givens
  below : InfosBelow issued (fieldInfos typed)

theorem FieldsRead.continued {typed givens : List (Field Typed)} (reads : FieldsRead valuation issued typed givens)
    (continues : valuation.Continues issued later issued') : FieldsRead later issued' typed givens where
  read := (mapFields_congr typed (reads.below.read_eq continues)).trans reads.read
  below := reads.below.mono continues.le

/-- The types of the fields read as the annotated ones. -/
theorem FieldsRead.fieldTypes {typed givens : List (Field Typed)} (reads : FieldsRead valuation issued typed givens) :
    (fieldTypes typed).read valuation = fieldTypes givens := by
  rw [← reads.read, fieldTypes_under]

structure BranchesRead (valuation : Valuation) (issued : Nat) (typed givens : List (Branch Typed)) : Prop where
  read : typed.map (Branch.mapInfo (Typed.read valuation)) = givens
  below : InfosBelow issued (branchInfos typed)

structure BindingsRead (valuation : Valuation) (issued : Nat) (typed givens : List (Binding Typed)) : Prop where
  read : typed.map (Binding.mapInfo (Typed.read valuation)) = givens
  below : InfosBelow issued (bindingInfos typed)

theorem BindingsRead.continued {typed givens : List (Binding Typed)}
    (reads : BindingsRead valuation issued typed givens)
    (continues : valuation.Continues issued later issued') : BindingsRead later issued' typed givens where
  read := (mapBindings_congr typed (reads.below.read_eq continues)).trans reads.read
  below := reads.below.mono continues.le

/-- The types on an expression guide its own inference. -/
def Guided (limit : Nat) (given : Expr Typed) (depth : Nat) : Prop :=
  Guides given ((given.mapInfo Typed.span).script limit) depth

def ArgsGuided (limit : Nat) (givens : List (Expr Typed)) (depth : Nat) : Prop :=
  ∀ ⦃valuation : Valuation⦄ ⦃scene : Scene⦄ ⦃context : Context⦄ ⦃function target : Ty⦄
    ⦃ends : Valuation → Scene → List (Expr Typed) × Ty → Prop⦄,
    scene.env.Reflects valuation scene.issued context → (∀ arg ∈ givens, arg.WellTyped context) →
    function.ReadsAs valuation scene.issued (Ty.curried (givens.map Expr.type) target) →
    (Ty.curried (givens.map Expr.type) target).Regular →
    (∀ later after typed result, Leads valuation scene later after → ItemsRead later after.issued typed givens →
      result.ReadsAs later after.issued target → ends later after (typed, result)) →
    (argsScript limit function (givens.map (mapInfo Typed.span))).Attains depth valuation scene ends

theorem argsGuided_nil {limit : Nat} : ArgsGuided limit [] depth := by
  intro valuation scene context function target ends reflects _ isFunction _ finish
  rw [List.map_nil]
  simp only [argsScript, Script.Attains]
  exact finish valuation scene [] function (.refl _ _) .nil isFunction

theorem argsGuided_cons {limit : Nat} {rest : List (Expr Typed)} (guided : Guided limit given depth)
    (restGuided : ArgsGuided limit rest depth) : ArgsGuided limit (given :: rest) depth := by
  intro valuation scene context function target ends reflects ok isFunction regular finish
  rw [List.forall_mem_cons] at ok
  rw [List.map_cons]
  simp only [argsScript, Script.Attains]
  refine argScript_attains guided reflects ok.1 isFunction regular.target
    fun valuation₁ scene₁ arg' result leads₁ reads₁ isResult => ?_
  refine restGuided (leads₁.reflects reflects) ok.2 isResult regular.target
    fun later after rest' last leads reads isLast => ?_
  exact finish later after _ last (leads₁.trans leads) (.cons (reads₁.continued leads.continues) reads) isLast

def ItemsGuided (limit : Nat) (givens : List (Expr Typed)) (depth : Nat) : Prop :=
  ∀ ⦃valuation : Valuation⦄ ⦃scene : Scene⦄ ⦃context : Context⦄ ⦃part element : Ty⦄
    ⦃ends : Valuation → Scene → List (Expr Typed) → Prop⦄,
    scene.env.Reflects valuation scene.issued context → (∀ item ∈ givens, item.WellTyped context) →
    (∀ item ∈ givens, item.type = element) → part.ReadsAs valuation scene.issued element →
    (∀ later after typed, Leads valuation scene later after → ItemsRead later after.issued typed givens →
      ends later after typed) →
    (itemsScript limit part (givens.map (mapInfo Typed.span))).Attains depth valuation scene ends

theorem itemsGuided_nil {limit : Nat} : ItemsGuided limit [] depth := by
  intro valuation scene context part element ends reflects _ _ _ finish
  rw [List.map_nil]
  simp only [itemsScript, Script.Attains]
  exact finish valuation scene [] (.refl _ _) .nil

theorem itemsGuided_cons {limit : Nat} {rest : List (Expr Typed)} (guided : Guided limit given depth)
    (restGuided : ItemsGuided limit rest depth) : ItemsGuided limit (given :: rest) depth := by
  intro valuation scene context part element ends reflects ok elements isElement finish
  rw [List.forall_mem_cons] at ok elements
  rw [List.map_cons]
  simp only [itemsScript, Script.Attains]
  refine guided reflects ok.1 fun valuation₁ scene₁ item' leads₁ reads₁ => ?_
  have isElement₁ := isElement.continued leads₁.continues
  refine ⟨isElement₁.read.trans (reads₁.type.read.trans elements.1).symm, fun valuation₂ issued continues => ?_⟩
  have leads₂ := leads₁.issue continues
  refine restGuided (leads₂.reflects reflects) ok.2 elements.2 (isElement₁.continued continues)
    fun later after rest' leads reads => ?_
  exact finish later after _ (leads₂.trans leads) (.cons (reads₁.continued (continues.trans leads.continues)) reads)

def FieldsGuided (limit : Nat) (givens : List (Field Typed)) (depth : Nat) : Prop :=
  ∀ ⦃valuation : Valuation⦄ ⦃scene : Scene⦄ ⦃context : Context⦄ ⦃ends : Valuation → Scene → List (Field Typed) → Prop⦄,
    scene.env.Reflects valuation scene.issued context →
    (∀ name value, .mk name value ∈ givens → value.WellTyped context) →
    (∀ later after typed, Leads valuation scene later after → FieldsRead later after.issued typed givens →
      ends later after typed) →
    (fieldsScript limit (givens.map (Field.mapInfo Typed.span))).Attains depth valuation scene ends

theorem fieldsGuided_nil {limit : Nat} : FieldsGuided limit [] depth := by
  intro valuation scene context ends reflects _ finish
  rw [List.map_nil]
  simp only [fieldsScript, Script.Attains]
  exact finish valuation scene [] (.refl _ _) ⟨rfl, by simp [InfosBelow, fieldInfos]⟩

theorem fieldsGuided_cons {limit : Nat} {name : String} {rest : List (Field Typed)} (guided : Guided limit given depth)
    (restGuided : FieldsGuided limit rest depth) : FieldsGuided limit (.mk name given :: rest) depth := by
  intro valuation scene context ends reflects ok finish
  rw [List.map_cons, Field.mapInfo]
  simp only [fieldsScript, Script.Attains]
  refine guided reflects (ok name given (List.mem_cons_self ..)) fun valuation₁ scene₁ value' leads₁ reads₁ => ?_
  refine restGuided (leads₁.reflects reflects) (fun name value member => ok name value (List.mem_cons_of_mem _ member))
    fun later after rest' leads reads => ?_
  have reads₁ := reads₁.continued leads.continues
  refine finish later after (.mk name value' :: rest') (leads₁.trans leads) ⟨?_, reads₁.below.append reads.below⟩
  rw [List.map_cons, Field.mapInfo, reads₁.read, reads.read]

def BranchesGuided (limit : Nat) (givens : List (Branch Typed)) (depth : Nat) : Prop :=
  ∀ ⦃valuation : Valuation⦄ ⦃scene : Scene⦄ ⦃context : Context⦄ ⦃subject result subjectType resultType : Ty⦄
    ⦃ends : Valuation → Scene → List (Branch Typed) → Prop⦄,
    scene.env.Reflects valuation scene.issued context →
    (∀ pattern body, .mk pattern body ∈ givens → BranchTyped context subjectType resultType pattern body) →
    subject.ReadsAs valuation scene.issued subjectType → result.ReadsAs valuation scene.issued resultType →
    (∀ later after typed, Leads valuation scene later after → BranchesRead later after.issued typed givens →
      ends later after typed) →
    (branchesScript limit subject result (givens.map (Branch.mapInfo Typed.span))).Attains depth valuation scene ends

theorem branchesGuided_nil {limit : Nat} : BranchesGuided limit [] depth := by
  intro valuation scene context subject result subjectType resultType ends reflects _ _ _ finish
  rw [List.map_nil]
  simp only [branchesScript, Script.Attains]
  exact finish valuation scene [] (.refl _ _) ⟨rfl, by simp [InfosBelow, branchInfos]⟩

theorem branchesGuided_cons {limit : Nat} {pattern : Pattern Typed} {rest : List (Branch Typed)}
    (patternGuided : Pattern.Guided limit pattern depth) (guided : Guided limit given depth)
    (restGuided : BranchesGuided limit rest depth) :
    BranchesGuided limit (.mk pattern given :: rest) depth := by
  intro valuation scene context subject result subjectType resultType ends reflects ok isSubject isResult finish
  rw [List.map_cons, Branch.mapInfo]
  simp only [branchesScript, Script.Attains]
  refine branchScript_attains patternGuided guided reflects
    (ok pattern given (List.mem_cons_self ..)) isSubject isResult
    fun valuation₁ scene₁ pattern' body' names leads₁ patternReads bodyReads => ?_
  refine restGuided (leads₁.reflects reflects)
    (fun pattern body member => ok pattern body (List.mem_cons_of_mem _ member)) (isSubject.continued leads₁.continues)
    (isResult.continued leads₁.continues) fun later after rest' leads reads => ?_
  have patternReads := patternReads.continued leads.continues
  have bodyReads := bodyReads.continued leads.continues
  refine finish later after (.mk pattern' body' :: rest') (leads₁.trans leads)
    ⟨?_, patternReads.below.append (bodyReads.below.append reads.below)⟩
  rw [List.map_cons, Branch.mapInfo, patternReads.read, bodyReads.read, reads.read]

/-- The types on the bindings of a let block, after those that bind the names seen so far, guide their inference. -/
def BindingsGuided (limit : Nat) (givens : List (Binding Typed)) (depth : Nat) : Prop :=
  ∀ ⦃valuation : Valuation⦄ ⦃scene : Scene⦄ ⦃context : Context⦄ ⦃seen : List String⦄
    ⦃ends : Valuation → Scene → List (Binding Typed) → Prop⦄,
    scene.env.Reflects valuation scene.issued context → BindingsTyped context givens →
    (seen ++ (bindingNames givens).map Prod.fst).Nodup →
    (∀ later after typed, valuation.Continues scene.issued later after.issued →
      BindingsRead later after.issued typed givens →
      after.env.Reflects later after.issued (context.addAll (bindingNames givens)) →
      after.env.outer = scene.env.outer → ends later after typed) →
    (bindingsScript limit seen (givens.map (Binding.mapInfo Typed.span))).Attains depth valuation scene ends

theorem bindingsGuided_nil {limit : Nat} : BindingsGuided limit [] depth := by
  intro valuation scene context seen ends reflects _ _ finish
  rw [List.map_nil]
  simp only [bindingsScript, Script.Attains]
  exact finish valuation scene [] (.refl _ _) ⟨rfl, by simp [InfosBelow, bindingInfos]⟩ reflects rfl

/-- A function among the bindings: the later ones can use its name. -/
theorem bindingsGuided_function {limit : Nat} {name : String} {params : List (Pattern Typed)}
    {rest : List (Binding Typed)}
    (regular : (functionType params given).Regular) (paramsGuided : Pattern.AllGuided limit params depth)
    (guided : Guided limit given depth) (restGuided : BindingsGuided limit rest depth) :
    BindingsGuided limit (.function name params given :: rest) depth := by
  intro valuation scene context seen ends reflects ok distinct finish
  cases ok with
  | function paramsOk paramsDistinct bodyOk restOk =>
    have new : name ∉ seen := by
      rw [List.nodup_append] at distinct
      exact fun present => distinct.2.2 name present name (List.mem_cons_self ..) rfl
    rw [List.map_cons, Binding.mapInfo]
    simp only [bindingsScript, Script.Attains]
    refine localScript_attains regular paramsGuided guided reflects new paramsOk paramsDistinct bodyOk
      fun valuation₁ scene₁ params' body' names continues₁ paramsRead bodyReads reflects₁ outer₁ => ?_
    refine restGuided reflects₁ restOk (by rw [List.append_assoc]; exact distinct)
      fun later after rest' continues reads reflects outer => ?_
    have paramsRead := paramsRead.continued continues
    have bodyReads := bodyReads.continued continues
    refine finish later after (.function name params' body' :: rest') (continues₁.trans continues)
      ⟨?_, paramsRead.below.append (bodyReads.below.append reads.below)⟩ (by exact reflects) (outer.trans outer₁)
    rw [List.map_cons, Binding.mapInfo, paramsRead.read, bodyReads.read, reads.read]

/-- A destructuring among the bindings: its body is inferred before its names come into scope. -/
theorem bindingsGuided_destructuring {limit : Nat} {pattern : Pattern Typed} {rest : List (Binding Typed)}
    (patternGuided : Pattern.Guided limit pattern depth) (guided : Guided limit given depth)
    (restGuided : BindingsGuided limit rest depth) :
    BindingsGuided limit (.destructuring pattern given :: rest) depth := by
  intro valuation scene context seen ends reflects ok distinct finish
  cases ok with
  | destructuring bodyOk patternOk patternDistinct same restOk =>
    rw [List.map_cons, Binding.mapInfo]
    simp only [bindingsScript, Script.Attains]
    refine guided reflects bodyOk fun valuation₁ scene₁ body' leads₁ bodyReads => ?_
    refine patternGuided patternOk (by exact patternDistinct) fun valuation₂ scene₂ pattern' names leads₂
      patternReads => ?_
    have bodyType := (bodyReads.continued leads₂.continues).type.read
    refine ⟨patternReads.type.read.trans (same.trans bodyType.symm), fun valuation₃ issued₃ continues₃ => ?_⟩
    have bound : scene₂.bound = names := leads₂.bound
    have env : scene₂.env = scene.env := leads₂.env.trans leads₁.env
    have patternReads := patternReads.continued continues₃
    have bodyReads := bodyReads.continued (leads₂.continues.trans continues₃)
    have continues := leads₁.continues.trans (leads₂.continues.trans continues₃)
    have reflects₃ : scene₂.env.Reflects valuation₃ issued₃ context := by
      rw [env]
      exact reflects.continued continues
    have keys : scene₂.bound.map Prod.fst = pattern.names.map Prod.fst := by rw [bound, patternReads.names.fst]
    rw [bindingNames, List.map_append, ← List.append_assoc, ← keys] at distinct
    refine takeNamesScript_attains _ seen scene₂.bound distinct.of_append_left ?_
    refine declareAllScript_attains scene₂.bound (by rw [bound]; exact patternReads.names) (by exact reflects₃)
      fun env' reflects₄ outer₄ => ?_
    refine restGuided (by exact reflects₄) restOk distinct fun later after rest' continues₅ reads reflects₅ outer₅ => ?_
    have patternReads := patternReads.continued continues₅
    have bodyReads := bodyReads.continued continues₅
    refine finish later after (.destructuring pattern' body' :: rest') (continues.trans continues₅)
      ⟨?_, patternReads.below.append (bodyReads.below.append reads.below)⟩ ?_ ?_
    · rw [List.map_cons, Binding.mapInfo, patternReads.read, bodyReads.read, reads.read]
    · rw [bindingNames, Context.addAll_append]
      exact reflects₅
    · rw [outer₅]
      exact outer₄.trans (by rw [env])

/-! ## Forms of expressions -/

section Forms

variable {limit : Nat} {info : Typed}

/-- A literal whose type is known in advance. -/
theorem guides_done {span : Span} {typed : Expr Typed} (shallow : depth < limit)
    (reads : ∀ context, given.WellTyped context → ∀ valuation issued, typed.type.Below issued →
      ReadsAs valuation issued typed given) : Guides given (.node Expr.type limit span (.done typed)) depth := by
  intro valuation scene context ends _ ok finish
  simp only [Script.Attains]
  exact ⟨shallow, fun below => finish valuation scene typed (.refl _ _) (reads context ok valuation _ below)⟩

/-- A literal that can have several types. -/
theorem guides_fresh {span : Span} {constraint : Option Constraint} {typed : Ty → Expr Typed} (regular : info.Regular)
    (shallow : depth < limit) (meets : ∀ context, given.WellTyped context → info.type.Meets constraint)
    (reads : ∀ valuation issued type, type.read valuation = info.type → (typed type).type.Below issued →
      ReadsAs valuation issued (typed type) given) :
    Guides given (.node Expr.type limit span (.andThen (.fresh constraint) fun type => .done (typed type))) depth := by
  intro valuation scene context ends _ ok finish
  simp only [Script.Attains]
  refine ⟨shallow, info.type, regular.type.canonical, regular.type.flat, meets context ok,
    fun later continues isType below => ?_⟩
  exact finish later _ _ ((Leads.refl _ _).issue continues) (reads later _ _ isType below)

/-- A name is used at the type on its node. -/
theorem guided_var {name : String} (regular : info.Regular) (shallow : depth < limit) :
    Guided limit (.var info name) depth := by
  intro valuation scene context ends reflects ok finish
  cases ok with
  | var found type =>
    obtain ⟨scheme, isScheme, reaches⟩ := reflects.reaches found regular.type type
    simp only [mapInfo_var, script, Script.Attains]
    refine ⟨shallow, scheme, info.type, isScheme, reaches, fun later issued type continues _ isType below => ?_⟩
    refine finish later _ _ ((Leads.refl _ _).issue continues) ⟨?_, .single below⟩
    exact congrArg (Expr.var · name) (regular.read_eq isType)

theorem guided_operator {op : Operator} (regular : info.Regular) (shallow : depth < limit) :
    Guided limit (.operator info op) depth := by
  intro valuation scene context ends reflects ok finish
  cases ok with
  | operator type =>
    simp only [mapInfo_operator, script, Script.Attains]
    refine ⟨shallow, info.type,
      .inr ⟨Prelude.operatorScheme_tailless op, type, regular.type.canonical, regular.type.flat⟩,
      fun later issued whole continues _ isWhole below => ?_⟩
    refine finish later _ _ ((Leads.refl _ _).issue continues) ⟨?_, .single below⟩
    exact congrArg (Expr.operator · op) (regular.read_eq isWhole)

/-- Each form is guided if its parts are. -/
theorem guided_tuple {first second : Expr Typed} (regular : info.Regular) (shallow : depth < limit)
    (firstGuided : Guided limit first (depth + 1)) (secondGuided : Guided limit second (depth + 1)) :
    Guided limit (.tuple info first second) depth := by
  intro valuation scene context ends reflects ok finish
  cases ok with
  | tuple firstOk secondOk type =>
    simp only [mapInfo_tuple, script, Script.Attains]
    refine ⟨shallow, ?_⟩
    refine firstGuided reflects firstOk fun valuation₁ scene₁ first' leads₁ reads₁ => ?_
    refine secondGuided (leads₁.reflects reflects) secondOk fun valuation₂ scene₂ second' leads₂ reads₂ below => ?_
    have reads₁ := reads₁.continued leads₂.continues
    have types : (Ty.tuple first'.type second'.type).read valuation₂ = info.type :=
      (congrArg₂ Ty.tuple reads₁.type.read reads₂.type.read).trans type.symm
    refine finish valuation₂ scene₂ _ (leads₁.trans leads₂)
      ⟨?_, reads₁.below.append (reads₂.below.append (.single below))⟩
    rw [mapInfo_tuple, regular.read_eq types, reads₁.read, reads₂.read]

theorem guided_triple {first second third : Expr Typed} (regular : info.Regular) (shallow : depth < limit)
    (firstGuided : Guided limit first (depth + 1)) (secondGuided : Guided limit second (depth + 1))
    (thirdGuided : Guided limit third (depth + 1)) : Guided limit (.triple info first second third) depth := by
  intro valuation scene context ends reflects ok finish
  cases ok with
  | triple firstOk secondOk thirdOk type =>
    simp only [mapInfo_triple, script, Script.Attains]
    refine ⟨shallow, ?_⟩
    refine firstGuided reflects firstOk fun valuation₁ scene₁ first' leads₁ reads₁ => ?_
    refine secondGuided (leads₁.reflects reflects) secondOk fun valuation₂ scene₂ second' leads₂ reads₂ => ?_
    have leads := leads₁.trans leads₂
    refine thirdGuided (leads.reflects reflects) thirdOk fun valuation₃ scene₃ third' leads₃ reads₃ below => ?_
    have reads₁ := reads₁.continued (leads₂.continues.trans leads₃.continues)
    have reads₂ := reads₂.continued leads₃.continues
    have types : (Ty.triple first'.type second'.type third'.type).read valuation₃ = info.type :=
      (congr (congrArg₂ Ty.triple reads₁.type.read reads₂.type.read) reads₃.type.read).trans type.symm
    refine finish valuation₃ scene₃ _ (leads.trans leads₃)
      ⟨?_, reads₁.below.append (reads₂.below.append (reads₃.below.append (.single below)))⟩
    rw [mapInfo_triple, regular.read_eq types, reads₁.read, reads₂.read, reads₃.read]

theorem guided_list {items : List (Expr Typed)} (regular : info.Regular) (shallow : depth < limit)
    (itemsGuided : ItemsGuided limit items (depth + 1)) : Guided limit (.list info items) depth := by
  intro valuation scene context ends reflects ok finish
  cases ok with
  | @list _ _ _ element itemsOk elements type =>
    have elementRegular : element.Regular := Ty.Regular.element (type ▸ regular.type)
    rw [mapInfo_list]
    simp only [script, Script.Attains]
    refine ⟨shallow, element, elementRegular.canonical, elementRegular.flat, Ty.meets_none _,
      fun valuation₁ continues isElement => ?_⟩
    have leads₁ := (Leads.refl valuation scene).issue continues
    have isElement : Ty.ReadsAs valuation₁ (scene.issued + 1) _ element := .fresh isElement
    refine itemsGuided (leads₁.reflects reflects) itemsOk elements isElement
      fun valuation₂ after items' leads reads below => ?_
    have types : (Ty.list (.var ⟨.generated scene.issued, none⟩)).read valuation₂ = info.type :=
      (congrArg Ty.list (isElement.continued leads.continues).read).trans type.symm
    refine finish valuation₂ after _ (leads₁.trans leads) ⟨?_, reads.below.append (.single below)⟩
    rw [mapInfo_list, regular.read_eq types, reads.read]

theorem guided_lambda {params : List (Pattern Typed)} {body : Expr Typed} (regular : info.Regular)
    (shallow : depth < limit) (paramsGuided : Pattern.AllGuided limit params (depth + 1))
    (bodyGuided : Guided limit body (depth + 1)) :
    Guided limit (.lambda info params body) depth := by
  intro valuation scene context ends reflects ok finish
  cases ok with
  | lambda paramsOk distinct bodyOk type =>
    rw [mapInfo_lambda]
    simp only [script, Script.Attains]
    refine ⟨shallow, ?_⟩
    refine functionScript_attains paramsGuided bodyGuided reflects paramsOk distinct bodyOk
      fun later after params' body' names leads paramsRead bodyReads below => ?_
    have types := (read_functionType paramsRead.read bodyReads.read).trans type.symm
    refine finish later after _ leads ⟨?_, paramsRead.below.append (bodyReads.below.append (.single below))⟩
    rw [mapInfo_lambda, regular.read_eq types, paramsRead.read, bodyReads.read]

theorem guided_record {fields : List (Field Typed)} (regular : info.Regular) (shallow : depth < limit)
    (fieldsGuided : FieldsGuided limit fields (depth + 1)) : Guided limit (.record info fields) depth := by
  intro valuation scene context ends reflects ok finish
  cases ok with
  | record valuesOk type =>
    rw [mapInfo_record]
    simp only [script, Script.Attains]
    refine ⟨shallow, ?_⟩
    refine fieldsGuided reflects valuesOk fun later after fields' leads reads below => ?_
    have types : (Ty.record (fieldTypes fields')).read later = info.type :=
      (congrArg Ty.record reads.fieldTypes).trans type.symm
    refine finish later after _ leads ⟨?_, reads.below.append (.single below)⟩
    rw [mapInfo_record, regular.read_eq types, reads.read]

/-- A record with a variable for one of its fields and another for the rest. -/
theorem read_single {type target : Ty} (regular : type.Regular) {field : String}
    (found : type.field? field = some target)
    {base part : Ty} (isRest : base.read valuation = type.strip (Row.ofList [(field, part)]))
    (isPart : part.read valuation = target) :
    (Ty.extension base (Row.ofList [(field, part)])).read valuation = type := by
  refine regular.read_extension (Ty.isRecord_of_field? found) (Row.ofList_sorted _) isRest fun key other isOther => ?_
  obtain ⟨rfl, rfl⟩ := Prod.mk.inj (List.mem_singleton.mp (Row.mem_toList_ofList (Row.mem_toList_of_get? isOther)))
  rw [isPart, found]

/-- An accessor: the record it is applied to has the field on top of a variable. -/
theorem guided_accessor {field : String} (regular : info.Regular) (shallow : depth < limit) :
    Guided limit (.accessor info field) depth := by
  intro valuation scene context ends reflects ok finish
  cases ok with
  | @accessor _ _ _ subject result found type =>
    have subjectRegular : subject.Regular := Ty.Regular.source (type ▸ regular.type)
    simp only [mapInfo_accessor, script, Script.Attains]
    refine ⟨shallow, subject.strip (Row.ofList [(field, .var (.generated (scene.issued + 1)))]),
      Ty.strip_canonical subjectRegular.canonical, Ty.strip_flat subjectRegular.flat, subjectRegular.tail_admits _,
      fun valuation₁ continues₁ isRest => ?_⟩
    refine ⟨result, subjectRegular.canonical.field? found, subjectRegular.flat.field? found, Ty.meets_none _,
      fun later continues₂ isResult below => ?_⟩
    have base : Ty.ReadsAs later _ _ _ := (Ty.ReadsAs.fresh isRest).continued continues₂
    have record := read_single subjectRegular found base.read isResult
    have types :
      (Ty.function (.extension (.var (.generated scene.issued)) _) (.var (.generated (scene.issued + 1)))).read
        later = info.type := (congrArg₂ Ty.function record isResult).trans type.symm
    refine finish later _ _ (((Leads.refl _ _).issue continues₁).issue continues₂) ⟨?_, .single below⟩
    exact congrArg (Expr.accessor · field) (regular.read_eq types)

/-- The subject has the field, so its type can stand for an open record with that field. -/
theorem guided_access {subject : Expr Typed} {field : String} (regular : info.Regular)
    (subjectRegular : subject.type.Regular) (shallow : depth < limit)
    (subjectGuided : Guided limit subject (depth + 1)) :
    Guided limit (.access info subject field) depth := by
  intro valuation scene context ends reflects ok finish
  cases ok with
  | access subjectOk type =>
    simp only [mapInfo_access, script, Script.Attains]
    refine ⟨shallow, ?_⟩
    refine subjectGuided reflects subjectOk fun valuation₁ scene₁ subject' leads reads => ?_
    refine ⟨subject.type.strip (Row.ofList [(field, .var (.generated (scene₁.issued + 1)))]),
      Ty.strip_canonical subjectRegular.canonical, Ty.strip_flat subjectRegular.flat, subjectRegular.tail_admits _,
      fun valuation₂ continues₂ isRest => ?_⟩
    refine ⟨info.type, regular.type.canonical, regular.type.flat, Ty.meets_none _,
      fun valuation₃ continues₃ isType => ?_⟩
    have base : Ty.ReadsAs valuation₃ _ _ _ := (Ty.ReadsAs.fresh isRest).continued continues₃
    have reads₃ := reads.continued (continues₂.trans continues₃)
    refine ⟨(read_single subjectRegular type base.read isType).trans reads₃.type.read.symm,
      fun later issued continues below => ?_⟩
    have part : Ty.ReadsAs later _ _ info.type := (Ty.ReadsAs.fresh isType).continued continues
    have reads := reads₃.continued continues
    refine finish later _ _ (((leads.issue continues₂).issue continues₃).issue continues)
      ⟨?_, reads.below.append (.single below)⟩
    rw [mapInfo_access, regular.read_eq part.read, reads.read]

/-- The record has the updated fields, so its type can stand for an open record with them. -/
theorem guided_update {name : String} {updates : List (Field Typed)} (regular : info.Regular) (shallow : depth < limit)
    (updatesGuided : FieldsGuided limit updates (depth + 1)) : Guided limit (.update info name updates) depth := by
  intro valuation scene context ends reflects ok finish
  cases ok with
  | update found valuesOk isRecord present type =>
    obtain ⟨scheme, isScheme, reaches⟩ := reflects.reaches found regular.type type
    rw [mapInfo_update]
    simp only [script, Script.Attains]
    refine ⟨shallow, scheme, info.type, isScheme, reaches, fun valuation₁ issued₁ whole continues₁ below isWhole => ?_⟩
    have whole₁ : whole.ReadsAs valuation₁ issued₁ info.type := ⟨below, isWhole⟩
    have leads₁ := (Leads.refl valuation scene).issue continues₁
    refine updatesGuided (leads₁.reflects reflects) valuesOk fun valuation₂ scene₂ updates' leads₂ reads => ?_
    refine ⟨info.type.strip (fieldTypes updates'), Ty.strip_canonical regular.type.canonical,
      Ty.strip_flat regular.type.flat, regular.type.tail_admits _, fun valuation₃ continues₃ isRest => ?_⟩
    have base : Ty.ReadsAs valuation₃ (scene₂.issued + 1) _ _ := .fresh isRest
    have reads₃ := reads.continued continues₃
    have whole₃ := (whole₁.continued leads₂.continues).continued continues₃
    -- The fields that are updated are fields of the record, with the types of their new values.
    have inside : ∀ key part, (fieldTypes updates').get? key = some part →
        info.type.field? key = some (part.read valuation₃) := by
      intro key part isPart
      refine present key _ ?_
      rw [← reads₃.fieldTypes, Row.read, Row.get?_mapVars, isPart]
      rfl
    refine ⟨(regular.type.read_extension isRecord (Row.ofList_sorted _) base.read inside).trans whole₃.read.symm,
      fun later issued continues below => ?_⟩
    have reads := reads₃.continued continues
    refine finish later _ _ (((leads₁.trans leads₂).issue continues₃).issue continues)
      ⟨?_, reads.below.append (.single below)⟩
    rw [mapInfo_update, regular.read_eq (whole₃.continued continues).read, reads.read]

theorem guided_parenthesized {inner : Expr Typed} (regular : info.Regular) (shallow : depth < limit)
    (innerGuided : Guided limit inner (depth + 1)) : Guided limit (.parenthesized info inner) depth := by
  intro valuation scene context ends reflects ok finish
  cases ok with
  | parenthesized innerOk type =>
    simp only [mapInfo_parenthesized, script, Script.Attains]
    refine ⟨shallow, ?_⟩
    refine innerGuided reflects innerOk fun later after inner' leads reads below => ?_
    refine finish later after _ leads ⟨?_, reads.below.append (.single below)⟩
    rw [mapInfo_parenthesized, regular.read_eq (reads.type.read.trans type.symm), reads.read]

theorem guided_application {function : Expr Typed} {args : List (Expr Typed)} (regular : info.Regular)
    (functionRegular : function.type.Regular) (shallow : depth < limit)
    (functionGuided : Guided limit function (depth + 1))
    (argsGuided : ArgsGuided limit args (depth + 1)) : Guided limit (.application info function args) depth := by
  intro valuation scene context ends reflects ok finish
  cases ok with
  | application functionOk argsOk type =>
    rw [mapInfo_application]
    simp only [script, Script.Attains]
    refine ⟨shallow, ?_⟩
    refine functionGuided reflects functionOk fun valuation₁ scene₁ function' leads₁ reads₁ => ?_
    have isFunction := reads₁.type
    rw [type] at isFunction functionRegular
    refine argsGuided (leads₁.reflects reflects) argsOk isFunction functionRegular
      fun later after args' result leads reads isResult below => ?_
    have reads₁ := reads₁.continued leads.continues
    refine finish later after _ (leads₁.trans leads) ⟨?_, reads₁.below.append (reads.below.append (.single below))⟩
    rw [mapInfo_application, regular.read_eq isResult.read, reads₁.read, reads.read]

theorem guided_operation {op : Operator} {left right : Expr Typed} (regular : info.Regular)
    (leftRegular : left.type.Regular) (rightRegular : right.type.Regular) (shallow : depth < limit)
    (leftGuided : Guided limit left (depth + 1)) (rightGuided : Guided limit right (depth + 1)) :
    Guided limit (.operation info op left right) depth := by
  intro valuation scene context ends reflects ok finish
  cases ok with
  | operation leftOk rightOk type =>
    have resultRegular := rightRegular.function regular.type
    have wholeRegular := leftRegular.function resultRegular
    simp only [mapInfo_operation, script, Script.Attains]
    refine ⟨shallow, _, .inr ⟨Prelude.operatorScheme_tailless op, type, wholeRegular.canonical, wholeRegular.flat⟩,
      fun valuation₁ issued₁ whole continues₁ below isWhole => ?_⟩
    have leads₁ := (Leads.refl valuation scene).issue continues₁
    have isWhole : whole.ReadsAs valuation₁ issued₁ _ := ⟨below, isWhole⟩
    refine argScript_attains leftGuided (leads₁.reflects reflects) leftOk isWhole resultRegular
      fun valuation₂ scene₂ left' rest leads₂ reads₂ isRest => ?_
    have leads := leads₁.trans leads₂
    refine argScript_attains rightGuided (leads.reflects reflects) rightOk isRest regular.type
      fun later after right' result leads₃ reads₃ isResult below => ?_
    have reads₂ := reads₂.continued leads₃.continues
    refine finish later after _ (leads.trans leads₃) ⟨?_, reads₂.below.append (reads₃.below.append (.single below))⟩
    rw [mapInfo_operation, regular.read_eq isResult.read, reads₂.read, reads₃.read]

theorem guided_negate {inner : Expr Typed} (regular : info.Regular) (shallow : depth < limit)
    (innerGuided : Guided limit inner (depth + 1)) : Guided limit (.negate info inner) depth := by
  intro valuation scene context ends reflects ok finish
  cases ok with
  | negate innerOk number type =>
    simp only [mapInfo_negate, script, Script.Attains]
    refine ⟨shallow, ?_⟩
    refine innerGuided reflects innerOk fun valuation₁ scene₁ inner' leads reads => ?_
    refine ⟨info.type, regular.type.canonical, regular.type.flat, number, fun valuation₂ continues₂ isType => ?_⟩
    have reads₂ := reads.continued continues₂
    refine ⟨isType.trans (type.trans reads₂.type.read.symm), fun later issued continues below => ?_⟩
    have result : Ty.ReadsAs later _ _ info.type := (Ty.ReadsAs.fresh isType).continued continues
    have reads := reads₂.continued continues
    refine finish later _ _ ((leads.issue continues₂).issue continues) ⟨?_, reads.below.append (.single below)⟩
    rw [mapInfo_negate, regular.read_eq result.read, reads.read]

theorem guided_conditional {condition thenBranch elseBranch : Expr Typed} (regular : info.Regular)
    (shallow : depth < limit)
    (conditionGuided : Guided limit condition (depth + 1)) (thenGuided : Guided limit thenBranch (depth + 1))
    (elseGuided : Guided limit elseBranch (depth + 1)) :
    Guided limit (.conditional info condition thenBranch elseBranch) depth := by
  intro valuation scene context ends reflects ok finish
  cases ok with
  | conditional conditionOk thenOk elseOk boolean same type =>
    simp only [mapInfo_conditional, script, Script.Attains]
    refine ⟨shallow, ?_⟩
    refine conditionGuided reflects conditionOk fun valuation₁ scene₁ condition' leads₁ reads₁ => ?_
    refine ⟨(reads₁.type.read.trans boolean).symm, fun valuation₂ issued₂ continues₂ => ?_⟩
    have leads₂ := leads₁.issue continues₂
    refine thenGuided (leads₂.reflects reflects) thenOk fun valuation₃ scene₃ thenBranch' leads₃ reads₃ => ?_
    have leads₄ := leads₂.trans leads₃
    refine elseGuided (leads₄.reflects reflects) elseOk fun valuation₅ scene₅ elseBranch' leads₅ reads₅ => ?_
    have thenType := (reads₃.continued leads₅.continues).type.read.trans type.symm
    refine ⟨thenType.trans (reads₅.type.read.trans same).symm, fun later issued continues below => ?_⟩
    have reads₁ := reads₁.continued (continues₂.trans (leads₃.continues.trans (leads₅.continues.trans continues)))
    have reads₃ := reads₃.continued (leads₅.continues.trans continues)
    have reads₅ := reads₅.continued continues
    refine finish later _ _ ((leads₄.trans leads₅).issue continues)
      ⟨?_, reads₁.below.append (reads₃.below.append (reads₅.below.append (.single below)))⟩
    rw [mapInfo_conditional, regular.read_eq (reads₃.type.read.trans type.symm), reads₁.read, reads₃.read, reads₅.read]

theorem guided_letIn {bindings : List (Binding Typed)} {body : Expr Typed} (regular : info.Regular)
    (shallow : depth < limit) (bindingsGuided : BindingsGuided limit bindings (depth + 1))
    (bodyGuided : Guided limit body (depth + 1)) :
    Guided limit (.letIn info bindings body) depth := by
  intro valuation scene context ends reflects ok finish
  cases ok with
  | letIn bindingsOk distinct bodyOk type =>
    rw [mapInfo_letIn]
    simp only [script, Script.Attains]
    refine ⟨shallow, ?_⟩
    have inside : ({ scene with env := scene.env.enter } : Scene).env.Reflects valuation scene.issued context :=
      reflects.enter
    refine bindingsGuided (by exact inside) bindingsOk (by exact distinct)
      fun valuation₁ scene₁ bindings' continues reads reflects₁ outer => ?_
    refine bodyGuided reflects₁ bodyOk fun later after body' leads bodyReads below => ?_
    have reads := reads.continued leads.continues
    refine finish later _ _ ⟨continues.trans leads.continues, Environment.exit_of_outer (by rw [leads.env, outer])⟩
      ⟨?_, reads.below.append (bodyReads.below.append (.single below))⟩
    rw [mapInfo_letIn, regular.read_eq (bodyReads.type.read.trans type.symm), reads.read, bodyReads.read]

theorem guided_caseOf {subject : Expr Typed} {branches : List (Branch Typed)} (regular : info.Regular)
    (shallow : depth < limit) (subjectGuided : Guided limit subject (depth + 1))
    (branchesGuided : BranchesGuided limit branches (depth + 1)) :
    Guided limit (.caseOf info subject branches) depth := by
  intro valuation scene context ends reflects ok finish
  cases ok with
  | caseOf subjectOk patternsOk distinct subjects bodiesOk type =>
    rw [mapInfo_caseOf]
    simp only [script, Script.Attains]
    refine ⟨shallow, ?_⟩
    refine subjectGuided reflects subjectOk fun valuation₁ scene₁ subject' leads₁ reads₁ => ?_
    refine ⟨info.type, regular.type.canonical, regular.type.flat, Ty.meets_none _,
      fun valuation₂ continues₂ isType => ?_⟩
    have leads₂ := leads₁.issue continues₂
    have result : Ty.ReadsAs valuation₂ _ _ info.type := .fresh isType
    refine branchesGuided (leads₂.reflects reflects)
      (fun pattern body member => ⟨patternsOk pattern body member, distinct pattern body member,
        subjects pattern body member, bodiesOk pattern body member, type pattern body member⟩)
      (reads₁.continued continues₂).type result fun later after branches' leads reads below => ?_
    have reads₁ := reads₁.continued (continues₂.trans leads.continues)
    refine finish later after _ (leads₂.trans leads) ⟨?_, reads₁.below.append (reads.below.append (.single below))⟩
    rw [mapInfo_caseOf, regular.read_eq (result.continued leads.continues).read, reads₁.read, reads.read]

end Forms

/-! ## All expressions -/

mutual

/-- The types on an expression guide its inference, if all of them are regular and the expression is not too high. -/
theorem script_guided (limit : Nat) (given : Expr Typed) {depth : Nat} (regular : ∀ info ∈ given.infos, info.Regular)
    (shallow : depth + given.height ≤ limit) : Guided limit given depth := by
  -- Literals are done at once; every other node has its own lemma, and its parts are guided one level deeper.
  match given with
  | .unit info =>
    simp only [infos, List.forall_mem_singleton, height] at regular shallow
    refine guides_done shallow fun _ ok _ _ below => ⟨?_, .single below⟩
    cases ok with
    | unit type => exact congrArg Expr.unit (regular.read_eq type.symm)
  | .integer info value =>
    simp only [infos, List.forall_mem_singleton, height] at regular shallow
    refine guides_fresh regular shallow (fun _ ok => ?_) fun _ _ _ isType below =>
      ⟨congrArg (Expr.integer · value) (regular.read_eq isType), .single below⟩
    cases ok with
    | integer meets => exact meets
  | .hex info value =>
    simp only [infos, List.forall_mem_singleton, height] at regular shallow
    refine guides_fresh regular shallow (fun _ ok => ?_) fun _ _ _ isType below =>
      ⟨congrArg (Expr.hex · value) (regular.read_eq isType), .single below⟩
    cases ok with
    | hex meets => exact meets
  | .float info value =>
    simp only [infos, List.forall_mem_singleton, height] at regular shallow
    refine guides_done shallow fun _ ok _ _ below => ⟨?_, .single below⟩
    cases ok with
    | float type => exact congrArg (Expr.float · value) (regular.read_eq type.symm)
  | .string info value =>
    simp only [infos, List.forall_mem_singleton, height] at regular shallow
    refine guides_done shallow fun _ ok _ _ below => ⟨?_, .single below⟩
    cases ok with
    | string type => exact congrArg (Expr.string · value) (regular.read_eq type.symm)
  | .char info value =>
    simp only [infos, List.forall_mem_singleton, height] at regular shallow
    refine guides_done shallow fun _ ok _ _ below => ⟨?_, .single below⟩
    cases ok with
    | char type => exact congrArg (Expr.char · value) (regular.read_eq type.symm)
  | .var info name =>
    simp only [infos, List.forall_mem_singleton, height] at regular shallow
    exact guided_var regular shallow
  | .tuple info first second =>
    simp only [infos, List.forall_mem_append, List.forall_mem_singleton, height] at regular shallow
    exact guided_tuple regular.2.2 (by omega) (script_guided limit first regular.1 (by omega))
      (script_guided limit second regular.2.1 (by omega))
  | .triple info first second third =>
    simp only [infos, List.forall_mem_append, List.forall_mem_singleton, height] at regular shallow
    exact guided_triple regular.2.2.2 (by omega) (script_guided limit first regular.1 (by omega))
      (script_guided limit second regular.2.1 (by omega)) (script_guided limit third regular.2.2.1 (by omega))
  | .list info items =>
    simp only [infos, List.forall_mem_append, List.forall_mem_singleton, height] at regular shallow
    exact guided_list regular.2 (by omega) (itemsScript_guided limit items regular.1 (by omega))
  | .lambda info params body =>
    simp only [infos, List.forall_mem_append, List.forall_mem_singleton, height] at regular shallow
    exact guided_lambda regular.2.2 (by omega) (Pattern.allScript_guided limit params regular.1 (by omega))
      (script_guided limit body regular.2.1 (by omega))
  | .record info fields =>
    simp only [infos, List.forall_mem_append, List.forall_mem_singleton, height] at regular shallow
    exact guided_record regular.2 (by omega) (fieldsScript_guided limit fields regular.1 (by omega))
  | .accessor info field =>
    simp only [infos, List.forall_mem_singleton, height] at regular shallow
    exact guided_accessor regular shallow
  | .access info subject field =>
    simp only [infos, List.forall_mem_append, List.forall_mem_singleton, height] at regular shallow
    exact guided_access regular.2 (regular.1 _ subject.info_mem_infos).type (by omega)
      (script_guided limit subject regular.1 (by omega))
  | .update info name updates =>
    simp only [infos, List.forall_mem_append, List.forall_mem_singleton, height] at regular shallow
    exact guided_update regular.2 (by omega) (fieldsScript_guided limit updates regular.1 (by omega))
  | .parenthesized info inner =>
    simp only [infos, List.forall_mem_append, List.forall_mem_singleton, height] at regular shallow
    exact guided_parenthesized regular.2 (by omega) (script_guided limit inner regular.1 (by omega))
  | .application info function args =>
    simp only [infos, List.forall_mem_append, List.forall_mem_singleton, height] at regular shallow
    exact guided_application regular.2.2 (regular.1 _ function.info_mem_infos).type (by omega)
      (script_guided limit function regular.1 (by omega)) (argsScript_guided limit args regular.2.1 (by omega))
  | .operation info op left right =>
    simp only [infos, List.forall_mem_append, List.forall_mem_singleton, height] at regular shallow
    exact guided_operation regular.2.2 (regular.1 _ left.info_mem_infos).type (regular.2.1 _ right.info_mem_infos).type
      (by omega) (script_guided limit left regular.1 (by omega)) (script_guided limit right regular.2.1 (by omega))
  | .operator info op =>
    simp only [infos, List.forall_mem_singleton, height] at regular shallow
    exact guided_operator regular shallow
  | .negate info inner =>
    simp only [infos, List.forall_mem_append, List.forall_mem_singleton, height] at regular shallow
    exact guided_negate regular.2 (by omega) (script_guided limit inner regular.1 (by omega))
  | .conditional info condition thenBranch elseBranch =>
    simp only [infos, List.forall_mem_append, List.forall_mem_singleton, height] at regular shallow
    exact guided_conditional regular.2.2.2 (by omega) (script_guided limit condition regular.1 (by omega))
      (script_guided limit thenBranch regular.2.1 (by omega)) (script_guided limit elseBranch regular.2.2.1 (by omega))
  | .letIn info bindings body =>
    simp only [infos, List.forall_mem_append, List.forall_mem_singleton, height] at regular shallow
    exact guided_letIn regular.2.2 (by omega) (bindingsScript_guided limit bindings regular.1 (by omega))
      (script_guided limit body regular.2.1 (by omega))
  | .caseOf info subject branches =>
    simp only [infos, List.forall_mem_append, List.forall_mem_singleton, height] at regular shallow
    exact guided_caseOf regular.2.2 (by omega) (script_guided limit subject regular.1 (by omega))
      (branchesScript_guided limit branches regular.2.1 (by omega))
  | .glsl info source =>
    intro _ _ _ _ _ ok
    cases ok

/-- Arguments that are not too high are guided by their types. -/
theorem argsScript_guided (limit : Nat) (givens : List (Expr Typed)) {depth : Nat}
    (regular : ∀ info ∈ itemInfos givens, info.Regular) (shallow : depth + itemsHeight givens ≤ limit) :
    ArgsGuided limit givens depth := by
  match givens with
  | [] => exact argsGuided_nil
  | arg :: rest =>
    simp only [itemInfos, List.forall_mem_append, itemsHeight] at regular shallow
    exact argsGuided_cons (script_guided limit arg regular.1 (by omega))
      (argsScript_guided limit rest regular.2 (by omega))

theorem itemsScript_guided (limit : Nat) (givens : List (Expr Typed)) {depth : Nat}
    (regular : ∀ info ∈ itemInfos givens, info.Regular) (shallow : depth + itemsHeight givens ≤ limit) :
    ItemsGuided limit givens depth := by
  match givens with
  | [] => exact itemsGuided_nil
  | item :: rest =>
    simp only [itemInfos, List.forall_mem_append, itemsHeight] at regular shallow
    exact itemsGuided_cons (script_guided limit item regular.1 (by omega))
      (itemsScript_guided limit rest regular.2 (by omega))

theorem fieldsScript_guided (limit : Nat) (givens : List (Field Typed)) {depth : Nat}
    (regular : ∀ info ∈ fieldInfos givens, info.Regular) (shallow : depth + fieldsHeight givens ≤ limit) :
    FieldsGuided limit givens depth := by
  match givens with
  | [] => exact fieldsGuided_nil
  | .mk name value :: rest =>
    simp only [fieldInfos, List.forall_mem_append, fieldsHeight] at regular shallow
    exact fieldsGuided_cons (script_guided limit value regular.1 (by omega))
      (fieldsScript_guided limit rest regular.2 (by omega))

theorem branchesScript_guided (limit : Nat) (givens : List (Branch Typed)) {depth : Nat}
    (regular : ∀ info ∈ branchInfos givens, info.Regular) (shallow : depth + branchesHeight givens ≤ limit) :
    BranchesGuided limit givens depth := by
  match givens with
  | [] => exact branchesGuided_nil
  | .mk pattern body :: rest =>
    simp only [branchInfos, List.forall_mem_append, branchesHeight] at regular shallow
    exact branchesGuided_cons (pattern.script_guided limit regular.1 (by omega))
      (script_guided limit body regular.2.1 (by omega)) (branchesScript_guided limit rest regular.2.2 (by omega))

theorem bindingsScript_guided (limit : Nat) (givens : List (Binding Typed)) {depth : Nat}
    (regular : ∀ info ∈ bindingInfos givens, info.Regular) (shallow : depth + bindingsHeight givens ≤ limit) :
    BindingsGuided limit givens depth := by
  match givens with
  | [] => exact bindingsGuided_nil
  | .function name params body :: rest =>
    simp only [bindingInfos, List.forall_mem_append, bindingsHeight] at regular shallow
    exact bindingsGuided_function (functionType_regular regular.1 regular.2.1)
      (Pattern.allScript_guided limit params regular.1 (by omega)) (script_guided limit body regular.2.1 (by omega))
      (bindingsScript_guided limit rest regular.2.2 (by omega))
  | .destructuring pattern body :: rest =>
    simp only [bindingInfos, List.forall_mem_append, bindingsHeight] at regular shallow
    exact bindingsGuided_destructuring (pattern.script_guided limit regular.1 (by omega))
      (script_guided limit body regular.2.1 (by omega)) (bindingsScript_guided limit rest regular.2.2 (by omega))

end

end Expr

end RowInference
