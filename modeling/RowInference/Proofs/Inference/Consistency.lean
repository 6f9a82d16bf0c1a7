import RowInference.Proofs.Inference.Discipline
import RowInference.Proofs.Tree.Annotation
import RowInference.Proofs.Typing.Rules

/-! # Inference makes trees consistent

Under a valuation for which all equations of an inference hold, the types on the resulting tree keep to the typing
rules. The names in scope are seen under the same valuation.
-/

namespace RowInference

variable {valuation : Valuation}

/-! ## Trees under a valuation -/

/-- The annotation with the type it stands for. -/
def Typed.read (valuation : Valuation) (typed : Typed) : Typed := .mono typed.span (typed.type.read valuation)

def Pattern.under (valuation : Valuation) (pattern : Pattern Typed) : Pattern Typed :=
  pattern.mapInfo (Typed.read valuation)

def Expr.under (valuation : Valuation) (expr : Expr Typed) : Expr Typed := expr.mapInfo (Typed.read valuation)

def readNames (valuation : Valuation) (names : List (String × Ty)) : List (String × Ty) :=
  names.map fun entry => (entry.1, entry.2.read valuation)

@[simp] theorem readNames_nil : readNames valuation [] = [] := rfl

@[simp] theorem readNames_append (names others : List (String × Ty)) :
    readNames valuation (names ++ others) = readNames valuation names ++ readNames valuation others :=
  List.map_append

@[simp] theorem readNames_singleton (name : String) (type : Ty) :
    readNames valuation [(name, type)] = [(name, type.read valuation)] := rfl

theorem readNames_fst (names : List (String × Ty)) : (readNames valuation names).map Prod.fst = names.map Prod.fst := by
  simp only [readNames, List.map_map]
  rfl

/-- Reading the types keeps names distinct. -/
theorem distinct_readNames {names : List (String × Ty)} : Distinct (readNames valuation names) ↔ Distinct names := by
  rw [Distinct, Distinct, readNames_fst]

@[simp] theorem Pattern.type_under (valuation : Valuation) (pattern : Pattern Typed) :
    (pattern.under valuation).type = pattern.type.read valuation := by
  rw [Pattern.type, under, info_mapInfo]
  rfl

@[simp] theorem Expr.type_under (valuation : Valuation) (expr : Expr Typed) :
    (expr.under valuation).type = expr.type.read valuation := by
  rw [Expr.type, under, info_mapInfo]
  rfl

theorem Ty.read_curried (params : List Ty) (result : Ty) :
    (Ty.curried params result).read valuation = Ty.curried (params.map (Ty.read valuation))
    (result.read valuation) := by
  induction params with
  | nil => rfl
  | cons param rest ih =>
    change Ty.function _ ((Ty.curried rest result).read valuation) = _
    rw [ih]
    rfl

/-- The type of a function is read like its parts. -/
theorem functionType_under (params : List (Pattern Typed)) (body : Expr Typed) :
    functionType (params.map (Pattern.under valuation)) (body.under valuation)
      = (functionType params body).read valuation := by
  rw [functionType, functionType, Ty.read_curried, List.map_map, List.map_map, Expr.type_under]
  congr 1
  exact List.map_congr_left fun param _ => (param.type_under valuation)

/-! ## Fields -/

/-- A field on top of a base is found in the record, whatever the base is. -/
theorem Ty.field?_flatten {fields : Row} (sorted : fields.Sorted) (base : Ty) {key : String} {type : Ty}
    (found : fields.get? key = some type) : (base.flatten fields).field? key = some type := by
  cases base
  case record inner => rw [flatten, field?, Row.get?_extend inner sorted, found, Option.some_or]
  case extension base inner => rw [flatten, field?, Row.get?_extend inner sorted, found, Option.some_or]
  all_goals exact found

/-- A record with fields on top of a base has them, whatever the base stands for. -/
theorem Ty.field?_read_extension {fields : Row} (sorted : fields.Sorted) (base : Ty) {key : String} {type : Ty}
    (found : fields.get? key = some type) :
    ((Ty.extension base fields).read valuation).field? key = some (type.read valuation) := by
  refine field?_flatten ((Row.sorted_mapVars _).mpr sorted) _ ?_
  rw [Row.get?_mapVars, found]
  rfl

/-- The only field of an open record is found under every valuation. -/
theorem Ty.field?_read_single (base : Ty) (key : String) (type : Ty) :
    ((Ty.extension base (Row.ofList [(key, type)])).read valuation).field? key = some (type.read valuation) := by
  refine field?_read_extension (Row.ofList_sorted _) base ?_
  have distinct : ([(key, type)].map Prod.fst).Nodup := List.nodup_singleton key
  exact Row.get?_ofList_of_mem distinct (List.mem_singleton_self (key, type))

theorem Ty.isRecord_read_extension (base : Ty) (fields : Row) :
    ((Ty.extension base fields).read valuation).isRecord = true := flatten_isRecord _ _

theorem Expr.fieldTypes_under (fields : List (Field Typed)) :
    fieldTypes (fields.map (Field.mapInfo (Typed.read valuation))) = (fieldTypes fields).read valuation := by
  rw [fieldTypes, fieldTypes, Row.read, Row.mapVars_ofList, List.map_map, List.map_map]
  congr 1
  refine List.map_congr_left fun field _ => ?_
  cases field with
  | mk name value => exact congrArg (Prod.mk name) (value.type_under valuation)

/-! ## Names in scope -/

/-- A scheme that quantifies nothing, or all of its variables. -/
def Scheme.Simple (scheme : Scheme) : Prop :=
  scheme.isMono = true ∨ ∀ v ∈ scheme.body.occurrences, scheme.binds v.id = true

def Scheme.read (valuation : Valuation) (scheme : Scheme) : Scheme :=
  if scheme.isMono then Scheme.mono (scheme.body.read valuation) else scheme

/-- A plain type is an instance of itself. -/
theorem Scheme.instance_mono {type : Ty} (flat : type.Flat) : (Scheme.mono type).Instance type :=
  ⟨fun _ => .unit, by simp [mono], (Ty.mapVars_eq_self flat fun v _ => by simp [mono, binds]).symm⟩

/-- The types for free variables do not matter if there are none. -/
theorem Scheme.Yields.of_closed {scheme : Scheme} {free other : TypeVar → Ty} {type : Ty}
    (yields : scheme.Yields free type) (closed : ∀ v ∈ scheme.body.occurrences, scheme.binds v.id = true) :
    scheme.Yields other type := by
  obtain ⟨value, meets, rfl⟩ := yields
  refine ⟨value, meets, Ty.mapVars_congr fun v inBody => ?_⟩
  rw [if_pos (closed v inBody), if_pos (closed v inBody)]

theorem Scheme.closed_binds (type : Ty) : ∀ v ∈ type.occurrences, (Scheme.closed type).binds v.id = true :=
  fun v inType => binds_iff.mpr ⟨v, List.mem_eraseDups.mpr inType, rfl⟩

/-- Every operator has a closed scheme. -/
theorem Prelude.operatorScheme_closed (op : Operator) : ∃ type, operatorScheme op = Scheme.closed type := by
  cases op <;> exact ⟨_, rfl⟩

theorem Prelude.instance_operatorScheme {op : Operator} {free : TypeVar → Ty} {type : Ty}
    (yields : (operatorScheme op).Yields free type) : (operatorScheme op).Instance type := by
  obtain ⟨body, closed⟩ := operatorScheme_closed op
  rw [closed] at yields ⊢
  exact yields.of_closed (Scheme.closed_binds body)

/-- What a use of a simple scheme yields is an instance of the scheme under the valuation. -/
theorem Scheme.Simple.instance {scheme : Scheme} (simple : scheme.Simple) (flat : valuation.Flat) {type : Ty}
    (yields : scheme.Yields valuation.value type) : (scheme.read valuation).Instance type := by
  rw [read]
  split
  · next plain =>
    obtain ⟨value, meets, rfl⟩ := yields
    have noBinders : ∀ id, scheme.binds id = false := by
      intro id
      rw [isMono, List.isEmpty_iff] at plain
      simp [binds, plain]
    simp only [noBinders, Bool.false_eq_true, if_false]
    exact instance_mono (Ty.mapVars_flat _ flat)
  · next plain => exact yields.of_closed (simple.resolve_left plain)

theorem Context.addAll_append (context : Context) (names others : List (String × Ty)) :
    context.addAll (names ++ others) = (context.addAll names).addAll others := List.foldl_append

namespace Environment

theorem get?_add (env : Environment) (name other : String) (scheme : Scheme) :
    (env.add name scheme).get? other = if other = name then some scheme else env.get? other := by
  rw [get?, get?, scopes, scopes, List.findSome?_cons, List.findSome?_cons]
  simp only [add, Std.ExtTreeMap.getElem?_insert, Std.LawfulEqCmp.compare_eq_iff_eq]
  by_cases same : name = other
  · simp [same]
  · simp [same, Ne.symm same]

theorem get?_add_eq (env : Environment) (name : String) (scheme : Scheme) :
    (env.add name scheme).get? = Context.add env.get? name scheme :=
  funext fun other => get?_add env name other scheme

theorem get?_enter (env : Environment) (name : String) : env.enter.get? name = env.get? name := by
  rw [get?, get?, scopes, List.findSome?_cons]
  simp [enter]

/-- What is in scope, under a valuation. -/
structure Shows (env : Environment) (valuation : Valuation) (context : Context) : Prop where
  flat : valuation.Flat
  simple : env.All Scheme.Simple
  shown : ∀ name, context name = (env.get? name).map (Scheme.read valuation)

variable {env : Environment} {context : Context}

theorem Shows.enter (shows : env.Shows valuation context) : env.enter.Shows valuation context where
  flat := shows.flat
  simple := shows.simple.enter
  shown name := by rw [get?_enter, shows.shown]

/-- A name with a plain type is shown with the reading of that type. -/
theorem Shows.add (shows : env.Shows valuation context) (name : String) (type : Ty) :
    (env.add name (Scheme.mono type)).Shows valuation (context.addAll [(name, type.read valuation)]) where
  flat := shows.flat
  simple := shows.simple.add name (.inl rfl)
  shown other := by
    change (if other = name then _ else context other) = _
    rw [get?_add, shows.shown]
    split
    · rfl
    · rfl

/-- A name that is used has an instance of the scheme shown for it. -/
theorem Shows.use (shows : env.Shows valuation context) {name : String} {scheme : Scheme} {type : Ty}
    (found : env.get? name = some scheme) (yields : scheme.Yields valuation.value type) :
    ∃ scheme, context name = some scheme ∧ scheme.Instance type := by
  refine ⟨scheme.read valuation, ?_, (shows.simple.get? found).instance shows.flat yields⟩
  rw [shows.shown, found, Option.map_some]

end Environment

/-! ## Patterns -/

namespace Pattern

variable {scene scene₁ scene₂ : Scene}

/-- The typed pattern comes from the source pattern, is consistent, and its names have been recorded. -/
structure Fits (valuation : Valuation) (source : Pattern Span) (scene after : Scene) (typed : Pattern Typed)
    (names : List (String × Ty)) : Prop where
  source : typed.mapInfo Typed.span = source
  ok : (typed.under valuation).WellTyped
  binds : (typed.under valuation).names = readNames valuation names
  env : after.env = scene.env
  bound : after.bound = scene.bound ++ names
  distinct : Distinct after.bound

structure AllFit (valuation : Valuation) (sources : List (Pattern Span)) (scene after : Scene)
    (typed : List (Pattern Typed)) (names : List (String × Ty)) : Prop where
  source : typed.map (mapInfo Typed.span) = sources
  ok : ∀ item ∈ typed, (item.under valuation).WellTyped
  binds : namesOf (typed.map (under valuation)) = readNames valuation names
  env : after.env = scene.env
  bound : after.bound = scene.bound ++ names
  distinct : Distinct after.bound

theorem AllFit.nil (distinct : Distinct scene.bound) : AllFit valuation [] scene scene [] [] where
  source := rfl
  ok := by simp
  binds := rfl
  env := rfl
  bound := (List.append_nil _).symm
  distinct := distinct

theorem AllFit.cons {source : Pattern Span} {sources : List (Pattern Span)} {pattern : Pattern Typed}
    {rest : List (Pattern Typed)} {names others : List (String × Ty)}
    (first : Fits valuation source scene scene₁ pattern names)
    (later : AllFit valuation sources scene₁ scene₂ rest others) :
    AllFit valuation (source :: sources) scene scene₂ (pattern :: rest) (names ++ others) where
  source := by rw [List.map_cons, first.source, later.source]
  ok := List.forall_mem_cons.mpr ⟨first.ok, later.ok⟩
  binds := by rw [List.map_cons, namesOf, first.binds, later.binds, readNames_append]
  env := later.env.trans first.env
  bound := by rw [later.bound, first.bound, List.append_assoc]
  distinct := later.distinct

theorem fieldVars_fst (first : Nat) (fields : List String) : (fieldVars first fields).map Prod.fst = fields := by
  induction fields generalizing first with
  | nil => rfl
  | cons field rest ih => rw [fieldVars, List.map_cons, ih]

theorem distinct_snoc {names : List (String × Ty)} {name : String} (distinct : Distinct names)
    (new : ∀ entry ∈ names, entry.1 ≠ name) (type : Ty) : Distinct (names ++ [(name, type)]) := by
  rw [Distinct, List.map_append, List.nodup_append]
  refine ⟨distinct, List.nodup_singleton _, fun first member last isLast => ?_⟩
  obtain ⟨entry, inNames, rfl⟩ := List.mem_map.mp member
  obtain rfl := List.mem_singleton.mp isLast
  exact new entry inNames

/-- The fields of a record pattern get consecutive variables and become names of the group. -/
theorem fieldsScript_under (span : Span) (fields : List String) {ends : Scene → List (String × Ty) → Prop}
    (distinct : Distinct scene.bound)
    (finish : ∀ after : Scene, after.env = scene.env → after.bound = scene.bound ++ fieldVars scene.issued fields →
      Distinct after.bound → ends after (fieldVars scene.issued fields)) :
    (fieldsScript span fields).Under valuation scene ends := by
  induction fields generalizing scene ends with
  | nil => exact finish scene rfl (List.append_nil _).symm distinct
  | cons field rest ih =>
    simp only [fieldsScript, Script.Under]
    intro _ new
    refine ih (distinct_snoc distinct new _) fun after env bound => finish after env ?_
    rw [bound, List.append_assoc]
    rfl

/-- The fields of a record pattern, all different, have the types of their variables. -/
theorem names_record {fields : List String} {first : Nat} (distinct : Distinct (fieldVars first fields)) (info : Typed)
    (base : Ty) (type : info.type = (Ty.extension base (Row.ofList (fieldVars first fields))).read valuation) :
    (∀ field ∈ fields, info.type.field? field ≠ none) ∧
      (Pattern.record info fields).names = readNames valuation (fieldVars first fields) := by
  have found : ∀ entry ∈ fieldVars first fields, info.type.field? entry.1 = some (entry.2.read valuation) := by
    intro entry member
    rw [type]
    exact Ty.field?_read_extension (Row.ofList_sorted _) base (Row.get?_ofList_of_mem distinct member)
  have fst := fieldVars_fst first fields
  generalize fieldVars first fields = types at *
  subst fst
  constructor
  · intro field member
    obtain ⟨entry, inTypes, rfl⟩ := List.mem_map.mp member
    rw [found entry inTypes]
    exact Option.some_ne_none _
  · rw [names, List.filterMap_map, readNames, ← List.filterMap_eq_map]
    refine List.filterMap_congr fun entry inTypes => ?_
    simp [found entry inTypes]

mutual

/-- Whatever the inference of a pattern ends with is consistent, and the group has got its names. -/
theorem script_under (limit : Nat) (pattern : Pattern Span) {scene : Scene} {ends : Scene → Pattern Typed → Prop}
    (distinct : Distinct scene.bound)
    (finish : ∀ after typed names, Fits valuation pattern scene after typed names → ends after typed) :
    (pattern.script limit).Under valuation scene ends := by
  -- The names are collected from left to right, each pattern adding its own behind those of the ones before it.
  match pattern with
  | .unit span =>
    simp only [script, Script.Under]
    exact finish scene _ [] ⟨rfl, .unit rfl, rfl, rfl, (List.append_nil _).symm, distinct⟩
  | .wildcard span =>
    simp only [script, Script.Under]
    exact fun _ => finish _ _ [] ⟨rfl, .wildcard, rfl, rfl, (List.append_nil _).symm, distinct⟩
  | .var span name =>
    simp only [script, Script.Under]
    exact fun _ new => finish _ _ _ ⟨rfl, .var, rfl, rfl, rfl, distinct_snoc distinct new _⟩
  | .integer span value =>
    simp only [script, Script.Under]
    exact fun meets => finish _ _ [] ⟨rfl, .integer meets, rfl, rfl, (List.append_nil _).symm, distinct⟩
  | .hex span value =>
    simp only [script, Script.Under]
    exact fun meets => finish _ _ [] ⟨rfl, .hex meets, rfl, rfl, (List.append_nil _).symm, distinct⟩
  | .float span value =>
    simp only [script, Script.Under]
    exact finish scene _ [] ⟨rfl, .float rfl, rfl, rfl, (List.append_nil _).symm, distinct⟩
  | .string span value =>
    simp only [script, Script.Under]
    exact finish scene _ [] ⟨rfl, .string rfl, rfl, rfl, (List.append_nil _).symm, distinct⟩
  | .char span value =>
    simp only [script, Script.Under]
    exact finish scene _ [] ⟨rfl, .char rfl, rfl, rfl, (List.append_nil _).symm, distinct⟩
  | .tuple span first second =>
    simp only [script, Script.Under]
    refine script_under limit first distinct fun scene₁ first names₁ fits₁ => ?_
    refine script_under limit second fits₁.distinct fun scene₂ second names₂ fits₂ => ?_
    have types := congrArg₂ Ty.tuple (first.type_under valuation) (second.type_under valuation)
    refine finish scene₂ _ (names₁ ++ names₂) ⟨?_, .tuple fits₁.ok fits₂.ok types.symm, ?_,
      fits₂.env.trans fits₁.env, ?_, fits₂.distinct⟩
    · rw [mapInfo_tuple, fits₁.source, fits₂.source]
      rfl
    · rw [under, mapInfo_tuple, names, readNames_append, ← fits₁.binds, ← fits₂.binds]
      rfl
    · rw [fits₂.bound, fits₁.bound, List.append_assoc]
  | .triple span first second third =>
    simp only [script, Script.Under]
    refine script_under limit first distinct fun scene₁ first names₁ fits₁ => ?_
    refine script_under limit second fits₁.distinct fun scene₂ second names₂ fits₂ => ?_
    refine script_under limit third fits₂.distinct fun scene₃ third names₃ fits₃ => ?_
    have types := congr (congrArg₂ Ty.triple (first.type_under valuation) (second.type_under valuation))
      (third.type_under valuation)
    refine finish scene₃ _ (names₁ ++ (names₂ ++ names₃)) ⟨?_, .triple fits₁.ok fits₂.ok fits₃.ok types.symm, ?_,
      fits₃.env.trans (fits₂.env.trans fits₁.env), ?_, fits₃.distinct⟩
    · rw [mapInfo_triple, fits₁.source, fits₂.source, fits₃.source]
      rfl
    · rw [under, mapInfo_triple, names, readNames_append, readNames_append, ← fits₁.binds, ← fits₂.binds, ← fits₃.binds]
      rfl
    · rw [fits₃.bound, fits₂.bound, fits₁.bound, List.append_assoc, List.append_assoc]
  | .list span items =>
    simp only [script, Script.Under]
    intro _
    refine itemsScript_under limit _ items distinct fun after items names fits same => ?_
    refine finish after _ names ⟨?_, ?_, ?_, fits.env, fits.bound, fits.distinct⟩
    · rw [mapInfo_list, fits.source]
      rfl
    · rw [under, mapInfo_list]
      refine .list (List.forall_mem_map.mpr fits.ok) (List.forall_mem_map.mpr fun item member => ?_) rfl
      exact (item.type_under valuation).trans (same item member)
    · rw [under, mapInfo_list, Pattern.names, ← fits.binds]
      rfl
  | .cons span head tail =>
    simp only [script, Script.Under]
    refine script_under limit head distinct fun scene₁ head names₁ fits₁ => ?_
    refine script_under limit tail fits₁.distinct fun scene₂ tail names₂ fits₂ same issued => ?_
    have rest := (tail.type_under valuation).trans same.symm
    refine finish { scene₂ with issued } _ (names₁ ++ names₂)
      ⟨?_, .cons fits₁.ok fits₂.ok rest (congrArg Ty.list (head.type_under valuation)).symm, ?_,
        fits₂.env.trans fits₁.env, ?_, fits₂.distinct⟩
    · rw [mapInfo_cons, fits₁.source, fits₂.source]
      rfl
    · rw [under, mapInfo_cons, names, readNames_append, ← fits₁.binds, ← fits₂.binds]
      rfl
    · change scene₂.bound = _
      rw [fits₂.bound, fits₁.bound, List.append_assoc]
  | .record span fields =>
    simp only [script, Script.Under]
    refine fieldsScript_under span fields distinct fun after env bound afterDistinct => ?_
    have fieldsDistinct : Distinct (fieldVars (scene.issued + 1) fields) := by
      rw [Distinct, bound, List.map_append] at afterDistinct
      exact afterDistinct.of_append_right
    obtain ⟨present, binds⟩ := names_record fieldsDistinct
      (Typed.read valuation (.mono span (.extension _ (Row.ofList (fieldVars (scene.issued + 1) fields))))) _ rfl
    exact finish after _ _ ⟨rfl, .record (Ty.isRecord_read_extension _ _) present, binds, env, bound, afterDistinct⟩
  | .aliased span inner name =>
    simp only [script, Script.Under]
    refine script_under limit inner distinct fun after inner names fits new => ?_
    refine finish _ _ (names ++ [(name, inner.type)]) ⟨?_, .aliased fits.ok (inner.type_under valuation).symm, ?_,
      fits.env, ?_, distinct_snoc fits.distinct new _⟩
    · rw [mapInfo_aliased, fits.source]
      rfl
    · rw [under, mapInfo_aliased, Pattern.names, readNames_append, ← fits.binds]
      rfl
    · rw [← List.append_assoc, ← fits.bound]
  | .parenthesized span inner =>
    simp only [script, Script.Under]
    refine script_under limit inner distinct fun after inner names fits => ?_
    refine finish after _ names ⟨?_, .parenthesized fits.ok (inner.type_under valuation).symm, fits.binds,
      fits.env, fits.bound, fits.distinct⟩
    rw [mapInfo_parenthesized, fits.source]
    rfl

/-- The items of a list pattern all get the type of the elements. -/
theorem itemsScript_under (limit : Nat) (element : Ty) (items : List (Pattern Span)) {scene : Scene}
    {ends : Scene → List (Pattern Typed) → Prop} (distinct : Distinct scene.bound)
    (finish : ∀ after typed names, AllFit valuation items scene after typed names →
      (∀ item ∈ typed, item.type.read valuation = element.read valuation) → ends after typed) :
    (itemsScript limit element items).Under valuation scene ends := by
  match items with
  | [] =>
    simp only [itemsScript, Script.Under]
    exact finish scene [] [] (.nil distinct) (by simp)
  | item :: rest =>
    simp only [itemsScript, Script.Under]
    refine script_under limit item distinct fun scene₁ item names₁ fits same issued => ?_
    refine itemsScript_under limit element rest fits.distinct fun scene₂ rest names₂ restFit restSame => ?_
    have restFit' : AllFit valuation _ scene₁ scene₂ rest names₂ :=
      ⟨restFit.source, restFit.ok, restFit.binds, restFit.env, restFit.bound, restFit.distinct⟩
    exact finish scene₂ _ _ (.cons fits restFit') (List.forall_mem_cons.mpr ⟨same.symm, restSame⟩)

end

theorem allScript_under (limit : Nat) (patterns : List (Pattern Span)) {ends : Scene → List (Pattern Typed) → Prop}
    (distinct : Distinct scene.bound)
    (finish : ∀ after typed names, AllFit valuation patterns scene after typed names → ends after typed) :
    (allScript limit patterns).Under valuation scene ends := by
  induction patterns generalizing scene ends with
  | nil => exact finish scene [] [] (.nil distinct)
  | cons pattern rest ih =>
    simp only [allScript, Script.Under]
    refine script_under limit pattern distinct fun scene₁ pattern names₁ fits => ?_
    refine ih fits.distinct fun scene₂ rest names₂ restFit => ?_
    exact finish scene₂ _ _ (.cons fits restFit)

end Pattern

/-! ## Parts of expressions -/

/-- The names of a group come into scope with their own types. -/
theorem declareAllScript_under (names : List (String × Ty)) {scene : Scene} {context : Context}
    {ends : Scene → Unit → Prop} (shows : scene.env.Shows valuation context)
    (finish : ∀ env : Environment, env.Shows valuation (context.addAll (readNames valuation names)) →
      env.outer = scene.env.outer → ends { scene with env } ()) :
    (declareAllScript names).Under valuation scene ends := by
  induction names generalizing scene context with
  | nil => exact finish scene.env shows rfl
  | cons entry rest ih =>
    simp only [declareAllScript, Script.Under]
    exact ih (shows.add entry.1 entry.2) finish

namespace Expr

variable {scene : Scene} {context : Context}

theorem nodup_snoc {seen : List String} {name : String} (distinct : seen.Nodup) (new : ¬seen.contains name = true) :
    (seen ++ [name]).Nodup := by
  refine List.nodup_append.mpr ⟨distinct, List.nodup_singleton _, fun other member last isLast same => new ?_⟩
  rw [← List.mem_singleton.mp isLast, ← same]
  exact List.contains_iff_mem.mpr member

/-- Taking names keeps those seen so far distinct. -/
theorem takeNamesScript_under (span : Span) (seen : List String) (names : List (String × Ty))
    {ends : Scene → List String → Prop} (distinct : seen.Nodup)
    (finish : (seen ++ names.map Prod.fst).Nodup → ends scene (seen ++ names.map Prod.fst)) :
    (takeNamesScript span seen names).Under valuation scene ends := by
  induction names generalizing seen with
  | nil =>
    rw [List.map_nil, List.append_nil] at finish
    exact finish distinct
  | cons entry rest ih =>
    simp only [takeNamesScript, Script.Under]
    refine ⟨fun _ => trivial, fun new => ih (seen ++ [entry.1]) (nodup_snoc distinct new) ?_⟩
    rw [List.append_assoc]
    exact finish

/-- The typed expression comes from the source expression and is consistent. -/
structure Fits (valuation : Valuation) (source : Expr Span) (context : Context) (scene after : Scene)
    (typed : Expr Typed) : Prop where
  source : typed.mapInfo Typed.span = source
  ok : (typed.under valuation).WellTyped context
  env : after.env = scene.env

/-- The script of an expression ends with a consistent one, whatever the form of the expression. -/
def Settles (valuation : Valuation) (source : Expr Span) {infer : InferM (Expr Typed)} (inner : Script infer) : Prop :=
  ∀ ⦃scene : Scene⦄ ⦃context : Context⦄ ⦃ends : Scene → Expr Typed → Prop⦄, scene.env.Shows valuation context →
    (∀ after typed, Fits valuation source context scene after typed → ends after typed) →
    inner.Under valuation scene ends

/-- Parameters and the body they are bound in. -/
structure FunctionFits (valuation : Valuation) (params : List (Pattern Span)) (body : Expr Span) (context : Context)
    (typedParams : List (Pattern Typed)) (typedBody : Expr Typed) : Prop where
  params : typedParams.map (Pattern.mapInfo Typed.span) = params
  body : typedBody.mapInfo Typed.span = body
  paramsOk : ∀ param ∈ typedParams.map (Pattern.under valuation), param.WellTyped
  distinct : Distinct (Pattern.namesOf (typedParams.map (Pattern.under valuation)))
  bodyOk : (typedBody.under valuation).WellTyped
    (context.addAll (Pattern.namesOf (typedParams.map (Pattern.under valuation))))

variable {source : Expr Span} {infer : InferM (Expr Typed)} {inner : Script infer}

/-- An argument has the type that the function asks for. -/
theorem argScript_under {function : Ty} (settles : Settles valuation source inner)
    (shows : scene.env.Shows valuation context) {ends : Scene → Expr Typed × Ty → Prop}
    (finish : ∀ after arg result, Fits valuation source context scene after arg →
      function.read valuation = .function (arg.type.read valuation) (result.read valuation) →
      ends after (arg, result)) : (argScript function inner).Under valuation scene ends := by
  simp only [argScript, Script.Under]
  refine settles shows fun after arg fits _ same issued => ?_
  exact finish { after with issued } arg _ ⟨fits.source, fits.ok, fits.env⟩ same

/-- Parameters are consistent, and their names come into scope. -/
theorem paramsScript_under (limit : Nat) (params : List (Pattern Span)) (shows : scene.env.Shows valuation context)
    {ends : Scene → List (Pattern Typed) → Prop}
    (finish : ∀ after : Scene, ∀ typed : List (Pattern Typed), typed.map (Pattern.mapInfo Typed.span) = params →
      (∀ param ∈ typed.map (Pattern.under valuation), param.WellTyped) →
      Distinct (Pattern.namesOf (typed.map (Pattern.under valuation))) →
      after.env.Shows valuation (context.addAll (Pattern.namesOf (typed.map (Pattern.under valuation)))) →
      after.env.outer = scene.env.outer → ends after typed) :
    (paramsScript limit params).Under valuation scene ends := by
  simp only [paramsScript, Script.Under]
  refine Pattern.allScript_under limit params List.nodup_nil fun after typed names fits => ?_
  have bound : after.bound = names := fits.bound
  have shows' : after.env.Shows valuation context := fits.env ▸ shows
  refine declareAllScript_under after.bound shows' fun env shows'' outer => ?_
  rw [bound, ← fits.binds] at shows''
  refine finish _ typed fits.source (List.forall_mem_map.mpr fits.ok) ?_ shows'' (outer.trans (by rw [fits.env]))
  rw [fits.binds, distinct_readNames, ← bound]
  exact fits.distinct

/-- A function is consistent, and at the end its scope has been left. -/
theorem functionScript_under (limit : Nat) (params : List (Pattern Span)) (settles : Settles valuation source inner)
    (shows : scene.env.Shows valuation context) {ends : Scene → List (Pattern Typed) × Expr Typed → Prop}
    (finish : ∀ after : Scene, ∀ typedParams typedBody,
      FunctionFits valuation params source context typedParams typedBody →
      after.env = scene.env → ends after (typedParams, typedBody)) :
    (functionScript limit params inner).Under valuation scene ends := by
  simp only [functionScript, Script.Under]
  have inside : ({ scene with env := scene.env.enter } : Scene).env.Shows valuation context := shows.enter
  refine paramsScript_under limit params inside fun after typed same paramsOk distinct shows' outer => ?_
  refine settles shows' fun last body fits => ?_
  exact finish _ typed body ⟨same, fits.source, paramsOk, distinct, fits.ok⟩
    (Environment.exit_of_outer (by rw [fits.env, outer]))

/-- A local function is consistent. Inside, its name has its own type. -/
theorem localScript_under (limit : Nat) (seen : List String) (name : String) (place : Span)
    (params : List (Pattern Span)) (settles : Settles valuation source inner)
    (shows : scene.env.Shows valuation context) {ends : Scene → Binding Typed → Prop}
    (finish : ¬seen.contains name = true → ∀ after : Scene, ∀ typedParams typedBody,
      let self := functionType (typedParams.map (Pattern.under valuation)) (typedBody.under valuation)
      FunctionFits valuation params source (context.addAll [(name, self)]) typedParams typedBody →
      after.env.Shows valuation (context.addAll [(name, self)]) → after.env.outer = scene.env.outer →
      ends after (.function name typedParams typedBody)) :
    (localScript limit seen name place params inner).Under valuation scene ends := by
  simp only [localScript, Script.Under]
  refine ⟨fun _ => trivial, fun new _ => ?_⟩
  have inside := shows.add name (.var ⟨.generated scene.issued, none⟩)
  refine functionScript_under limit params settles (by exact inside) fun after params body fits env same issued => ?_
  rw [same, ← functionType_under] at fits inside
  refine finish new { after with issued } params body fits ?_ ?_
  · rw [env]
    exact inside
  · rw [env]
    rfl

structure BranchTyped (context : Context) (subject result : Ty) (pattern : Pattern Typed) (body : Expr Typed) :
    Prop where
  patternOk : pattern.WellTyped
  distinct : Distinct pattern.names
  subject : pattern.type = subject
  bodyOk : body.WellTyped (context.addAll pattern.names)
  result : body.type = result

/-- A branch is consistent with the subject and the result of the case expression. -/
theorem branchScript_under (limit : Nat) {subject result : Ty} (pattern : Pattern Span)
    (settles : Settles valuation source inner) (shows : scene.env.Shows valuation context)
    {ends : Scene → Branch Typed → Prop}
    (finish : ∀ after : Scene, ∀ typedPattern typedBody, typedPattern.mapInfo Typed.span = pattern →
      typedBody.mapInfo Typed.span = source →
      BranchTyped context (subject.read valuation) (result.read valuation) (typedPattern.under valuation)
        (typedBody.under valuation) → after.env = scene.env → ends after (.mk typedPattern typedBody)) :
    (branchScript limit subject result pattern inner).Under valuation scene ends := by
  simp only [branchScript, Script.Under]
  refine Pattern.script_under limit pattern List.nodup_nil fun scene₁ pattern names fits same issued => ?_
  have bound : scene₁.bound = names := fits.bound
  have inside : scene₁.env.Shows valuation context := fits.env ▸ shows.enter
  refine declareAllScript_under scene₁.bound (by exact inside) fun env shows' outer => ?_
  rw [bound, ← fits.binds] at shows'
  refine settles (by exact shows') fun scene₂ body bodyFits same' issued' => ?_
  have restored : scene₂.env.exit = scene.env := Environment.exit_of_outer (by rw [bodyFits.env, outer, fits.env])
  refine finish ⟨scene₂.env.exit, scene₂.bound, issued'⟩ pattern body fits.source bodyFits.source
    ⟨fits.ok, ?_, (pattern.type_under valuation).trans same.symm, bodyFits.ok,
      (body.type_under valuation).trans same'.symm⟩ restored
  rw [fits.binds, distinct_readNames, ← bound]
  exact fits.distinct

/-! ## Expressions -/

structure ItemsFit (valuation : Valuation) (sources : List (Expr Span)) (context : Context) (scene after : Scene)
    (typed : List (Expr Typed)) : Prop where
  source : typed.map (mapInfo Typed.span) = sources
  ok : ∀ item ∈ typed.map (under valuation), item.WellTyped context
  env : after.env = scene.env

structure FieldsFit (valuation : Valuation) (sources : List (Field Span)) (context : Context) (scene after : Scene)
    (typed : List (Field Typed)) : Prop where
  source : typed.map (Field.mapInfo Typed.span) = sources
  ok : ∀ name value, .mk name value ∈ typed.map (Field.mapInfo (Typed.read valuation)) → value.WellTyped context
  env : after.env = scene.env

structure BranchesFit (valuation : Valuation) (sources : List (Branch Span)) (context : Context) (subject result : Ty)
    (scene after : Scene) (typed : List (Branch Typed)) : Prop where
  source : typed.map (Branch.mapInfo Typed.span) = sources
  ok : ∀ pattern body, .mk pattern body ∈ typed.map (Branch.mapInfo (Typed.read valuation)) →
    BranchTyped context (subject.read valuation) (result.read valuation) pattern body
  env : after.env = scene.env

/-- Bindings of a let block, after those that bind the names seen so far. -/
structure BindingsFit (valuation : Valuation) (sources : List (Binding Span)) (seen : List String) (context : Context)
    (scene after : Scene) (typed : List (Binding Typed)) : Prop where
  source : typed.map (Binding.mapInfo Typed.span) = sources
  ok : BindingsTyped context (typed.map (Binding.mapInfo (Typed.read valuation)))
  distinct : (seen ++ (bindingNames (typed.map (Binding.mapInfo (Typed.read valuation)))).map Prod.fst).Nodup
  shows : after.env.Shows valuation (context.addAll (bindingNames (typed.map (Binding.mapInfo (Typed.read valuation)))))
  outer : after.env.outer = scene.env.outer

mutual

/-- Whatever the inference of an expression ends with is consistent. -/
theorem script_settles (limit : Nat) (expr : Expr Span) : Settles valuation expr (expr.script limit) := by
  intro scene context ends shows finish
  -- The equations that the script poses hold under the valuation, and they say what the rule for the node asks.
  match expr with
  | .unit span =>
    simp only [script, Script.Under]
    exact finish scene _ ⟨rfl, .unit rfl, rfl⟩
  | .integer span value =>
    simp only [script, Script.Under]
    exact fun meets => finish _ _ ⟨rfl, .integer meets, rfl⟩
  | .hex span value =>
    simp only [script, Script.Under]
    exact fun meets => finish _ _ ⟨rfl, .hex meets, rfl⟩
  | .float span value =>
    simp only [script, Script.Under]
    exact finish scene _ ⟨rfl, .float rfl, rfl⟩
  | .string span value =>
    simp only [script, Script.Under]
    exact finish scene _ ⟨rfl, .string rfl, rfl⟩
  | .char span value =>
    simp only [script, Script.Under]
    exact finish scene _ ⟨rfl, .char rfl, rfl⟩
  | .var span name =>
    simp only [script, Script.Under]
    intro scheme found issued type yields
    obtain ⟨shown, inContext, isInstance⟩ := shows.use found yields
    exact finish _ _ ⟨rfl, .var inContext isInstance, rfl⟩
  | .tuple span first second =>
    simp only [script, Script.Under]
    refine script_settles limit first shows fun scene₁ first fits₁ => ?_
    refine script_settles limit second (fits₁.env ▸ shows) fun scene₂ second fits₂ => ?_
    have types := congrArg₂ Ty.tuple (first.type_under valuation) (second.type_under valuation)
    refine finish scene₂ _ ⟨?_, .tuple fits₁.ok fits₂.ok types.symm, fits₂.env.trans fits₁.env⟩
    rw [mapInfo_tuple, fits₁.source, fits₂.source]
    rfl
  | .triple span first second third =>
    simp only [script, Script.Under]
    refine script_settles limit first shows fun scene₁ first fits₁ => ?_
    refine script_settles limit second (fits₁.env ▸ shows) fun scene₂ second fits₂ => ?_
    have env₂ := fits₂.env.trans fits₁.env
    refine script_settles limit third (env₂ ▸ shows) fun scene₃ third fits₃ => ?_
    have types := congr (congrArg₂ Ty.triple (first.type_under valuation) (second.type_under valuation))
      (third.type_under valuation)
    refine finish scene₃ _ ⟨?_, .triple fits₁.ok fits₂.ok fits₃.ok types.symm, fits₃.env.trans env₂⟩
    rw [mapInfo_triple, fits₁.source, fits₂.source, fits₃.source]
    rfl
  | .list span items =>
    simp only [script, Script.Under]
    intro _
    refine itemsScript_under limit _ items shows fun after items fits same => ?_
    refine finish after _ ⟨?_, ?_, fits.env⟩
    · rw [mapInfo_list, fits.source]
      rfl
    · rw [under, mapInfo_list]
      refine .list fits.ok (List.forall_mem_map.mpr fun item member => ?_) rfl
      exact (item.type_under valuation).trans (same item member)
  | .lambda span params body =>
    simp only [script, Script.Under]
    refine functionScript_under limit params (script_settles limit body) shows fun after params body fits env => ?_
    refine finish after _ ⟨?_, ?_, env⟩
    · rw [mapInfo_lambda, fits.params, fits.body]
      rfl
    · rw [under, mapInfo_lambda]
      exact .lambda fits.paramsOk fits.distinct fits.bodyOk (functionType_under params body).symm
  | .record span fields =>
    simp only [script, Script.Under]
    refine fieldsScript_under limit fields shows fun after fields fits => ?_
    refine finish after _ ⟨?_, ?_, fits.env⟩
    · rw [mapInfo_record, fits.source]
      rfl
    · rw [under, mapInfo_record]
      exact .record fits.ok (congrArg Ty.record (fieldTypes_under fields)).symm
  | .accessor span field =>
    simp only [script, Script.Under]
    intro _
    refine finish _ _ ⟨rfl, ?_, rfl⟩
    exact .accessor (Ty.field?_read_single _ field _) rfl
  | .access span subject field =>
    simp only [script, Script.Under]
    refine script_settles limit subject shows fun after subject fits _ same issued => ?_
    refine finish _ _ ⟨?_, ?_, fits.env⟩
    · rw [mapInfo_access, fits.source]
      rfl
    · rw [under, mapInfo_access]
      refine .access fits.ok ((congrArg (Ty.field? field) (subject.type_under valuation)).trans ?_)
      rw [← same]
      exact Ty.field?_read_single _ field _
  | .update span name updates =>
    simp only [script, Script.Under]
    intro scheme found issued type yields
    refine fieldsScript_under limit updates (by exact shows) fun after updates fits same issued' => ?_
    obtain ⟨shown, inContext, isInstance⟩ := shows.use found yields
    refine finish _ _ ⟨?_, ?_, fits.env⟩
    · rw [mapInfo_update, fits.source]
      rfl
    · rw [under, mapInfo_update]
      refine .update inContext fits.ok ?_ ?_ isInstance
      · change (type.read valuation).isRecord = true
        rw [← same]
        exact Ty.isRecord_read_extension _ _
      · intro key value present
        change (type.read valuation).field? key = some value
        rw [← same]
        rw [fieldTypes_under] at present
        exact Ty.field?_flatten ((Row.sorted_mapVars _).mpr (Row.ofList_sorted _)) _ present
  | .parenthesized span inner =>
    simp only [script, Script.Under]
    refine script_settles limit inner shows fun after inner fits => ?_
    refine finish after _ ⟨?_, .parenthesized fits.ok (inner.type_under valuation).symm, fits.env⟩
    rw [mapInfo_parenthesized, fits.source]
    rfl
  | .application span function args =>
    simp only [script, Script.Under]
    refine script_settles limit function shows fun scene₁ function fits => ?_
    refine argsScript_under limit args (fits.env ▸ shows) fun after args type argsFit same => ?_
    refine finish after _ ⟨?_, ?_, argsFit.env.trans fits.env⟩
    · rw [mapInfo_application, fits.source, argsFit.source]
      rfl
    · rw [under, mapInfo_application]
      refine .application fits.ok argsFit.ok ((function.type_under valuation).trans (same.trans ?_))
      rw [List.map_map]
      exact congrArg (Ty.curried · _) (List.map_congr_left fun arg _ => (arg.type_under valuation).symm)
  | .operation span op left right =>
    simp only [script, Script.Under]
    intro issued type yields
    refine argScript_under (script_settles limit left) (by exact shows) fun scene₁ left type₁ fits₁ same₁ => ?_
    refine argScript_under (script_settles limit right) (fits₁.env ▸ shows) fun scene₂ right type₂ fits₂ same₂ => ?_
    refine finish scene₂ _ ⟨?_, ?_, fits₂.env.trans fits₁.env⟩
    · rw [mapInfo_operation, fits₁.source, fits₂.source]
      rfl
    · rw [under, mapInfo_operation]
      refine .operation fits₁.ok fits₂.ok ?_
      have whole := Prelude.instance_operatorScheme yields
      rw [same₁, same₂] at whole
      change (Prelude.operatorScheme op).Instance
        (.function (left.under valuation).type (.function (right.under valuation).type (type₂.read valuation)))
      rwa [type_under, type_under]
  | .operator span op =>
    simp only [script, Script.Under]
    intro issued type yields
    exact finish _ _ ⟨rfl, .operator (Prelude.instance_operatorScheme yields), rfl⟩
  | .negate span inner =>
    simp only [script, Script.Under]
    refine script_settles limit inner shows fun after inner fits meets same issued => ?_
    refine finish _ _ ⟨?_, .negate fits.ok meets (same.trans (inner.type_under valuation).symm), fits.env⟩
    rw [mapInfo_negate, fits.source]
    rfl
  | .conditional span condition thenBranch elseBranch =>
    simp only [script, Script.Under]
    refine script_settles limit condition shows fun scene₁ condition fits₁ boolean issued => ?_
    refine script_settles limit thenBranch (fits₁.env ▸ shows) fun scene₂ thenBranch fits₂ => ?_
    have env₂ := fits₂.env.trans fits₁.env
    refine script_settles limit elseBranch (env₂ ▸ shows) fun scene₃ elseBranch fits₃ same issued' => ?_
    refine finish _ _ ⟨?_, .conditional fits₁.ok fits₂.ok fits₃.ok ((condition.type_under valuation).trans boolean.symm)
      ((elseBranch.type_under valuation).trans same.symm) (thenBranch.type_under valuation).symm, fits₃.env.trans env₂⟩
    rw [mapInfo_conditional, fits₁.source, fits₂.source, fits₃.source]
    rfl
  | .letIn span bindings body =>
    simp only [script, Script.Under]
    -- The bindings get a scope of their own, which is left again after the body.
    have inside : ({ scene with env := scene.env.enter } : Scene).env.Shows valuation context := shows.enter
    refine bindingsScript_under limit [] bindings inside List.nodup_nil fun scene₁ bindings fits => ?_
    refine script_settles limit body fits.shows fun scene₂ body bodyFits => ?_
    refine finish _ _ ⟨?_, ?_, Environment.exit_of_outer (by rw [bodyFits.env, fits.outer])⟩
    · rw [mapInfo_letIn, fits.source, bodyFits.source]
      rfl
    · rw [under, mapInfo_letIn]
      exact .letIn fits.ok fits.distinct bodyFits.ok (body.type_under valuation).symm
  | .caseOf span subject branches =>
    simp only [script, Script.Under]
    refine script_settles limit subject shows fun scene₁ subject fits _ => ?_
    refine branchesScript_under limit branches (by exact fits.env ▸ shows) fun after branches branchesFit => ?_
    refine finish after _ ⟨?_, ?_, branchesFit.env.trans fits.env⟩
    · rw [mapInfo_caseOf, fits.source, branchesFit.source]
      rfl
    · rw [under, mapInfo_caseOf]
      refine .caseOf fits.ok (fun pattern body member => (branchesFit.ok pattern body member).patternOk)
        (fun pattern body member => (branchesFit.ok pattern body member).distinct) (fun pattern body member => ?_)
        (fun pattern body member => (branchesFit.ok pattern body member).bodyOk)
        (fun pattern body member => (branchesFit.ok pattern body member).result)
      exact (branchesFit.ok pattern body member).subject.trans (subject.type_under valuation).symm
  | .glsl span source => simp only [script, Script.Under]

/-- A function that is applied to arguments has a curried type. -/
theorem argsScript_under (limit : Nat) (args : List (Expr Span)) {function : Ty} {scene : Scene} {context : Context}
    {ends : Scene → List (Expr Typed) × Ty → Prop} (shows : scene.env.Shows valuation context)
    (finish : ∀ after typed type, ItemsFit valuation args context scene after typed →
      function.read valuation = Ty.curried (typed.map fun arg => arg.type.read valuation) (type.read valuation) →
      ends after (typed, type)) : (argsScript limit function args).Under valuation scene ends := by
  match args with
  | [] =>
    simp only [argsScript, Script.Under]
    exact finish scene [] function ⟨rfl, by simp, rfl⟩ rfl
  | arg :: rest =>
    simp only [argsScript, Script.Under]
    refine argScript_under (script_settles limit arg) shows fun scene₁ arg result fits same => ?_
    refine argsScript_under limit rest (fits.env ▸ shows) fun after rest type restFit restSame => ?_
    refine finish after (arg :: rest) type ⟨?_, ?_, restFit.env.trans fits.env⟩ ?_
    · rw [List.map_cons, fits.source, restFit.source]
    · exact List.forall_mem_cons.mpr ⟨fits.ok, restFit.ok⟩
    · rw [same, restSame]
      rfl

/-- The items of a list all get the type of the elements. -/
theorem itemsScript_under (limit : Nat) (element : Ty) (items : List (Expr Span)) {scene : Scene} {context : Context}
    {ends : Scene → List (Expr Typed) → Prop} (shows : scene.env.Shows valuation context)
    (finish : ∀ after typed, ItemsFit valuation items context scene after typed →
      (∀ item ∈ typed, item.type.read valuation = element.read valuation) → ends after typed) :
    (itemsScript limit element items).Under valuation scene ends := by
  match items with
  | [] =>
    simp only [itemsScript, Script.Under]
    exact finish scene [] ⟨rfl, by simp, rfl⟩ (by simp)
  | item :: rest =>
    simp only [itemsScript, Script.Under]
    refine script_settles limit item shows fun scene₁ item fits same issued => ?_
    refine itemsScript_under limit element rest (by exact fits.env ▸ shows) fun after rest restFit restSame => ?_
    refine finish after (item :: rest) ⟨?_, ?_, restFit.env.trans fits.env⟩
      (List.forall_mem_cons.mpr ⟨same.symm, restSame⟩)
    · rw [List.map_cons, fits.source, restFit.source]
    · exact List.forall_mem_cons.mpr ⟨fits.ok, restFit.ok⟩

theorem fieldsScript_under (limit : Nat) (fields : List (Field Span)) {scene : Scene} {context : Context}
    {ends : Scene → List (Field Typed) → Prop} (shows : scene.env.Shows valuation context)
    (finish : ∀ after typed, FieldsFit valuation fields context scene after typed → ends after typed) :
    (fieldsScript limit fields).Under valuation scene ends := by
  match fields with
  | [] =>
    simp only [fieldsScript, Script.Under]
    exact finish scene [] ⟨rfl, by simp, rfl⟩
  | .mk name value :: rest =>
    simp only [fieldsScript, Script.Under]
    refine script_settles limit value shows fun scene₁ value fits => ?_
    refine fieldsScript_under limit rest (fits.env ▸ shows) fun after rest restFit => ?_
    refine finish after (.mk name value :: rest) ⟨?_, ?_, restFit.env.trans fits.env⟩
    · rw [List.map_cons, Field.mapInfo, fits.source, restFit.source]
    · intro other found member
      rcases List.mem_cons.mp member with first | inRest
      · cases first
        exact fits.ok
      · exact restFit.ok other found inRest

theorem branchesScript_under (limit : Nat) (branches : List (Branch Span)) {subject result : Ty} {scene : Scene}
    {context : Context} {ends : Scene → List (Branch Typed) → Prop} (shows : scene.env.Shows valuation context)
    (finish : ∀ after typed, BranchesFit valuation branches context subject result scene after typed →
      ends after typed) : (branchesScript limit subject result branches).Under valuation scene ends := by
  match branches with
  | [] =>
    simp only [branchesScript, Script.Under]
    exact finish scene [] ⟨rfl, by simp, rfl⟩
  | .mk pattern body :: rest =>
    simp only [branchesScript, Script.Under]
    refine branchScript_under limit pattern (script_settles limit body) shows
      fun scene₁ pattern body patternSource bodySource ok env => ?_
    refine branchesScript_under limit rest (env ▸ shows) fun after rest restFit => ?_
    refine finish after (.mk pattern body :: rest) ⟨?_, ?_, restFit.env.trans env⟩
    · rw [List.map_cons, Branch.mapInfo, patternSource, bodySource, restFit.source]
    · intro otherPattern otherBody member
      rcases List.mem_cons.mp member with first | inRest
      · cases first
        exact ok
      · exact restFit.ok otherPattern otherBody inRest

/-- The bindings of a let block are consistent, each in the scope of those before it. -/
theorem bindingsScript_under (limit : Nat) (seen : List String) (bindings : List (Binding Span)) {scene : Scene}
    {context : Context} {ends : Scene → List (Binding Typed) → Prop} (shows : scene.env.Shows valuation context)
    (distinct : seen.Nodup)
    (finish : ∀ after typed, BindingsFit valuation bindings seen context scene after typed → ends after typed) :
    (bindingsScript limit seen bindings).Under valuation scene ends := by
  match bindings with
  | [] =>
    simp only [bindingsScript, Script.Under]
    exact finish scene [] ⟨rfl, .nil, by simpa [bindingNames] using distinct, shows, rfl⟩
  | .function name params body :: rest =>
    simp only [bindingsScript, Script.Under]
    refine localScript_under limit seen name body.info params (script_settles limit body) shows
      fun new scene₁ params body fits shows₁ outer₁ => ?_
    refine bindingsScript_under limit (seen ++ [name]) rest shows₁ (nodup_snoc distinct new)
      fun after rest restFit => ?_
    refine finish after (.function name params body :: rest) ⟨?_, ?_, ?_, ?_, restFit.outer.trans outer₁⟩
    · rw [List.map_cons, Binding.mapInfo, fits.params, fits.body, restFit.source]
    · exact .function fits.paramsOk fits.distinct fits.bodyOk restFit.ok
    · have whole := restFit.distinct
      rw [List.append_assoc] at whole
      exact whole
    · exact restFit.shows
  | .destructuring pattern body :: rest =>
    simp only [bindingsScript, Script.Under]
    -- The names of the pattern are not in scope in the body, which is inferred first.
    refine script_settles limit body shows fun scene₁ body bodyFits => ?_
    refine Pattern.script_under limit pattern List.nodup_nil fun scene₂ pattern names fits same issued => ?_
    have bound : scene₂.bound = names := fits.bound
    have env₂ : scene₂.env = scene.env := fits.env.trans bodyFits.env
    refine takeNamesScript_under _ seen scene₂.bound distinct fun nodup => ?_
    refine declareAllScript_under scene₂.bound (by exact env₂ ▸ shows) fun env shows₃ outer => ?_
    rw [bound, ← fits.binds] at shows₃
    refine bindingsScript_under limit _ rest shows₃ nodup fun after rest restFit => ?_
    have patternDistinct : Distinct (pattern.under valuation).names := by
      rw [fits.binds, distinct_readNames, ← bound]
      exact fits.distinct
    refine finish after (.destructuring pattern body :: rest) ⟨?_, ?_, ?_, ?_, ?_⟩
    · rw [List.map_cons, Binding.mapInfo, fits.source, bodyFits.source, restFit.source]
    · exact .destructuring bodyFits.ok fits.ok patternDistinct
        ((pattern.type_under valuation).trans (same.trans (body.type_under valuation).symm)) restFit.ok
    · have whole := restFit.distinct
      rw [bound, List.append_assoc, ← readNames_fst names, ← fits.binds, ← List.map_append] at whole
      exact whole
    · have whole := restFit.shows
      rw [← Context.addAll_append] at whole
      exact whole
    · rw [restFit.outer]
      exact outer.trans (by rw [env₂])

end

end Expr

end RowInference
