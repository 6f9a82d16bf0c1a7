import RowInference.Proofs.Inference.Attainment
import RowInference.Proofs.Tree.Height
import RowInference.Proofs.Types.Extensions

/-! # Annotated patterns guide inference

A tree with consistent types on its nodes shows what the variables of an inference can stand for. If each of them is
given the type that the annotation has in its place, all equations hold, and the inferred tree reads as the annotated
one. Here this is shown for patterns.
-/

namespace RowInference

variable {valuation later : Valuation} {issued issued' : Nat}

/-! ## Reading types -/

/-- The type has been issued, and it stands for another one. -/
structure Ty.ReadsAs (valuation : Valuation) (issued : Nat) (type target : Ty) : Prop where
  below : type.Below issued
  read : type.read valuation = target

namespace Ty.ReadsAs

variable {type target other goal : Ty}

/-- A type that stands for another one still does when more variables are issued. -/
theorem continued (reads : type.ReadsAs valuation issued target)
    (continues : valuation.Continues issued later issued') :
    type.ReadsAs later issued' target :=
  ⟨reads.below.mono continues.le, (continues.read_eq reads.below).trans reads.read⟩

/-- A variable right after it was issued. -/
theorem fresh {constraint : Option Constraint} (isTarget : valuation.value ⟨.generated issued, constraint⟩ = target) :
    (Ty.var ⟨.generated issued, constraint⟩).ReadsAs valuation (issued + 1) target := by
  refine ⟨fun v inType index same => ?_, isTarget⟩
  rw [List.mem_singleton.mp inType] at same
  cases same
  exact Nat.lt_succ_self _

theorem function (source : type.ReadsAs valuation issued target) (result : other.ReadsAs valuation issued goal) :
    (Ty.function type other).ReadsAs valuation issued (.function target goal) :=
  ⟨List.forall_mem_append.mpr ⟨source.below, result.below⟩, congrArg₂ Ty.function source.read result.read⟩

end Ty.ReadsAs

/-- A field of a record is one of the fields that its type shows. -/
theorem Ty.row_get?_of_field? {type part : Ty} {key : String} (found : type.field? key = some part) :
    type.row.get? key = some part := by
  cases type
  case record | extension => exact found
  all_goals cases found

theorem Ty.isRecord_of_field? {type part : Ty} {key : String} (found : type.field? key = some part) :
    type.isRecord = true := by
  cases type
  case record | extension => rfl
  all_goals cases found

theorem Ty.Canonical.field? {type part : Ty} (canonical : type.Canonical) {key : String}
    (found : type.field? key = some part) : part.Canonical := by
  cases type
  case record fields => exact Row.Canonical.get? canonical found
  case extension base fields => exact canonical.2.get? found
  all_goals cases found

theorem Ty.Flat.field? {type part : Ty} (flat : type.Flat) {key : String} (found : type.field? key = some part) :
    part.Flat := by
  cases type
  case record fields => exact (Row.flat_iff.mp flat).get? found
  case extension base fields => exact (Row.flat_iff.mp flat.2.2).get? found
  all_goals cases found

/-- What remains of a record can stand below the fields that were split off. -/
theorem Ty.Regular.tail_admits {type : Ty} (regular : type.Regular) (fields : Row) :
    (Kind.tail fields).Admits (type.strip fields) := by
  refine ⟨?_, strip_notBare regular.flat.level⟩
  rw [row_strip regular.flat.level]
  exact Row.without_disjoint _ _

/-- Fields of a record, on top of what remains of it. -/
theorem Ty.Regular.read_extension {type : Ty} (regular : type.Regular) (isRecord : type.isRecord = true) {base : Ty}
    {fields : Row} (sorted : fields.Sorted) (isRest : base.read valuation = type.strip fields)
    (inside : ∀ key part, fields.get? key = some part → type.field? key = some (part.read valuation)) :
    (Ty.extension base fields).read valuation = type := by
  change (base.read valuation).flatten (fields.mapVars valuation.value) = type
  rw [isRest, ← strip_mapVars valuation.value]
  refine flatten_strip isRecord ((Row.sorted_mapVars _).mpr sorted) regular.canonical regular.flat.level regular.notBare
    fun key partner found => ?_
  rw [Row.get?_mapVars] at found
  obtain ⟨part, isPart, rfl⟩ := Option.map_eq_some_iff.mp found
  exact row_get?_of_field? (inside key part isPart)

/-! ## Reading annotations -/

/-- The node has a plain type, and a regular one. -/
structure Typed.Regular (typed : Typed) : Prop where
  plain : typed.scheme.isMono = true
  type : typed.type.Regular

/-- A node whose type stands for the annotated one reads as annotated. -/
theorem Typed.Regular.read_eq {typed : Typed} (regular : typed.Regular) {type : Ty}
    (same : type.read valuation = typed.type) : Typed.read valuation (.mono typed.span type) = typed := by
  obtain ⟨span, binders, body⟩ := typed
  obtain rfl : binders = [] := List.isEmpty_iff.mp regular.plain
  exact congrArg (Typed.mono span) same

/-- The types on the nodes have been issued. -/
def InfosBelow (issued : Nat) (infos : List Typed) : Prop := ∀ info ∈ infos, info.type.Below issued

theorem InfosBelow.mono {infos : List Typed} (below : InfosBelow issued infos) (le : issued ≤ issued') :
    InfosBelow issued' infos := fun info member => (below info member).mono le

/-- Annotations with issued types are read the same way later on. -/
theorem InfosBelow.read_eq {infos : List Typed} (below : InfosBelow issued infos)
    (continues : valuation.Continues issued later issued') :
    ∀ info ∈ infos, Typed.read later info = Typed.read valuation info := by
  intro info member
  rw [Typed.read, Typed.read, continues.read_eq (below info member)]

theorem InfosBelow.append {first second : List Typed} (firstBelow : InfosBelow issued first)
    (secondBelow : InfosBelow issued second) : InfosBelow issued (first ++ second) :=
  List.forall_mem_append.mpr ⟨firstBelow, secondBelow⟩

theorem InfosBelow.single {info : Typed} (below : info.type.Below issued) : InfosBelow issued [info] :=
  List.forall_mem_singleton.mpr below

/-- Names with types that have been issued, and what these stand for. -/
structure NamesRead (valuation : Valuation) (issued : Nat) (names targets : List (String × Ty)) : Prop where
  below : ∀ entry ∈ names, entry.2.Below issued
  read : readNames valuation names = targets

namespace NamesRead

variable {names targets others goals : List (String × Ty)}

theorem nil : NamesRead valuation issued [] [] := ⟨by simp, rfl⟩

theorem single {type target : Ty} (name : String) (reads : type.ReadsAs valuation issued target) :
    NamesRead valuation issued [(name, type)] [(name, target)] :=
  ⟨List.forall_mem_singleton.mpr reads.below, congrArg (fun type => [(name, type)]) reads.read⟩

theorem append (first : NamesRead valuation issued names targets) (second : NamesRead valuation issued others goals) :
    NamesRead valuation issued (names ++ others) (targets ++ goals) :=
  ⟨List.forall_mem_append.mpr ⟨first.below, second.below⟩, by rw [readNames_append, first.read, second.read]⟩

theorem continued (reads : NamesRead valuation issued names targets)
    (continues : valuation.Continues issued later issued') : NamesRead later issued' names targets := by
  refine ⟨fun entry member => (reads.below entry member).mono continues.le, Eq.trans ?_ reads.read⟩
  exact List.map_congr_left fun entry member =>
    congrArg (Prod.mk entry.1) (continues.read_eq (reads.below entry member))

/-- Reading the types keeps the names. -/
theorem fst (reads : NamesRead valuation issued names targets) : names.map Prod.fst = targets.map Prod.fst := by
  rw [← reads.read, readNames_fst]

end NamesRead

/-! ## Patterns -/

namespace Pattern

variable {scene scene₁ scene₂ : Scene} {valuation₁ valuation₂ : Valuation} {names names₁ names₂ : List (String × Ty)}

/-- The typed pattern reads as the annotated one. So do its names. -/
structure ReadsAs (valuation : Valuation) (issued : Nat) (typed : Pattern Typed) (names : List (String × Ty))
    (given : Pattern Typed) : Prop where
  read : typed.mapInfo (Typed.read valuation) = given
  below : InfosBelow issued typed.infos
  names : NamesRead valuation issued names given.names

structure AllReadAs (valuation : Valuation) (issued : Nat) (typed : List (Pattern Typed)) (names : List (String × Ty))
    (givens : List (Pattern Typed)) : Prop where
  read : typed.map (mapInfo (Typed.read valuation)) = givens
  below : InfosBelow issued (infosOf typed)
  names : NamesRead valuation issued names (namesOf givens)

theorem ReadsAs.type {typed given : Pattern Typed} (reads : ReadsAs valuation issued typed names given) :
    typed.type.ReadsAs valuation issued given.type := by
  refine ⟨reads.below _ typed.info_mem_infos, ?_⟩
  rw [← type_under, under, reads.read]

theorem ReadsAs.continued {typed given : Pattern Typed} (reads : ReadsAs valuation issued typed names given)
    (continues : valuation.Continues issued later issued') : ReadsAs later issued' typed names given where
  read := (typed.mapInfo_congr (reads.below.read_eq continues)).trans reads.read
  below := reads.below.mono continues.le
  names := reads.names.continued continues

theorem AllReadAs.nil : AllReadAs valuation issued [] [] [] := ⟨rfl, by simp [InfosBelow, infosOf], .nil⟩

theorem AllReadAs.cons {typed given : Pattern Typed} {rest givens : List (Pattern Typed)}
    (first : ReadsAs valuation issued typed names₁ given)
    (others : AllReadAs valuation issued rest names₂ givens) :
    AllReadAs valuation issued (typed :: rest) (names₁ ++ names₂) (given :: givens) where
  read := by rw [List.map_cons, first.read, others.read]
  below := first.below.append others.below
  names := first.names.append others.names

theorem AllReadAs.continued {typed givens : List (Pattern Typed)}
    (reads : AllReadAs valuation issued typed names givens)
    (continues : valuation.Continues issued later issued') : AllReadAs later issued' typed names givens where
  read := (mapInfos_congr typed (reads.below.read_eq continues)).trans reads.read
  below := reads.below.mono continues.le
  names := reads.names.continued continues

/-- From one scene to another, with the types of variables kept and names added to the group. -/
structure Leads (valuation : Valuation) (scene : Scene) (later : Valuation) (after : Scene)
    (names : List (String × Ty)) :
    Prop where
  continues : valuation.Continues scene.issued later after.issued
  env : after.env = scene.env
  bound : after.bound = scene.bound ++ names

theorem Leads.refl (valuation : Valuation) (scene : Scene) : Leads valuation scene valuation scene [] :=
  ⟨.refl _ _, rfl, (List.append_nil _).symm⟩

theorem Leads.trans (first : Leads valuation scene valuation₁ scene₁ names₁)
    (second : Leads valuation₁ scene₁ valuation₂ scene₂ names₂) :
    Leads valuation scene valuation₂ scene₂ (names₁ ++ names₂) where
  continues := first.continues.trans second.continues
  env := second.env.trans first.env
  bound := by rw [second.bound, first.bound, List.append_assoc]

/-- Variables are issued, and nothing else happens. -/
theorem Leads.issue (continues : valuation.Continues scene.issued later issued) :
    Leads valuation scene later { scene with issued } [] :=
  ⟨continues, rfl, (List.append_nil _).symm⟩

theorem distinct_left {bound first second : List (String × Ty)} (distinct : Distinct (bound ++ (first ++ second))) :
    Distinct (bound ++ first) := by
  rw [Distinct, ← List.append_assoc, List.map_append] at distinct
  exact distinct.of_append_left

/-- The names that come after the first ones are new to the group once the first ones have been added. -/
theorem Leads.distinct_right {targets others : List (String × Ty)} (leads : Leads valuation scene later scene₁ names)
    (reads : NamesRead valuation₁ issued names targets) (distinct : Distinct (scene.bound ++ (targets ++ others))) :
    Distinct (scene₁.bound ++ others) := by
  rw [Distinct, List.map_append, List.map_append, ← reads.fst] at distinct
  rwa [Distinct, leads.bound, List.map_append, List.map_append, List.append_assoc]

/-- A name that comes after the group is new to it. -/
theorem new_of_distinct {bound rest : List (String × Ty)} {name : String} {type : Ty}
    (distinct : Distinct (bound ++ (name, type) :: rest)) : ∀ entry ∈ bound, entry.1 ≠ name := by
  rw [Distinct, List.map_append, List.nodup_append] at distinct
  exact fun entry member => distinct.2.2 entry.1 (List.mem_map_of_mem member) name (List.mem_cons_self ..)

/-- Fields get the types chosen for them, if they are new to the group. -/
theorem fieldsScript_attains (span : Span) (fields : List String) {target : String → Ty} {depth : Nat}
    {ends : Valuation → Scene → List (String × Ty) → Prop}
    (proper : ∀ field ∈ fields, (target field).Canonical ∧ (target field).Flat)
    (distinct : Distinct (scene.bound ++ fields.map fun field => (field, target field)))
    (finish : ∀ later after, Leads valuation scene later after (fieldVars scene.issued fields) →
      NamesRead later after.issued (fieldVars scene.issued fields) (fields.map fun field => (field, target field)) →
      ends later after (fieldVars scene.issued fields)) :
    (fieldsScript span fields).Attains depth valuation scene ends := by
  induction fields generalizing scene valuation ends with
  | nil => exact finish valuation scene (.refl _ _) .nil
  | cons field rest ih =>
    obtain ⟨⟨canonical, flat⟩, others⟩ := List.forall_mem_cons.mp proper
    simp only [fieldsScript, Script.Attains]
    refine ⟨target field, canonical, flat, Ty.meets_none _, fun later continues isTarget => ⟨?_, ?_⟩⟩
    · exact new_of_distinct distinct
    · have reads := NamesRead.single field (Ty.ReadsAs.fresh isTarget)
      have leads : Leads valuation scene later
        ⟨scene.env, scene.bound ++ [(field, .var ⟨.generated scene.issued, none⟩)], scene.issued + 1⟩ _ :=
        ⟨continues, rfl, rfl⟩
      refine ih others (leads.distinct_right reads distinct) fun last after leads' reads' => ?_
      exact finish last after (leads.trans leads') ((reads.continued leads'.continues).append reads')

/-- What remains of a record, with variables on top for some of its fields. -/
theorem read_record {type : Ty} (regular : type.Regular) (isRecord : type.isRecord = true) {fields : List String}
    (present : ∀ field ∈ fields, type.field? field ≠ none) {base : Ty} {types : List (String × Ty)}
    (isRest : base.read valuation = type.strip (Row.ofList types))
    (reads : readNames valuation types = fields.map fun field => (field, (type.field? field).getD .unit)) :
    (Ty.extension base (Row.ofList types)).read valuation = type := by
  refine regular.read_extension isRecord (Row.ofList_sorted _) isRest fun key part found => ?_
  have inTypes : (key, part) ∈ types := Row.mem_toList_ofList (Row.mem_toList_of_get? found)
  have inTargets : (key, part.read valuation) ∈ readNames valuation types := List.mem_map_of_mem inTypes
  rw [reads] at inTargets
  obtain ⟨field, member, same⟩ := List.mem_map.mp inTargets
  obtain ⟨rfl, isPart⟩ := Prod.mk.inj same
  obtain ⟨found, isFound⟩ := Option.ne_none_iff_exists'.mp (present field member)
  rw [← isPart, isFound, Option.getD_some]

/-- The names of a record pattern are its fields, if the record has them. -/
theorem names_record_eq {info : Typed} {fields : List String}
    (present : ∀ field ∈ fields, info.type.field? field ≠ none) :
    (Pattern.record info fields).names = fields.map fun field => (field, (info.type.field? field).getD .unit) := by
  rw [names, ← List.filterMap_eq_map]
  refine List.filterMap_congr fun field member => ?_
  obtain ⟨found, isFound⟩ := Option.ne_none_iff_exists'.mp (present field member)
  simp [isFound]

/-- The types on a pattern guide its inference if each name is new to its group, whatever the form of the pattern. -/
def Guides (given : Pattern Typed) {infer : InferM (Pattern Typed)} (inner : Script infer) (depth : Nat) : Prop :=
  ∀ ⦃valuation : Valuation⦄ ⦃scene : Scene⦄ ⦃ends : Valuation → Scene → Pattern Typed → Prop⦄,
    given.WellTyped → Distinct (scene.bound ++ given.names) →
    (∀ later after typed names, Leads valuation scene later after names → ReadsAs later after.issued typed names given →
      ends later after typed) → inner.Attains depth valuation scene ends

def Guided (limit : Nat) (given : Pattern Typed) (depth : Nat) : Prop :=
  Guides given ((given.mapInfo Typed.span).script limit) depth

def ItemsGuided (limit : Nat) (givens : List (Pattern Typed)) (depth : Nat) : Prop :=
  ∀ ⦃valuation : Valuation⦄ ⦃scene : Scene⦄ ⦃part element : Ty⦄
    ⦃ends : Valuation → Scene → List (Pattern Typed) → Prop⦄,
    (∀ item ∈ givens, item.WellTyped) → Distinct (scene.bound ++ namesOf givens) →
    (∀ item ∈ givens, item.type = element) → part.ReadsAs valuation scene.issued element →
    (∀ later after typed names, Leads valuation scene later after names →
      AllReadAs later after.issued typed names givens →
      ends later after typed) →
    (itemsScript limit part (givens.map (mapInfo Typed.span))).Attains depth valuation scene ends

def AllGuided (limit : Nat) (givens : List (Pattern Typed)) (depth : Nat) : Prop :=
  ∀ ⦃valuation : Valuation⦄ ⦃scene : Scene⦄ ⦃ends : Valuation → Scene → List (Pattern Typed) → Prop⦄,
    (∀ pattern ∈ givens, pattern.WellTyped) → Distinct (scene.bound ++ namesOf givens) →
    (∀ later after typed names, Leads valuation scene later after names →
      AllReadAs later after.issued typed names givens →
      ends later after typed) → (allScript limit (givens.map (mapInfo Typed.span))).Attains depth valuation scene ends

section Forms

variable {limit depth : Nat} {info : Typed} {given : Pattern Typed}

/-- A literal whose type is known in advance. -/
theorem guides_done {span : Span} {typed : Pattern Typed} (shallow : depth < limit)
    (reads : given.WellTyped → ∀ valuation issued, typed.type.Below issued → ReadsAs valuation issued typed [] given) :
    Guides given (.node Pattern.type limit span (.done typed)) depth := by
  intro valuation scene ends ok _ finish
  simp only [Script.Attains]
  exact ⟨shallow, fun below => finish valuation scene typed [] (.refl _ _) (reads ok valuation _ below)⟩

/-- A pattern without names that can have several types. -/
theorem guides_fresh {span : Span} {constraint : Option Constraint} {typed : Ty → Pattern Typed}
    (regular : info.Regular) (shallow : depth < limit) (meets : given.WellTyped → info.type.Meets constraint)
    (reads : ∀ valuation issued type, type.read valuation = info.type → (typed type).type.Below issued →
      ReadsAs valuation issued (typed type) [] given) :
    Guides given
      (.node Pattern.type limit span (.andThen (.fresh constraint) fun type => .done (typed type))) depth := by
  intro valuation scene ends ok _ finish
  simp only [Script.Attains]
  refine ⟨shallow, info.type, regular.type.canonical, regular.type.flat, meets ok,
    fun later continues isType below => ?_⟩
  exact finish later _ _ [] (.issue continues) (reads later _ _ isType below)

/-- A name is guided to the type on its node. -/
theorem guided_var {name : String} (regular : info.Regular) (shallow : depth < limit) :
    Guided limit (.var info name) depth := by
  intro valuation scene ends ok distinct finish
  simp only [mapInfo_var, script, Script.Attains]
  refine ⟨shallow, info.type, regular.type.canonical, regular.type.flat, Ty.meets_none _,
    fun later continues isType => ⟨new_of_distinct distinct, fun below => ?_⟩⟩
  refine finish later _ _ _ ⟨continues, rfl, rfl⟩ ⟨?_, .single below, .single name (.fresh isType)⟩
  exact congrArg (Pattern.var · name) (regular.read_eq isType)

/-- Each form is guided if its parts are. -/
theorem guided_tuple {first second : Pattern Typed} (regular : info.Regular) (shallow : depth < limit)
    (firstGuided : Guided limit first (depth + 1)) (secondGuided : Guided limit second (depth + 1)) :
    Guided limit (.tuple info first second) depth := by
  intro valuation scene ends ok distinct finish
  cases ok with
  | tuple firstOk secondOk type =>
    simp only [mapInfo_tuple, script, Script.Attains]
    refine ⟨shallow, ?_⟩
    refine firstGuided firstOk (distinct_left distinct) fun valuation₁ scene₁ first' names₁ leads₁ reads₁ => ?_
    refine secondGuided secondOk (leads₁.distinct_right reads₁.names distinct)
      fun valuation₂ scene₂ second' names₂ leads₂ reads₂ below => ?_
    have reads₁ := reads₁.continued leads₂.continues
    have types : (Ty.tuple first'.type second'.type).read valuation₂ = info.type :=
      (congrArg₂ Ty.tuple reads₁.type.read reads₂.type.read).trans type.symm
    refine finish valuation₂ scene₂ _ _ (leads₁.trans leads₂)
      ⟨?_, reads₁.below.append (reads₂.below.append (.single below)), reads₁.names.append reads₂.names⟩
    rw [mapInfo_tuple, regular.read_eq types, reads₁.read, reads₂.read]

theorem guided_triple {first second third : Pattern Typed} (regular : info.Regular) (shallow : depth < limit)
    (firstGuided : Guided limit first (depth + 1)) (secondGuided : Guided limit second (depth + 1))
    (thirdGuided : Guided limit third (depth + 1)) : Guided limit (.triple info first second third) depth := by
  intro valuation scene ends ok distinct finish
  cases ok with
  | triple firstOk secondOk thirdOk type =>
    simp only [mapInfo_triple, script, Script.Attains]
    refine ⟨shallow, ?_⟩
    refine firstGuided firstOk (distinct_left distinct) fun valuation₁ scene₁ first' names₁ leads₁ reads₁ => ?_
    have distinct₁ := leads₁.distinct_right reads₁.names distinct
    refine secondGuided secondOk (distinct_left distinct₁) fun valuation₂ scene₂ second' names₂ leads₂ reads₂ => ?_
    refine thirdGuided thirdOk (leads₂.distinct_right reads₂.names distinct₁)
      fun valuation₃ scene₃ third' names₃ leads₃ reads₃ below => ?_
    have reads₁ := reads₁.continued (leads₂.continues.trans leads₃.continues)
    have reads₂ := reads₂.continued leads₃.continues
    have types : (Ty.triple first'.type second'.type third'.type).read valuation₃ = info.type :=
      (congr (congrArg₂ Ty.triple reads₁.type.read reads₂.type.read) reads₃.type.read).trans type.symm
    refine finish valuation₃ scene₃ _ _ (leads₁.trans (leads₂.trans leads₃))
      ⟨?_, reads₁.below.append (reads₂.below.append (reads₃.below.append (.single below))),
        reads₁.names.append (reads₂.names.append reads₃.names)⟩
    rw [mapInfo_triple, regular.read_eq types, reads₁.read, reads₂.read, reads₃.read]

theorem guided_list {items : List (Pattern Typed)} (regular : info.Regular) (shallow : depth < limit)
    (itemsGuided : ItemsGuided limit items (depth + 1)) : Guided limit (.list info items) depth := by
  intro valuation scene ends ok distinct finish
  cases ok with
  | @list _ _ element itemsOk elements type =>
    have elementRegular : element.Regular := Ty.Regular.element (type ▸ regular.type)
    rw [mapInfo_list]
    simp only [script, Script.Attains]
    refine ⟨shallow, element, elementRegular.canonical, elementRegular.flat, Ty.meets_none _,
      fun valuation₁ continues isElement => ?_⟩
    have isElement : Ty.ReadsAs valuation₁ (scene.issued + 1) _ element := .fresh isElement
    refine itemsGuided itemsOk distinct elements isElement fun valuation₂ after items' names leads reads below => ?_
    have types : (Ty.list (.var ⟨.generated scene.issued, none⟩)).read valuation₂ = info.type :=
      (congrArg Ty.list (isElement.continued leads.continues).read).trans type.symm
    refine finish valuation₂ after _ names ((Leads.issue continues).trans leads)
      ⟨?_, reads.below.append (.single below), reads.names⟩
    rw [mapInfo_list, regular.read_eq types, reads.read]

theorem guided_cons {head tail : Pattern Typed} (regular : info.Regular) (shallow : depth < limit)
    (headGuided : Guided limit head (depth + 1)) (tailGuided : Guided limit tail (depth + 1)) :
    Guided limit (.cons info head tail) depth := by
  intro valuation scene ends ok distinct finish
  cases ok with
  | cons headOk tailOk rest type =>
    simp only [mapInfo_cons, script, Script.Attains]
    refine ⟨shallow, ?_⟩
    refine headGuided headOk (distinct_left distinct) fun valuation₁ scene₁ head' names₁ leads₁ reads₁ => ?_
    refine tailGuided tailOk (leads₁.distinct_right reads₁.names distinct)
      fun valuation₂ scene₂ tail' names₂ leads₂ reads₂ => ?_
    have reads₁ := reads₁.continued leads₂.continues
    have headList := (congrArg Ty.list reads₁.type.read).trans type.symm
    refine ⟨headList.trans (reads₂.type.read.trans rest).symm, fun later issued continues below => ?_⟩
    have leads := (leads₁.trans leads₂).trans (.issue continues)
    rw [List.append_nil] at leads
    have reads₁ := reads₁.continued continues
    have reads₂ := reads₂.continued continues
    have types : (Ty.list head'.type).read later = info.type := (congrArg Ty.list reads₁.type.read).trans type.symm
    refine finish later _ _ _ leads
      ⟨?_, reads₁.below.append (reads₂.below.append (.single below)), reads₁.names.append reads₂.names⟩
    rw [mapInfo_cons, regular.read_eq types, reads₁.read, reads₂.read]

/-- The record has the fields of the pattern, so its type can stand for an open record with them. -/
theorem guided_record {fields : List String} (regular : info.Regular) (shallow : depth < limit) :
    Guided limit (.record info fields) depth := by
  intro valuation scene ends ok distinct finish
  cases ok with
  | record isRecord present =>
    simp only [mapInfo_record, script, Script.Attains]
    refine ⟨shallow, info.type.strip (Row.ofList (fieldVars (scene.issued + 1) fields)),
      Ty.strip_canonical regular.type.canonical, Ty.strip_flat regular.type.flat, regular.type.tail_admits _,
      fun valuation₁ continues isRest => ?_⟩
    have base : Ty.ReadsAs valuation₁ (scene.issued + 1) _ _ := .fresh isRest
    have namesEq := names_record_eq present
    refine fieldsScript_attains _ fields (fun field member => ?_) (by rw [← namesEq]; exact distinct)
      fun valuation₂ after leads reads below => ?_
    · obtain ⟨found, isFound⟩ := Option.ne_none_iff_exists'.mp (present field member)
      rw [isFound, Option.getD_some]
      exact ⟨regular.type.canonical.field? isFound, regular.type.flat.field? isFound⟩
    · have types := read_record regular.type isRecord present (base.continued leads.continues).read reads.read
      exact finish valuation₂ after _ _ ((Leads.issue continues).trans leads)
        ⟨congrArg (Pattern.record · fields) (regular.read_eq types), .single below, namesEq ▸ reads⟩

/-- The name goes behind those of the inner pattern, and is new there. -/
theorem guided_aliased {inner : Pattern Typed} {name : String} (regular : info.Regular) (shallow : depth < limit)
    (innerGuided : Guided limit inner (depth + 1)) : Guided limit (.aliased info inner name) depth := by
  intro valuation scene ends ok distinct finish
  cases ok with
  | aliased innerOk type =>
    simp only [mapInfo_aliased, script, Script.Attains]
    refine ⟨shallow, ?_⟩
    refine innerGuided innerOk (distinct_left distinct) fun valuation₁ scene₁ inner' names leads reads => ?_
    refine ⟨new_of_distinct (leads.distinct_right reads.names distinct), fun below => ?_⟩
    have innerType := reads.type
    rw [← type] at innerType
    refine finish valuation₁ _ _ (names ++ [(name, inner'.type)]) ⟨leads.continues, leads.env, ?_⟩
      ⟨?_, reads.below.append (.single below), reads.names.append (.single name innerType)⟩
    · rw [leads.bound, List.append_assoc]
    · rw [mapInfo_aliased, regular.read_eq innerType.read, reads.read]

theorem guided_parenthesized {inner : Pattern Typed} (regular : info.Regular) (shallow : depth < limit)
    (innerGuided : Guided limit inner (depth + 1)) : Guided limit (.parenthesized info inner) depth := by
  intro valuation scene ends ok distinct finish
  cases ok with
  | parenthesized innerOk type =>
    simp only [mapInfo_parenthesized, script, Script.Attains]
    refine ⟨shallow, ?_⟩
    refine innerGuided innerOk distinct fun later after inner' names leads reads below => ?_
    refine finish later after _ names leads ⟨?_, reads.below.append (.single below), reads.names⟩
    rw [mapInfo_parenthesized, regular.read_eq (reads.type.read.trans type.symm), reads.read]

theorem itemsGuided_nil : ItemsGuided limit [] depth := by
  intro valuation scene part element ends _ _ _ _ finish
  rw [List.map_nil]
  simp only [itemsScript, Script.Attains]
  exact finish valuation scene [] [] (.refl _ _) .nil

theorem itemsGuided_cons {rest : List (Pattern Typed)} (guided : Guided limit given depth)
    (restGuided : ItemsGuided limit rest depth) : ItemsGuided limit (given :: rest) depth := by
  intro valuation scene part element ends ok distinct elements isElement finish
  rw [List.forall_mem_cons] at ok elements
  rw [List.map_cons]
  simp only [itemsScript, Script.Attains]
  refine guided ok.1 (distinct_left distinct) fun valuation₁ scene₁ item' names₁ leads₁ reads₁ => ?_
  have isElement₁ := isElement.continued leads₁.continues
  refine ⟨isElement₁.read.trans (reads₁.type.read.trans elements.1).symm, fun valuation₂ issued continues => ?_⟩
  have leads₂ := leads₁.trans (.issue continues)
  rw [List.append_nil] at leads₂
  refine restGuided ok.2 (leads₂.distinct_right reads₁.names distinct) elements.2 (isElement₁.continued continues)
    fun valuation₃ after rest' names₂ leads₃ reads₃ => ?_
  exact finish valuation₃ after _ _ (leads₂.trans leads₃)
    (.cons (reads₁.continued (continues.trans leads₃.continues)) reads₃)

theorem allGuided_nil : AllGuided limit [] depth :=
  fun valuation scene _ _ _ finish => finish valuation scene [] [] (.refl _ _) .nil

theorem allGuided_cons {rest : List (Pattern Typed)} (guided : Guided limit given depth)
    (restGuided : AllGuided limit rest depth) : AllGuided limit (given :: rest) depth := by
  intro valuation scene ends ok distinct finish
  rw [List.forall_mem_cons] at ok
  rw [List.map_cons]
  simp only [allScript, Script.Attains]
  refine guided ok.1 (distinct_left distinct) fun valuation₁ scene₁ pattern' names₁ leads₁ reads₁ => ?_
  refine restGuided ok.2 (leads₁.distinct_right reads₁.names distinct)
    fun valuation₂ scene₂ rest' names₂ leads₂ reads₂ => ?_
  exact finish valuation₂ scene₂ _ _ (leads₁.trans leads₂) (.cons (reads₁.continued leads₂.continues) reads₂)

end Forms

mutual

/-- The types on a pattern guide its inference, if all of them are regular and the pattern is not too high. -/
theorem script_guided (limit : Nat) (given : Pattern Typed) {depth : Nat} (regular : ∀ info ∈ given.infos, info.Regular)
    (shallow : depth + given.height ≤ limit) : Guided limit given depth := by
  match given with
  | .unit info =>
    simp only [infos, List.forall_mem_singleton, height] at regular shallow
    refine guides_done shallow fun ok _ _ below => ⟨?_, .single below, .nil⟩
    cases ok with
    | unit type => exact congrArg Pattern.unit (regular.read_eq type.symm)
  | .wildcard info =>
    simp only [infos, List.forall_mem_singleton, height] at regular shallow
    exact guides_fresh regular shallow (fun _ => Ty.meets_none _) fun _ _ _ isType below =>
      ⟨congrArg Pattern.wildcard (regular.read_eq isType), .single below, .nil⟩
  | .var info name =>
    simp only [infos, List.forall_mem_singleton, height] at regular shallow
    exact guided_var regular shallow
  | .integer info value =>
    simp only [infos, List.forall_mem_singleton, height] at regular shallow
    refine guides_fresh regular shallow (fun ok => ?_) fun _ _ _ isType below =>
      ⟨congrArg (Pattern.integer · value) (regular.read_eq isType), .single below, .nil⟩
    cases ok with
    | integer meets => exact meets
  | .hex info value =>
    simp only [infos, List.forall_mem_singleton, height] at regular shallow
    refine guides_fresh regular shallow (fun ok => ?_) fun _ _ _ isType below =>
      ⟨congrArg (Pattern.hex · value) (regular.read_eq isType), .single below, .nil⟩
    cases ok with
    | hex meets => exact meets
  | .float info value =>
    simp only [infos, List.forall_mem_singleton, height] at regular shallow
    refine guides_done shallow fun ok _ _ below => ⟨?_, .single below, .nil⟩
    cases ok with
    | float type => exact congrArg (Pattern.float · value) (regular.read_eq type.symm)
  | .string info value =>
    simp only [infos, List.forall_mem_singleton, height] at regular shallow
    refine guides_done shallow fun ok _ _ below => ⟨?_, .single below, .nil⟩
    cases ok with
    | string type => exact congrArg (Pattern.string · value) (regular.read_eq type.symm)
  | .char info value =>
    simp only [infos, List.forall_mem_singleton, height] at regular shallow
    refine guides_done shallow fun ok _ _ below => ⟨?_, .single below, .nil⟩
    cases ok with
    | char type => exact congrArg (Pattern.char · value) (regular.read_eq type.symm)
  | .tuple info first second =>
    simp only [infos, List.forall_mem_append, List.forall_mem_singleton, height] at regular shallow
    exact guided_tuple regular.2.2 (by omega) (script_guided limit first regular.1 (by omega))
      (script_guided limit second regular.2.1 (by omega))
  | .triple info first second third =>
    simp only [infos, List.forall_mem_append, List.forall_mem_singleton, height] at regular shallow
    exact guided_triple regular.2.2.2 (by omega) (script_guided limit first regular.1 (by omega))
      (script_guided limit second regular.2.1 (by omega)) (script_guided limit third regular.2.2.1 (by omega))
  | .list info items =>
    simp only [infos, List.forall_mem_append, List.forall_mem_singleton, height] at regular shallow
    exact guided_list regular.2 (by omega) (itemsScript_guided limit items regular.1 (by omega))
  | .cons info head tail =>
    simp only [infos, List.forall_mem_append, List.forall_mem_singleton, height] at regular shallow
    exact guided_cons regular.2.2 (by omega) (script_guided limit head regular.1 (by omega))
      (script_guided limit tail regular.2.1 (by omega))
  | .record info fields =>
    simp only [infos, List.forall_mem_singleton, height] at regular shallow
    exact guided_record regular shallow
  | .aliased info inner name =>
    simp only [infos, List.forall_mem_append, List.forall_mem_singleton, height] at regular shallow
    exact guided_aliased regular.2 (by omega) (script_guided limit inner regular.1 (by omega))
  | .parenthesized info inner =>
    simp only [infos, List.forall_mem_append, List.forall_mem_singleton, height] at regular shallow
    exact guided_parenthesized regular.2 (by omega) (script_guided limit inner regular.1 (by omega))

/-- Items that are not too high are guided by their types. -/
theorem itemsScript_guided (limit : Nat) (givens : List (Pattern Typed)) {depth : Nat}
    (regular : ∀ info ∈ infosOf givens, info.Regular) (shallow : depth + heightOf givens ≤ limit) :
    ItemsGuided limit givens depth := by
  match givens with
  | [] => exact itemsGuided_nil
  | item :: rest =>
    simp only [infosOf, List.forall_mem_append, heightOf] at regular shallow
    exact itemsGuided_cons (script_guided limit item regular.1 (by omega))
      (itemsScript_guided limit rest regular.2 (by omega))

end

theorem allScript_guided (limit : Nat) (givens : List (Pattern Typed)) {depth : Nat}
    (regular : ∀ info ∈ infosOf givens, info.Regular) (shallow : depth + heightOf givens ≤ limit) :
    AllGuided limit givens depth := by
  induction givens with
  | nil => exact allGuided_nil
  | cons pattern rest ih =>
    simp only [infosOf, List.forall_mem_append, heightOf] at regular shallow
    exact allGuided_cons (script_guided limit pattern regular.1 (by omega)) (ih regular.2 (by omega))

end Pattern

end RowInference
