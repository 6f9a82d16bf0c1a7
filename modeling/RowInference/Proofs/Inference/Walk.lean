import RowInference.Proofs.Inference.Discipline

/-! # Every inference is safe

The scripts of patterns and expressions ask nothing of a discipline that it does not provide: whatever the discipline,
inference keeps to it. The types on the resulting tree are fine, and the scopes are as they were before.
-/

namespace RowInference

variable {discipline : Discipline} {world later : discipline.World} {scene : Scene}

/-! ## Fine trees -/

/-- The annotations are plain types, all of them fine. -/
def Discipline.FineInfos (discipline : Discipline) (world : discipline.World) (infos : List Typed) : Prop :=
  ∀ info ∈ infos, info.scheme.binders = [] ∧ discipline.Fine world info.type

namespace Discipline.FineInfos

theorem mono {infos : List Typed} (fine : discipline.FineInfos world infos) (le : world ≤ later) :
    discipline.FineInfos later infos :=
  fun info member => ⟨(fine info member).1, discipline.fine_mono le (fine info member).2⟩

theorem nil : discipline.FineInfos world [] := by simp [FineInfos]

theorem append {infos others : List Typed} (fine : discipline.FineInfos world infos)
    (othersFine : discipline.FineInfos world others) : discipline.FineInfos world (infos ++ others) :=
  fun info member => (List.mem_append.mp member).elim (fine info) (othersFine info)

/-- A node above fine nodes. -/
theorem node {infos children : List Typed} {info : Typed} (fine : discipline.FineInfos world children)
    (split : infos = children ++ [info]) (plain : info.scheme.binders = [])
    (infoFine : discipline.Fine world info.type) :
    discipline.FineInfos world infos := by
  rw [split]
  refine fine.append fun other member => ?_
  obtain rfl := List.mem_singleton.mp member
  exact ⟨plain, infoFine⟩

end Discipline.FineInfos

def Discipline.FineNames (discipline : Discipline) (world : discipline.World) (names : List (String × Ty)) : Prop :=
  ∀ entry ∈ names, discipline.Fine world entry.2

namespace Discipline.FineNames

theorem mono {names : List (String × Ty)} (fine : discipline.FineNames world names) (le : world ≤ later) :
    discipline.FineNames later names := fun entry member => discipline.fine_mono le (fine entry member)

theorem nil : discipline.FineNames world [] := by simp [FineNames]

theorem snoc {names : List (String × Ty)} (fine : discipline.FineNames world names) (name : String) {type : Ty}
    (typeFine : discipline.Fine world type) : discipline.FineNames world (names ++ [(name, type)]) := by
  intro entry member
  rcases List.mem_append.mp member with old | new
  · exact fine entry old
  · obtain rfl := List.mem_singleton.mp new
    exact typeFine

end Discipline.FineNames

/-- The information on the outermost node is among that of all nodes. -/
theorem Pattern.info_mem_infos {ι : Type} (pattern : Pattern ι) : pattern.info ∈ pattern.infos := by
  cases pattern <;> simp [info, infos]

theorem Expr.info_mem_infos {ι : Type} (expr : Expr ι) : expr.info ∈ expr.infos := by
  cases expr <;> simp [info, infos]

theorem Pattern.fine_type {pattern : Pattern Typed} (fine : discipline.FineInfos world pattern.infos) :
    discipline.Fine world pattern.type := (fine _ pattern.info_mem_infos).2

theorem Expr.fine_type {expr : Expr Typed} (fine : discipline.FineInfos world expr.infos) :
    discipline.Fine world expr.type := (fine _ expr.info_mem_infos).2

theorem Row.ofList_flat {fields : List (String × Ty)} (all : ∀ entry ∈ fields, entry.2.Flat) :
    (Row.ofList fields).Flat := Row.flat_iff.mpr fun entry member => all entry (mem_toList_ofList member)

/-! ## Patterns -/

namespace Pattern

open Discipline

theorem fieldVars_var (first : Nat) (fields : List String) :
    ∀ entry ∈ fieldVars first fields, ∃ v, entry.2 = .var v := by
  induction fields generalizing first with
  | nil => simp [fieldVars]
  | cons field rest ih =>
    intro entry member
    rcases List.mem_cons.mp member with rfl | inRest
    · exact ⟨_, rfl⟩
    · exact ih (first + 1) entry inRest

/-- The fields of a record pattern get fine types and become names of the group. -/
theorem fieldsScript_safe (span : Span) (fields : List String)
    {ends : discipline.World → Scene → List (String × Ty) → Prop} (bound : discipline.FineNames world scene.bound)
    (finish : ∀ later ≥ world, ∀ scene' : Scene, scene'.env = scene.env → discipline.FineNames later scene'.bound →
      discipline.FineNames later (fieldVars scene.issued fields) → ends later scene' (fieldVars scene.issued fields)) :
    (fieldsScript span fields).Safe discipline world scene ends := by
  induction fields generalizing world scene ends with
  | nil => exact finish world (le_refl world) scene rfl bound .nil
  | cons field rest ih =>
    simp only [fieldsScript, Script.Safe]
    intro later le fine
    refine ih ((bound.mono le).snoc field fine) fun last le' scene' sameEnv bound' restFine => ?_
    exact finish last (le_trans le le') scene' sameEnv bound' <| List.forall_mem_cons.mpr
      ⟨discipline.fine_mono le' fine, restFine⟩

mutual

/-- Inference of patterns is safe. -/
theorem script_safe (limit : Nat) (pattern : Pattern Span) {world : discipline.World} {scene : Scene}
    {ends : discipline.World → Scene → Pattern Typed → Prop} (bound : discipline.FineNames world scene.bound)
    (finish : ∀ later ≥ world, ∀ scene' : Scene, scene'.env = scene.env → discipline.FineNames later scene'.bound →
      ∀ typed : Pattern Typed, discipline.FineInfos later typed.infos → ends later scene' typed) :
    (pattern.script limit).Safe discipline world scene ends := by
  have node : ∀ {later} {scene' : Scene} {typed : Pattern Typed} {children : List Typed}, later ≥ world →
      scene'.env = scene.env → discipline.FineNames later scene'.bound → typed.infos = children ++ [typed.info] →
      typed.info.scheme.binders = [] → discipline.FineInfos later children → discipline.Fine later typed.type →
      discipline.Fine later typed.type ∧ ends later scene' typed :=
    fun le env bound split plain childrenFine fine =>
      ⟨fine, finish _ le _ env bound _ (childrenFine.node split plain fine)⟩
  match pattern with
  | .unit span =>
    simp only [script, Script.Safe]
    exact node (le_refl world) rfl bound rfl rfl .nil (discipline.fine_atom world rfl)
  | .wildcard span =>
    simp only [script, Script.Safe]
    exact fun later le fine => node le rfl (bound.mono le) rfl rfl .nil fine
  | .var span name =>
    simp only [script, Script.Safe]
    exact fun later le fine => node le rfl ((bound.mono le).snoc name fine) rfl rfl .nil fine
  | .integer span value =>
    simp only [script, Script.Safe]
    exact fun later le fine => node le rfl (bound.mono le) rfl rfl .nil fine
  | .hex span value =>
    simp only [script, Script.Safe]
    exact fun later le fine => node le rfl (bound.mono le) rfl rfl .nil fine
  | .float span value =>
    simp only [script, Script.Safe]
    exact node (le_refl world) rfl bound rfl rfl .nil (discipline.fine_atom world rfl)
  | .string span value =>
    simp only [script, Script.Safe]
    exact node (le_refl world) rfl bound rfl rfl .nil (discipline.fine_atom world rfl)
  | .char span value =>
    simp only [script, Script.Safe]
    exact node (le_refl world) rfl bound rfl rfl .nil (discipline.fine_atom world rfl)
  | .tuple span first second =>
    simp only [script, Script.Safe]
    refine script_safe limit first bound fun later le scene' env bound' first fine => ?_
    refine script_safe limit second bound' fun last le' scene'' env' bound'' second fine' => ?_
    have firstFine := fine.mono le'
    exact node (le_trans le le') (env'.trans env) bound'' (List.append_assoc ..).symm rfl (firstFine.append fine')
      (discipline.fine_tuple (fine_type firstFine) (fine_type fine'))
  | .triple span first second third =>
    simp only [script, Script.Safe]
    refine script_safe limit first bound fun world₁ le₁ scene₁ env₁ bound₁ first fine₁ => ?_
    refine script_safe limit second bound₁ fun world₂ le₂ scene₂ env₂ bound₂ second fine₂ => ?_
    refine script_safe limit third bound₂ fun world₃ le₃ scene₃ env₃ bound₃ third fine₃ => ?_
    have firstFine := fine₁.mono (le_trans le₂ le₃)
    have secondFine := fine₂.mono le₃
    refine node (le_trans le₁ (le_trans le₂ le₃)) (env₃.trans (env₂.trans env₁)) bound₃ ?_ rfl
      (firstFine.append (secondFine.append fine₃))
      (discipline.fine_triple (fine_type firstFine) (fine_type secondFine) (fine_type fine₃))
    simp only [infos, info, List.append_assoc]
  | .list span items =>
    simp only [script, Script.Safe]
    intro later le element
    refine itemsScript_safe limit _ items element (bound.mono le) fun last le' scene' env bound' items fine => ?_
    exact node (le_trans le le') env bound' rfl rfl fine (discipline.fine_list (discipline.fine_mono le' element))
  | .cons span head tail =>
    simp only [script, Script.Safe]
    refine script_safe limit head bound fun later le scene' env bound' head fine => ?_
    refine script_safe limit tail bound' fun last le' scene'' env' bound'' tail fine' => ?_
    have whole := discipline.fine_list (fine_type (fine.mono le'))
    refine ⟨whole, fine_type fine', fun latest le'' issued => ?_⟩
    exact node (le_trans le (le_trans le' le'')) (env'.trans env) (bound''.mono le'') (List.append_assoc ..).symm rfl
      ((fine.mono (le_trans le' le'')).append (fine'.mono le'')) (discipline.fine_mono le'' whole)
  | .record span fields =>
    simp only [script, Script.Safe]
    have proper : ∀ entry ∈ fieldVars (scene.issued + 1) fields, entry.2.Canonical ∧ entry.2.Flat := by
      intro entry member
      obtain ⟨v, isVar⟩ := fieldVars_var _ _ entry member
      rw [isVar]
      exact ⟨trivial, trivial⟩
    refine ⟨Row.ofList_canonical fun entry member => (proper entry member).1,
      Row.ofList_flat fun entry member => (proper entry member).2, fun later le base => ?_⟩
    refine fieldsScript_safe span fields (bound.mono le) fun last le' scene' env bound' fine => ?_
    have whole := base last le' fun entry member => fine entry (Row.mem_toList_ofList member)
    exact node (le_trans le le') env bound' rfl rfl .nil whole
  | .aliased span inner name =>
    simp only [script, Script.Safe]
    refine script_safe limit inner bound fun later le scene' env bound' inner fine => ?_
    have innerFine := fine_type fine
    exact node le env (bound'.snoc name innerFine) rfl rfl fine innerFine
  | .parenthesized span inner =>
    simp only [script, Script.Safe]
    refine script_safe limit inner bound fun later le scene' env bound' inner fine => ?_
    have innerFine := fine_type fine
    exact node le env bound' rfl rfl fine innerFine

/-- The items of a list pattern are safe if the type of the elements is fine. -/
theorem itemsScript_safe (limit : Nat) (element : Ty) (items : List (Pattern Span)) {world : discipline.World}
    {scene : Scene} {ends : discipline.World → Scene → List (Pattern Typed) → Prop}
    (elementFine : discipline.Fine world element) (bound : discipline.FineNames world scene.bound)
    (finish : ∀ later ≥ world, ∀ scene' : Scene, scene'.env = scene.env → discipline.FineNames later scene'.bound →
      ∀ typed : List (Pattern Typed), discipline.FineInfos later (infosOf typed) → ends later scene' typed) :
    (itemsScript limit element items).Safe discipline world scene ends := by
  match items with
  | [] =>
    simp only [itemsScript, Script.Safe]
    exact finish world (le_refl world) scene rfl bound [] .nil
  | item :: rest =>
    simp only [itemsScript, Script.Safe]
    refine script_safe limit item bound fun later le scene' env bound' item fine => ?_
    refine ⟨discipline.fine_mono le elementFine, fine_type fine, fun last le' issued => ?_⟩
    refine itemsScript_safe limit element rest (discipline.fine_mono (le_trans le le') elementFine) (bound'.mono le')
      fun latest le'' scene'' env' bound'' rest fine' => ?_
    exact finish latest (le_trans le (le_trans le' le'')) scene'' (env'.trans env) bound'' _
      ((fine.mono (le_trans le' le'')).append fine')

end

theorem allScript_safe (limit : Nat) (patterns : List (Pattern Span))
    {ends : discipline.World → Scene → List (Pattern Typed) → Prop} (bound : discipline.FineNames world scene.bound)
    (finish : ∀ later ≥ world, ∀ scene' : Scene, scene'.env = scene.env → discipline.FineNames later scene'.bound →
      ∀ typed : List (Pattern Typed), discipline.FineInfos later (infosOf typed) → ends later scene' typed) :
    (allScript limit patterns).Safe discipline world scene ends := by
  induction patterns generalizing world scene ends with
  | nil => exact finish world (le_refl world) scene rfl bound [] .nil
  | cons pattern rest ih =>
    simp only [allScript, Script.Safe]
    refine script_safe limit pattern bound fun later le scene' env bound' pattern fine => ?_
    refine ih bound' fun last le' scene'' env' bound'' rest fine' => ?_
    exact finish last (le_trans le le') scene'' (env'.trans env) bound'' _ ((fine.mono le').append fine')

end Pattern

/-! ## Names -/

/-- Names with fine types can be brought into scope. -/
theorem declareAllScript_safe (names : List (String × Ty)) {ends : discipline.World → Scene → Unit → Prop}
    (fine : discipline.FineNames world names)
    (finish : ∀ env : Environment, env.outer = scene.env.outer → ends world { scene with env } ()) :
    (declareAllScript names).Safe discipline world scene ends := by
  induction names generalizing scene with
  | nil => exact finish scene.env rfl
  | cons entry rest ih =>
    obtain ⟨entryFine, restFine⟩ := List.forall_mem_cons.mp fine
    simp only [declareAllScript, Script.Safe]
    exact ⟨discipline.fine_mono_scheme entryFine, ih restFine finish⟩

namespace Expr

theorem takeNamesScript_safe (span : Span) (seen : List String) (names : List (String × Ty))
    {ends : discipline.World → Scene → List String → Prop} (finish : ∀ seen, ends world scene seen) :
    (takeNamesScript span seen names).Safe discipline world scene ends := by
  induction names generalizing seen with
  | nil => exact finish seen
  | cons entry rest ih =>
    simp only [takeNamesScript, Script.Safe]
    exact ⟨fun _ => trivial, fun _ => ih _⟩

/-! ## Parts of expressions -/

/-- Parameters are safe, and their names come into the current scope. -/
theorem paramsScript_safe (limit : Nat) (params : List (Pattern Span))
    {ends : discipline.World → Scene → List (Pattern Typed) → Prop}
    (finish : ∀ later ≥ world, ∀ scene' : Scene, scene'.env.outer = scene.env.outer → ∀ typed : List (Pattern Typed),
      discipline.FineInfos later (Pattern.infosOf typed) → ends later scene' typed) :
    (paramsScript limit params).Safe discipline world scene ends := by
  simp only [paramsScript, Script.Safe]
  refine Pattern.allScript_safe limit params .nil fun later le scene' env namesFine params fine => ?_
  refine declareAllScript_safe _ namesFine fun env' outer => ?_
  exact finish later le _ (by rw [outer, env]) params fine

/-- The script of an expression, of whatever form. -/
def Walks (discipline : Discipline) {infer : InferM (Expr Typed)} (inner : Script infer) : Prop :=
  ∀ ⦃world : discipline.World⦄ ⦃scene : Scene⦄ ⦃ends : discipline.World → Scene → Expr Typed → Prop⦄,
    (∀ later ≥ world, ∀ scene' : Scene, scene'.env = scene.env → ∀ typed : Expr Typed,
      discipline.FineInfos later typed.infos → ends later scene' typed) → inner.Safe discipline world scene ends

variable {infer : InferM (Expr Typed)} {inner : Script infer}

/-- An argument is safe if the type of the function is fine, and so is the type of the result. -/
theorem argScript_safe {function : Ty} (walks : Walks discipline inner) (functionFine : discipline.Fine world function)
    {ends : discipline.World → Scene → Expr Typed × Ty → Prop}
    (finish : ∀ later ≥ world, ∀ scene' : Scene, scene'.env = scene.env → ∀ (typed : Expr Typed) (result : Ty),
      discipline.FineInfos later typed.infos → discipline.Fine later result → ends later scene' (typed, result)) :
    (argScript function inner).Safe discipline world scene ends := by
  simp only [argScript, Script.Safe]
  refine walks fun later le scene' env arg fine last le' resultFine => ?_
  have argFine := fine_type (fine.mono le')
  refine ⟨discipline.fine_mono (le_trans le le') functionFine, discipline.fine_function argFine resultFine,
    fun latest le'' issued => ?_⟩
  exact finish latest (le_trans le (le_trans le' le'')) { scene' with issued } env arg _
    (fine.mono (le_trans le' le'')) (discipline.fine_mono le'' resultFine)

/-- A function is safe, and at the end its scope has been left. -/
theorem functionScript_safe (limit : Nat) (params : List (Pattern Span)) (walks : Walks discipline inner)
    {ends : discipline.World → Scene → List (Pattern Typed) × Expr Typed → Prop}
    (finish : ∀ later ≥ world, ∀ scene' : Scene, scene'.env = scene.env →
      ∀ (params : List (Pattern Typed)) (body : Expr Typed), discipline.FineInfos later (Pattern.infosOf params) →
      discipline.FineInfos later body.infos → ends later scene' (params, body)) :
    (functionScript limit params inner).Safe discipline world scene ends := by
  simp only [functionScript, Script.Safe]
  refine paramsScript_safe limit params fun later le scene' outer params paramsFine => ?_
  refine walks fun last le' scene'' env body bodyFine => ?_
  exact finish last (le_trans le le') _ (Environment.exit_of_outer (by rw [env, outer])) params body
    (paramsFine.mono le') bodyFine

/-- The type of a function with fine parameters and a fine body is fine. -/
theorem fine_functionType {params : List (Pattern Typed)} {body : Expr Typed}
    (paramsFine : discipline.FineInfos world (Pattern.infosOf params))
    (bodyFine : discipline.FineInfos world body.infos) : discipline.Fine world (functionType params body) := by
  induction params with
  | nil => exact fine_type bodyFine
  | cons param rest ih =>
    have paramFine : discipline.FineInfos world param.infos := fun info member =>
      paramsFine info (List.mem_append_left _ member)
    exact discipline.fine_function (Pattern.fine_type paramFine)
      (ih fun info member => paramsFine info (List.mem_append_right _ member))

theorem fine_fieldTypes {fields : List (Field Typed)} (fine : discipline.FineInfos world (fieldInfos fields)) :
    (fieldTypes fields).Sorted ∧ (fieldTypes fields).All (discipline.Fine world) := by
  have each : ∀ name value, Field.mk name value ∈ fields → discipline.Fine world value.type := by
    induction fields with
    | nil => simp
    | cons field rest ih =>
      obtain ⟨name, value⟩ := field
      rintro other otherValue (_ | ⟨_, inRest⟩)
      · exact fine_type fun info member => fine info (List.mem_append_left _ member)
      · exact ih (fun info member => fine info (List.mem_append_right _ member)) other otherValue inRest
  refine ⟨Row.ofList_sorted _, fun entry member => ?_⟩
  obtain ⟨⟨name, value⟩, inFields, rfl⟩ := List.mem_map.mp (Row.mem_toList_ofList member)
  exact each name value inFields

/-- A local function is safe. Its name is declared in the current scope. -/
theorem localScript_safe (limit : Nat) (seen : List String) (name : String) (place : Span)
    (params : List (Pattern Span)) (walks : Walks discipline inner)
    {ends : discipline.World → Scene → Binding Typed → Prop}
    (finish : ∀ later ≥ world, ∀ scene' : Scene, scene'.env.outer = scene.env.outer →
      ∀ (params : List (Pattern Typed)) (body : Expr Typed), discipline.FineInfos later (Pattern.infosOf params) →
      discipline.FineInfos later body.infos → ends later scene' (.function name params body)) :
    (localScript limit seen name place params inner).Safe discipline world scene ends := by
  simp only [localScript, Script.Safe]
  refine ⟨fun _ => trivial, fun _ later le selfFine => ⟨discipline.fine_mono_scheme selfFine, ?_⟩⟩
  refine functionScript_safe limit params walks fun last le' scene' env params body paramsFine bodyFine => ?_
  refine ⟨discipline.fine_mono le' selfFine, fine_functionType paramsFine bodyFine, fun latest le'' issued => ?_⟩
  have outer : scene'.env.outer = scene.env.outer := by rw [env]; rfl
  exact finish latest (le_trans le (le_trans le' le'')) { scene' with issued } outer params body
    (paramsFine.mono le'') (bodyFine.mono le'')

/-- A branch is safe if the types of the subject and of the result are fine. -/
theorem branchScript_safe (limit : Nat) {subject result : Ty} (pattern : Pattern Span) (walks : Walks discipline inner)
    (subjectFine : discipline.Fine world subject) (resultFine : discipline.Fine world result)
    {ends : discipline.World → Scene → Branch Typed → Prop}
    (finish : ∀ later ≥ world, ∀ scene' : Scene, scene'.env = scene.env →
      ∀ (pattern : Pattern Typed) (body : Expr Typed), discipline.FineInfos later pattern.infos →
      discipline.FineInfos later body.infos → ends later scene' (.mk pattern body)) :
    (branchScript limit subject result pattern inner).Safe discipline world scene ends := by
  simp only [branchScript, Script.Safe]
  refine Pattern.script_safe limit pattern .nil fun world₁ le₁ scene₁ env₁ namesFine pattern fine => ?_
  refine ⟨discipline.fine_mono le₁ subjectFine, Pattern.fine_type fine, fun world₂ le₂ issued => ?_⟩
  refine declareAllScript_safe _ (namesFine.mono le₂)
    fun env₂ outer => ?_
  refine walks fun world₃ le₃ scene₃ env₃ body bodyFine => ?_
  refine ⟨discipline.fine_mono (le_trans le₁ (le_trans le₂ le₃)) resultFine, fine_type bodyFine,
    fun world₄ le₄ issued' => ?_⟩
  have restored : scene₃.env.exit = scene.env := Environment.exit_of_outer (by rw [env₃, outer, env₁])
  exact finish world₄ (le_trans le₁ (le_trans le₂ (le_trans le₃ le₄))) ⟨scene₃.env.exit, scene₃.bound, issued'⟩
    restored pattern body (fine.mono (le_trans le₂ (le_trans le₃ le₄))) (bodyFine.mono le₄)

/-! ## Expressions -/

mutual

/-- Inference of expressions is safe. -/
theorem script_walks (limit : Nat) (expr : Expr Span) : Walks discipline (expr.script limit) := by
  intro world scene ends finish
  -- Every node ends alike: its parts are fine, and so is its own type.
  have node : ∀ {later} {scene' : Scene} {typed : Expr Typed} {children : List Typed}, later ≥ world →
      scene'.env = scene.env → typed.infos = children ++ [typed.info] → typed.info.scheme.binders = [] →
      discipline.FineInfos later children → discipline.Fine later typed.type →
      discipline.Fine later typed.type ∧ ends later scene' typed :=
    fun le env split plain childrenFine fine => ⟨fine, finish _ le _ env _ (childrenFine.node split plain fine)⟩
  match expr with
  | .unit span =>
    simp only [script, Script.Safe]
    exact node (le_refl world) rfl rfl rfl .nil (discipline.fine_atom world rfl)
  | .integer span value =>
    simp only [script, Script.Safe]
    exact fun later le fine => node le rfl rfl rfl .nil fine
  | .hex span value =>
    simp only [script, Script.Safe]
    exact fun later le fine => node le rfl rfl rfl .nil fine
  | .float span value =>
    simp only [script, Script.Safe]
    exact node (le_refl world) rfl rfl rfl .nil (discipline.fine_atom world rfl)
  | .string span value =>
    simp only [script, Script.Safe]
    exact node (le_refl world) rfl rfl rfl .nil (discipline.fine_atom world rfl)
  | .char span value =>
    simp only [script, Script.Safe]
    exact node (le_refl world) rfl rfl rfl .nil (discipline.fine_atom world rfl)
  | .var span name =>
    simp only [script, Script.Safe]
    exact fun later le issued type fine => node le rfl rfl rfl .nil fine
  | .tuple span first second =>
    simp only [script, Script.Safe]
    refine script_walks limit first fun later le scene' env first fine => ?_
    refine script_walks limit second fun last le' scene'' env' second fine' => ?_
    have firstFine := fine.mono le'
    exact node (le_trans le le') (env'.trans env) (List.append_assoc ..).symm rfl (firstFine.append fine')
      (discipline.fine_tuple (fine_type firstFine) (fine_type fine'))
  | .triple span first second third =>
    simp only [script, Script.Safe]
    refine script_walks limit first fun world₁ le₁ scene₁ env₁ first fine₁ => ?_
    refine script_walks limit second fun world₂ le₂ scene₂ env₂ second fine₂ => ?_
    refine script_walks limit third fun world₃ le₃ scene₃ env₃ third fine₃ => ?_
    have firstFine := fine₁.mono (le_trans le₂ le₃)
    have secondFine := fine₂.mono le₃
    refine node (le_trans le₁ (le_trans le₂ le₃)) (env₃.trans (env₂.trans env₁)) ?_ rfl
      (firstFine.append (secondFine.append fine₃))
      (discipline.fine_triple (fine_type firstFine) (fine_type secondFine) (fine_type fine₃))
    simp only [infos, info, List.append_assoc]
  | .list span items =>
    simp only [script, Script.Safe]
    intro later le element
    refine itemsScript_safe limit _ items element fun last le' scene' env items fine => ?_
    exact node (le_trans le le') env rfl rfl fine (discipline.fine_list (discipline.fine_mono le' element))
  | .lambda span params body =>
    simp only [script, Script.Safe]
    refine functionScript_safe limit params (script_walks limit body)
      fun later le scene' env params body paramsFine bodyFine => ?_
    exact node le env (List.append_assoc ..).symm rfl (paramsFine.append bodyFine)
      (fine_functionType paramsFine bodyFine)
  | .record span fields =>
    simp only [script, Script.Safe]
    refine fieldsScript_safe limit fields fun later le scene' env fields fine => ?_
    exact node le env rfl rfl fine (discipline.fine_record (fine_fieldTypes fine).1 (fine_fieldTypes fine).2)
  | .accessor span field =>
    simp only [script, Script.Safe]
    refine ⟨Row.ofList_canonical (by simp [Ty.Canonical]), Row.ofList_flat (by simp [Ty.Flat]),
      fun later le base last le' fine => ?_⟩
    have row := base last le' fun entry member => by
      obtain rfl := List.mem_singleton.mp (Row.mem_toList_ofList member)
      exact fine
    exact node (le_trans le le') rfl rfl rfl .nil (discipline.fine_function row fine)
  | .access span subject field =>
    simp only [script, Script.Safe]
    refine script_walks limit subject fun world₁ le₁ scene₁ env subject subjectFine => ?_
    refine ⟨Row.ofList_canonical (by simp [Ty.Canonical]), Row.ofList_flat (by simp [Ty.Flat]),
      fun world₂ le₂ base world₃ le₃ fine => ?_⟩
    have row := base world₃ le₃ fun entry member => by
      obtain rfl := List.mem_singleton.mp (Row.mem_toList_ofList member)
      exact fine
    refine ⟨row, fine_type (subjectFine.mono (le_trans le₂ le₃)), fun world₄ le₄ issued => ?_⟩
    exact node (le_trans le₁ (le_trans le₂ (le_trans le₃ le₄))) env rfl rfl
      (subjectFine.mono (le_trans le₂ (le_trans le₃ le₄))) (discipline.fine_mono le₄ fine)
  | .update span name updates =>
    simp only [script, Script.Safe]
    intro world₁ le₁ issued type typeFine
    refine fieldsScript_safe limit updates fun world₂ le₂ scene₂ env updates fine => ?_
    obtain ⟨sorted, fieldsFine⟩ := fine_fieldTypes fine
    refine ⟨Row.canonical_iff.mpr ⟨sorted, fun entry member => (discipline.proper (fieldsFine entry member)).1⟩,
      Row.flat_iff.mpr fun entry member => (discipline.proper (fieldsFine entry member)).2,
      fun world₃ le₃ base => ?_⟩
    have row := base world₃ (le_refl world₃) fun entry member => discipline.fine_mono le₃ (fieldsFine entry member)
    refine ⟨row, discipline.fine_mono (le_trans le₂ le₃) typeFine, fun world₄ le₄ issued' => ?_⟩
    exact node (le_trans le₁ (le_trans le₂ (le_trans le₃ le₄))) env rfl rfl (fine.mono (le_trans le₃ le₄))
      (discipline.fine_mono (le_trans le₂ (le_trans le₃ le₄)) typeFine)
  | .parenthesized span inner =>
    simp only [script, Script.Safe]
    refine script_walks limit inner fun later le scene' env inner fine => ?_
    have innerFine := fine_type fine
    exact node le env rfl rfl fine innerFine
  | .application span function args =>
    simp only [script, Script.Safe]
    refine script_walks limit function fun later le scene' env function fine => ?_
    refine argsScript_safe limit args (fine_type fine) fun last le' scene'' env' args type argsFine typeFine => ?_
    exact node (le_trans le le') (env'.trans env) (List.append_assoc ..).symm rfl
      ((fine.mono le').append argsFine) typeFine
  | .operation span op left right =>
    simp only [script, Script.Safe]
    intro world₁ le₁ issued type typeFine
    refine argScript_safe (script_walks limit left) typeFine
      fun world₂ le₂ scene₂ env left type leftFine typeFine => ?_
    refine argScript_safe (script_walks limit right) typeFine
      fun world₃ le₃ scene₃ env' right type rightFine typeFine => ?_
    exact node (le_trans le₁ (le_trans le₂ le₃)) (env'.trans env) (List.append_assoc ..).symm rfl
      ((leftFine.mono le₃).append rightFine) typeFine
  | .operator span op =>
    simp only [script, Script.Safe]
    exact fun later le issued type fine => node le rfl rfl rfl .nil fine
  | .negate span inner =>
    simp only [script, Script.Safe]
    refine script_walks limit inner fun later le scene' env inner innerFine last le' fine => ?_
    refine ⟨fine, fine_type (innerFine.mono le'), fun latest le'' issued => ?_⟩
    exact node (le_trans le (le_trans le' le'')) env rfl rfl (innerFine.mono (le_trans le' le''))
      (discipline.fine_mono le'' fine)
  | .conditional span condition thenBranch elseBranch =>
    simp only [script, Script.Safe]
    refine script_walks limit condition fun world₁ le₁ scene₁ env₁ condition conditionFine => ?_
    refine ⟨discipline.fine_atom world₁ rfl, fine_type conditionFine, fun world₂ le₂ issued => ?_⟩
    refine script_walks limit thenBranch fun world₃ le₃ scene₃ env₃ thenBranch thenFine => ?_
    refine script_walks limit elseBranch fun world₄ le₄ scene₄ env₄ elseBranch elseFine => ?_
    have thenType := fine_type (thenFine.mono le₄)
    refine ⟨thenType, fine_type elseFine, fun world₅ le₅ issued' => ?_⟩
    have conditionLast := conditionFine.mono (le_trans le₂ (le_trans le₃ (le_trans le₄ le₅)))
    refine node (le_trans le₁ (le_trans le₂ (le_trans le₃ (le_trans le₄ le₅)))) (env₄.trans (env₃.trans env₁)) ?_ rfl
      (conditionLast.append ((thenFine.mono (le_trans le₄ le₅)).append (elseFine.mono le₅)))
      (discipline.fine_mono le₅ thenType)
    simp only [infos, info, List.append_assoc]
  | .letIn span bindings body =>
    simp only [script, Script.Safe]
    refine bindingsScript_safe limit [] bindings fun later le scene' outer bindings fine => ?_
    refine script_walks limit body fun last le' scene'' env body bodyFine => ?_
    have typeFine := fine_type bodyFine
    exact node (le_trans le le') (Environment.exit_of_outer (by rw [env, outer])) (List.append_assoc ..).symm rfl
      ((fine.mono le').append bodyFine) typeFine
  | .caseOf span subject branches =>
    simp only [script, Script.Safe]
    refine script_walks limit subject fun world₁ le₁ scene₁ env subject subjectFine world₂ le₂ resultFine => ?_
    refine branchesScript_safe limit branches (fine_type (subjectFine.mono le₂)) resultFine
      fun world₃ le₃ scene₃ env' branches fine => ?_
    exact node (le_trans le₁ (le_trans le₂ le₃)) (env'.trans env) (List.append_assoc ..).symm rfl
      ((subjectFine.mono (le_trans le₂ le₃)).append fine) (discipline.fine_mono le₃ resultFine)
  | .glsl span source =>
    simp only [script, Script.Safe]

/-- Arguments are safe one after the other: each leaves the type of the rest of the function. -/
theorem argsScript_safe (limit : Nat) (args : List (Expr Span)) {function : Ty} {world : discipline.World}
    {scene : Scene} {ends : discipline.World → Scene → List (Expr Typed) × Ty → Prop}
    (functionFine : discipline.Fine world function)
    (finish : ∀ later ≥ world, ∀ scene' : Scene, scene'.env = scene.env → ∀ (typed : List (Expr Typed)) (type : Ty),
      discipline.FineInfos later (itemInfos typed) → discipline.Fine later type → ends later scene' (typed, type)) :
    (argsScript limit function args).Safe discipline world scene ends := by
  match args with
  | [] =>
    simp only [argsScript, Script.Safe]
    exact finish world (le_refl world) scene rfl [] function .nil functionFine
  | arg :: rest =>
    simp only [argsScript, Script.Safe]
    refine argScript_safe (script_walks limit arg) functionFine fun later le scene' env arg result fine resultFine => ?_
    refine argsScript_safe limit rest resultFine fun last le' scene'' env' rest type restFine typeFine => ?_
    exact finish last (le_trans le le') scene'' (env'.trans env) _ type ((fine.mono le').append restFine) typeFine

theorem itemsScript_safe (limit : Nat) (element : Ty) (items : List (Expr Span)) {world : discipline.World}
    {scene : Scene} {ends : discipline.World → Scene → List (Expr Typed) → Prop}
    (elementFine : discipline.Fine world element)
    (finish : ∀ later ≥ world, ∀ scene' : Scene, scene'.env = scene.env → ∀ typed : List (Expr Typed),
      discipline.FineInfos later (itemInfos typed) → ends later scene' typed) :
    (itemsScript limit element items).Safe discipline world scene ends := by
  match items with
  | [] =>
    simp only [itemsScript, Script.Safe]
    exact finish world (le_refl world) scene rfl [] .nil
  | item :: rest =>
    simp only [itemsScript, Script.Safe]
    refine script_walks limit item fun later le scene' env item fine => ?_
    refine ⟨discipline.fine_mono le elementFine, fine_type fine, fun last le' issued => ?_⟩
    refine itemsScript_safe limit element rest (discipline.fine_mono (le_trans le le') elementFine)
      fun latest le'' scene'' env' rest fine' => ?_
    exact finish latest (le_trans le (le_trans le' le'')) scene'' (env'.trans env) _
      ((fine.mono (le_trans le' le'')).append fine')

theorem fieldsScript_safe (limit : Nat) (fields : List (Field Span)) {world : discipline.World}
    {scene : Scene} {ends : discipline.World → Scene → List (Field Typed) → Prop}
    (finish : ∀ later ≥ world, ∀ scene' : Scene, scene'.env = scene.env → ∀ typed : List (Field Typed),
      discipline.FineInfos later (fieldInfos typed) → ends later scene' typed) :
    (fieldsScript limit fields).Safe discipline world scene ends := by
  match fields with
  | [] =>
    simp only [fieldsScript, Script.Safe]
    exact finish world (le_refl world) scene rfl [] .nil
  | .mk name value :: rest =>
    simp only [fieldsScript, Script.Safe]
    refine script_walks limit value fun later le scene' env value fine => ?_
    refine fieldsScript_safe limit rest fun last le' scene'' env' rest fine' => ?_
    exact finish last (le_trans le le') scene'' (env'.trans env) _ ((fine.mono le').append fine')

theorem branchesScript_safe (limit : Nat) (branches : List (Branch Span)) {subject result : Ty}
    {world : discipline.World} {scene : Scene} {ends : discipline.World → Scene → List (Branch Typed) → Prop}
    (subjectFine : discipline.Fine world subject) (resultFine : discipline.Fine world result)
    (finish : ∀ later ≥ world, ∀ scene' : Scene, scene'.env = scene.env → ∀ typed : List (Branch Typed),
      discipline.FineInfos later (branchInfos typed) → ends later scene' typed) :
    (branchesScript limit subject result branches).Safe discipline world scene ends := by
  match branches with
  | [] =>
    simp only [branchesScript, Script.Safe]
    exact finish world (le_refl world) scene rfl [] .nil
  | .mk pattern body :: rest =>
    simp only [branchesScript, Script.Safe]
    refine branchScript_safe limit pattern (script_walks limit body) subjectFine resultFine
      fun later le scene' env pattern body patternFine bodyFine => ?_
    refine branchesScript_safe limit rest (discipline.fine_mono le subjectFine) (discipline.fine_mono le resultFine)
      fun last le' scene'' env' rest fine => ?_
    exact finish last (le_trans le le') scene'' (env'.trans env) _
      ((patternFine.mono le').append ((bodyFine.mono le').append fine))

/-- The bindings of a let block are safe, in the current scope. -/
theorem bindingsScript_safe (limit : Nat) (seen : List String) (bindings : List (Binding Span))
    {world : discipline.World} {scene : Scene} {ends : discipline.World → Scene → List (Binding Typed) → Prop}
    (finish : ∀ later ≥ world, ∀ scene' : Scene, scene'.env.outer = scene.env.outer → ∀ typed : List (Binding Typed),
      discipline.FineInfos later (bindingInfos typed) → ends later scene' typed) :
    (bindingsScript limit seen bindings).Safe discipline world scene ends := by
  match bindings with
  | [] =>
    simp only [bindingsScript, Script.Safe]
    exact finish world (le_refl world) scene rfl [] .nil
  | .function name params body :: rest =>
    simp only [bindingsScript, Script.Safe]
    refine localScript_safe limit seen name body.info params (script_walks limit body)
      fun later le scene' outer params body paramsFine bodyFine => ?_
    refine bindingsScript_safe limit _ rest fun last le' scene'' outer' rest fine => ?_
    exact finish last (le_trans le le') scene'' (outer'.trans outer) _
      ((paramsFine.mono le').append ((bodyFine.mono le').append fine))
  | .destructuring pattern body :: rest =>
    simp only [bindingsScript, Script.Safe]
    refine script_walks limit body fun world₁ le₁ scene₁ env₁ body bodyFine => ?_
    refine Pattern.script_safe limit pattern .nil fun world₂ le₂ scene₂ env₂ namesFine pattern patternFine => ?_
    refine ⟨Pattern.fine_type patternFine, fine_type (bodyFine.mono le₂), fun world₃ le₃ issued => ?_⟩
    refine takeNamesScript_safe _ _ _ fun seen => ?_
    refine declareAllScript_safe _ (namesFine.mono le₃)
      fun env outer => ?_
    refine bindingsScript_safe limit seen rest fun world₄ le₄ scene₄ outer₄ rest fine => ?_
    have outerAll : scene₄.env.outer = scene.env.outer := by rw [outer₄, outer, env₂, env₁]
    exact finish world₄ (le_trans le₁ (le_trans le₂ (le_trans le₃ le₄))) scene₄ outerAll _
      ((patternFine.mono (le_trans le₃ le₄)).append
        ((bodyFine.mono (le_trans le₂ (le_trans le₃ le₄))).append fine))

end

end Expr

end RowInference
