import RowInference.Proofs.Modules.Order

/-! # The walk with marks

The dependency order is found by a walk that marks the modules: those whose imports are being visited, and those that
are done. The modules being visited are also on a path, and a module that is done is also in the order, so the marks
say no more than membership in these two lists, which is what `visit` looks at. In particular a module that is met
while it is being visited does stand on the path, so that the cycle is cut out of it at that place.
-/

namespace RowInference.ModuleMap

variable {ι : Type} {modules : ModuleMap ι} {key : String} {module : Module ι}

inductive Mark where
  | visiting
  | done
deriving DecidableEq

/-- What a walk has come to: the marks, the modules whose imports are being visited, and the modules that are done. -/
structure Walk where
  marks : String → Option Mark := fun _ => none
  path : List String := []
  order : List String := []

namespace Walk

def mark (walk : Walk) (key : String) (mark : Mark) : Walk :=
  { walk with marks := fun other => if other = key then some mark else walk.marks other }

def enter (walk : Walk) (key : String) : Walk :=
  { walk.mark key .visiting with path := walk.path ++ [key] }

def leave (walk : Walk) (key : String) : Walk :=
  { walk.mark key .done with path := walk.path.dropLast, order := walk.order ++ [key] }

/-- The path from where the module stands on it, or from its start if the module is not there, and the module again. -/
def cycle (walk : Walk) (key : String) : List String :=
  walk.path.drop ((walk.path.findIdx? fun other => other == key).getD 0) ++ [key]

end Walk

mutual

/-- A visit to a module looks at its mark first. -/
inductive Visits (modules : ModuleMap ι) : Walk → String → Except InputError Walk → Prop where
  | done {walk : Walk} {key : String} (marked : walk.marks key = some .done) : Visits modules walk key (.ok walk)
  | cycle {walk : Walk} {key : String} (marked : walk.marks key = some .visiting) :
      Visits modules walk key (.error (.importCycle (walk.cycle key)))
  | missing {walk : Walk} {key : String} (unmarked : walk.marks key = none) (missing : modules.get? key = none) :
      Visits modules walk key (.ok walk)
  | refused {walk : Walk} {key : String} {module : Module ι} {error : InputError} (unmarked : walk.marks key = none)
      (found : modules.get? key = some module)
      (imports : VisitsImports modules (walk.enter key) key module.imports (.error error)) :
      Visits modules walk key (.error error)
  | left {walk later : Walk} {key : String} {module : Module ι} (unmarked : walk.marks key = none)
      (found : modules.get? key = some module)
      (imports : VisitsImports modules (walk.enter key) key module.imports (.ok later)) :
      Visits modules walk key (.ok (later.leave key))

/-- The imports of a module are visited in order, if they are there. -/
inductive VisitsImports (modules : ModuleMap ι) : Walk → String → List Import → Except InputError Walk → Prop where
  | nil {walk : Walk} {key : String} : VisitsImports modules walk key [] (.ok walk)
  | unknown {walk : Walk} {key : String} {entry : Import} {rest : List Import}
      (missing : ¬modules.contains entry.target = true) :
      VisitsImports modules walk key (entry :: rest) (.error (.unknownImport key entry.target))
  | refused {walk : Walk} {key : String} {entry : Import} {rest : List Import} {error : InputError}
      (present : modules.contains entry.target = true) (visit : Visits modules walk entry.target (.error error)) :
      VisitsImports modules walk key (entry :: rest) (.error error)
  | next {walk later : Walk} {key : String} {entry : Import} {rest : List Import} {result : Except InputError Walk}
      (present : modules.contains entry.target = true) (visit : Visits modules walk entry.target (.ok later))
      (others : VisitsImports modules later key rest result) : VisitsImports modules walk key (entry :: rest) result

end

/-- Modules are visited from first to last; the order is what the last visit leaves. -/
inductive VisitsAll (modules : ModuleMap ι) : Walk → List String → Except InputError (List String) → Prop where
  | nil {walk : Walk} : VisitsAll modules walk [] (.ok walk.order)
  | refused {walk : Walk} {key : String} {rest : List String} {error : InputError}
      (visit : Visits modules walk key (.error error)) : VisitsAll modules walk (key :: rest) (.error error)
  | next {walk later : Walk} {key : String} {rest : List String} {result : Except InputError (List String)}
      (visit : Visits modules walk key (.ok later)) (others : VisitsAll modules later rest result) :
      VisitsAll modules walk (key :: rest) result

/-! ## What the marks say -/

/-- The modules marked as being visited are those on the path, and the modules marked as done are those in the order. -/
structure Walk.Consistent (walk : Walk) : Prop where
  visiting : ∀ key, walk.marks key = some .visiting ↔ key ∈ walk.path
  done : ∀ key, walk.marks key = some .done ↔ key ∈ walk.order

namespace Walk

variable {walk later : Walk}

theorem consistent_start : Walk.Consistent {} := ⟨by simp, by simp⟩

/-- A module without a mark is neither on the path nor done. -/
theorem Consistent.unmarked_iff (consistent : walk.Consistent) :
    walk.marks key = none ↔ key ∉ walk.path ∧ key ∉ walk.order := by
  rw [← consistent.visiting, ← consistent.done]
  rcases walk.marks key with _ | _ | _ <;> simp

/-- Marking a module as being visited, and putting it on the path, keeps the marks right. -/
theorem Consistent.enter (consistent : walk.Consistent) (unmarked : walk.marks key = none) :
    (walk.enter key).Consistent := by
  obtain ⟨_, new⟩ := consistent.unmarked_iff.mp unmarked
  constructor <;> intro other
  · by_cases same : other = key
    · simp [Walk.enter, mark, same]
    · simpa [Walk.enter, mark, same] using consistent.visiting other
  · by_cases same : other = key
    · simpa [Walk.enter, mark, same] using new
    · simpa [Walk.enter, mark, same] using consistent.done other

/-- A module is left at the end of the path, where it was entered. -/
theorem Consistent.leave {path : List String} (consistent : walk.Consistent) (isPath : walk.path = path ++ [key])
    (new : key ∉ path) : (walk.leave key).Consistent := by
  constructor <;> intro other
  · by_cases same : other = key
    · simpa [Walk.leave, mark, same, isPath] using new
    · simpa [Walk.leave, mark, same, isPath] using consistent.visiting other
  · by_cases same : other = key
    · simp [Walk.leave, mark, same]
    · simpa [Walk.leave, mark, same] using consistent.done other

/-- A module on the path is found there. -/
theorem cycle_of_mem (onPath : key ∈ walk.path) :
    walk.cycle key = walk.path.dropWhile (fun other => other != key) ++ [key] := by
  have found : (walk.path.findIdx? fun other => other == key) = some (walk.path.findIdx fun other => other == key) :=
    List.findIdx?_eq_some_of_exists ⟨key, onPath, beq_self_eq_true key⟩
  have sameTest : (fun other => !(other != key)) = fun other => other == key := by
    funext other
    simp [bne]
  rw [cycle, found, Option.getD_some, List.dropWhile_eq_drop_findIdx_not, sameTest]

end Walk

/-! ## The two walks agree -/

/-- What a walk with marks comes to, next to what comes of path and order. The path is as it was before. -/
def Agrees (walk : Walk) : Except InputError Walk → Except InputError (List String) → Prop
  | .ok later, outcome => later.Consistent ∧ later.path = walk.path ∧ outcome = .ok later.order
  | .error error, outcome => outcome = .error error

mutual

theorem Visits.agrees {walk : Walk} {key : String} {result : Except InputError Walk}
    (visits : Visits modules walk key result) (consistent : walk.Consistent) :
    Agrees walk result (modules.visit walk.path walk.order key) :=
  match visits with
  | .done marked => by
    rw [visit, if_pos (List.contains_iff_mem.mpr ((consistent.done key).mp marked))]
    exact ⟨consistent, rfl, rfl⟩
  | .cycle marked => by
    have onPath := (consistent.visiting key).mp marked
    have new : key ∉ walk.order := by
      rw [← consistent.done, marked]
      simp
    rw [visit, if_neg (by simpa using new), dif_pos (List.contains_iff_mem.mpr onPath), Walk.cycle_of_mem onPath]
    rfl
  | .missing unmarked missing => by
    obtain ⟨offPath, new⟩ := consistent.unmarked_iff.mp unmarked
    rw [visit, if_neg (by simpa using new), dif_neg (by simpa using offPath)]
    split
    · exact ⟨consistent, rfl, rfl⟩
    · next found =>
      rw [missing] at found
      cases found
  | .refused unmarked found imports => by
    obtain ⟨offPath, new⟩ := consistent.unmarked_iff.mp unmarked
    have refused : modules.visitImports (walk.path ++ [key]) walk.order key _ = .error _ :=
      imports.agrees (consistent.enter unmarked)
    rw [visit_of_get? (by simpa using new) (by simpa using offPath) found, refused]
    rfl
  | .left unmarked found imports => by
    obtain ⟨offPath, new⟩ := consistent.unmarked_iff.mp unmarked
    obtain ⟨consistent', path, visited⟩ := imports.agrees (consistent.enter unmarked)
    have visited : modules.visitImports (walk.path ++ [key]) walk.order key _ = .ok _ := visited
    rw [visit_of_get? (by simpa using new) (by simpa using offPath) found, visited]
    refine ⟨consistent'.leave path offPath, ?_, rfl⟩
    rw [Walk.leave, path]
    exact List.dropLast_concat

/-- The imports of a module are visited alike. -/
theorem VisitsImports.agrees {walk : Walk} {key : String} {imports : List Import} {result : Except InputError Walk}
    (visits : VisitsImports modules walk key imports result) (consistent : walk.Consistent) :
    Agrees walk result (modules.visitImports walk.path walk.order key imports) :=
  match visits with
  | .nil => by
    rw [visitImports]
    exact ⟨consistent, rfl, rfl⟩
  | .unknown missing => by
    rw [visitImports, if_neg missing]
    rfl
  | .refused present visit => by
    have refused : modules.visit walk.path walk.order _ = .error _ := visit.agrees consistent
    rw [visitImports, if_pos present, refused]
    rfl
  | .next present visit others => by
    obtain ⟨consistent', path, visited⟩ := visit.agrees consistent
    have later := others.agrees consistent'
    rw [visitImports, if_pos present, visited]
    rw [path] at later
    cases result with
    | error error => exact later
    | ok last => exact ⟨later.1, later.2.1.trans path, later.2.2⟩

end

/-- A walk whose marks are consistent can go on. -/
theorem exists_visits (modules : ModuleMap ι) :
    (∀ path order key, ∀ walk : Walk, walk.Consistent → walk.path = path → walk.order = order →
      ∃ result, Visits modules walk key result) ∧
    (∀ path order key imports, ∀ walk : Walk, walk.Consistent → walk.path = path → walk.order = order →
      ∃ result, VisitsImports modules walk key imports result) := by
  -- The two functions end, so the induction is on their runs; the walk is carried along beside path and order.
  have unmarked : ∀ {walk : Walk} {key : String}, walk.Consistent → ¬walk.order.contains key = true →
      ¬walk.path.contains key = true → walk.marks key = none := by
    intro walk key consistent new offPath
    exact consistent.unmarked_iff.mpr ⟨by simpa using offPath, by simpa using new⟩
  apply visit_induction modules
  case known =>
    rintro _ _ key known walk consistent rfl rfl
    exact ⟨_, .done ((consistent.done key).mpr (List.contains_iff_mem.mp known))⟩
  case cycle =>
    rintro _ _ key _ cycle walk consistent rfl rfl
    exact ⟨_, .cycle ((consistent.visiting key).mpr (List.contains_iff_mem.mp cycle))⟩
  case missing =>
    rintro _ _ key new offPath missing walk consistent rfl rfl
    exact ⟨_, .missing (unmarked consistent new offPath) missing⟩
  case enter =>
    rintro _ _ key module new offPath found ih walk consistent rfl rfl
    have isNew := unmarked consistent new offPath
    obtain ⟨_ | later, imports⟩ := ih (walk.enter key) (consistent.enter isNew) rfl rfl
    · exact ⟨_, .refused isNew found imports⟩
    · exact ⟨_, .left isNew found imports⟩
  case nil =>
    rintro _ _ key walk _ _ _
    exact ⟨_, .nil⟩
  case unknown =>
    rintro _ _ key entry rest missing walk _ _ _
    exact ⟨_, .unknown missing⟩
  case next =>
    rintro _ _ key entry rest present ih ih' walk consistent rfl rfl
    obtain ⟨result, visits⟩ := ih walk consistent rfl rfl
    cases result with
    | error error => exact ⟨_, .refused present visits⟩
    | ok later =>
      obtain ⟨consistent', path, visited⟩ := visits.agrees consistent
      obtain ⟨result, others⟩ := ih' later.order visited later consistent' path rfl
      exact ⟨result, .next present visits others⟩

/-- A walk with marks over all modules finds what the walk by path and order finds. -/
theorem VisitsAll.visitAll_eq {walk : Walk} {keys : List String} {result : Except InputError (List String)}
    (visits : VisitsAll modules walk keys result) (consistent : walk.Consistent) (path : walk.path = []) :
    modules.visitAll walk.order keys = result := by
  induction visits with
  | nil => rw [visitAll]
  | refused visit =>
    have refused := visit.agrees consistent
    rw [path] at refused
    rw [visitAll, show modules.visit [] _ _ = .error _ from refused]
  | next visit _ ih =>
    obtain ⟨consistent', path', visited⟩ := visit.agrees consistent
    rw [path] at path' visited
    rw [visitAll, visited]
    exact ih consistent' path'

/-- A walk with marks always comes to an end. -/
theorem exists_visitsAll (modules : ModuleMap ι) (keys : List String) {walk : Walk} (consistent : walk.Consistent) :
    ∃ result, VisitsAll modules walk keys result := by
  induction keys generalizing walk with
  | nil => exact ⟨_, .nil⟩
  | cons key rest ih =>
    obtain ⟨result, visits⟩ := (exists_visits modules).1 _ _ key walk consistent rfl rfl
    cases result with
    | error error => exact ⟨_, .refused visits⟩
    | ok later =>
      obtain ⟨result, others⟩ := ih (visits.agrees consistent).1
      exact ⟨result, .next visits others⟩

/-- The walk with marks comes to the dependency order, and to nothing else. -/
theorem visitsAll_iff {result : Except InputError (List String)} :
    VisitsAll modules {} modules.keys result ↔ modules.dependencyOrder = result := by
  have eq : ∀ {result}, VisitsAll modules {} modules.keys result → modules.dependencyOrder = result :=
    fun visits => visits.visitAll_eq Walk.consistent_start rfl
  constructor
  · exact eq
  · intro same
    obtain ⟨result', visits⟩ := exists_visitsAll modules modules.keys Walk.consistent_start
    rwa [← same, eq visits]

end RowInference.ModuleMap
