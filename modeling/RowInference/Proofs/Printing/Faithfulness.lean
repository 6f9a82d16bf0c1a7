import RowInference.Proofs.Printing.Reader

/-! # Printed types determine the types

Read back, a printed type is the type with the names of its variables as identities. Different variables have different
names, so lists of types that are printed alike differ in the choice of variables only.
-/

namespace RowInference

/-- The names of the variables as identities. -/
def Names.label (names : Names) (id : VarId) : VarId := .named (names.name id)

mutual

/-- The names of fields are words, and every open record has fields. -/
def Ty.Legible : Ty → Prop
  | .tuple first second => first.Legible ∧ second.Legible
  | .triple first second third => first.Legible ∧ second.Legible ∧ third.Legible
  | .list element => element.Legible
  | .function source target => source.Legible ∧ target.Legible
  | .record fields => fields.Legible
  | .extension base fields => fields ≠ .empty ∧ base.Legible ∧ fields.Legible
  | _ => True

/-- The names of fields are words, and every open record in their types has fields. -/
def Row.Legible : Row → Prop
  | .empty => True
  | .field name type rest => IsWord name.toList ∧ type.Legible ∧ rest.Legible

end

variable {names : Names}

/-- A name is read as the variable that it names. -/
theorem IsName.ofWord {name : String} {constraint : Option Constraint} (isName : IsName name.toList constraint) :
    Reader.ofWord name.toList = .var ⟨.named name, constraint⟩ := by
  obtain ⟨char, rest, shape, lower⟩ := isName.begins
  have upper : ∀ entry ∈ Reader.atoms, entry.1.head?.any Char.isLower = false := by decide
  have unknown : Reader.atoms.lookup name.toList = none := by
    refine List.lookup_eq_none_iff.mpr fun entry member => ?_
    rw [bne_iff_ne]
    intro same
    have notLower := upper entry member
    rw [← same, shape, List.head?_cons, Option.any_some, lower] at notLower
    cases notLower
  rw [Reader.ofWord, unknown, Option.getD_none, String.ofList_toList, isName.shows]

/-- The name of a variable is read as a variable of its class. -/
theorem IsName.reads {name : String} {constraint : Option Constraint} (isName : IsName name.toList constraint)
    (context : PrintContext) : Reads context name.toList (.var ⟨.named name, constraint⟩) := by
  obtain ⟨char, rest, shape, lower⟩ := isName.begins
  have isWord : IsWord name.toList := ⟨by rw [shape]; exact List.cons_ne_nil _ _, isName.chars⟩
  rw [← isName.ofWord]
  refine (Reads.word isWord).everywhere ⟨char, rest, shape, ?_⟩ context
  rintro rfl
  cases lower

mutual

/-- A type is read back with names as identities. -/
theorem Ty.reads_render : ∀ (type : Ty) (context : PrintContext), type.Legible →
    (∀ v ∈ type.occurrences, IsName (names.name v.id).toList v.constraint) →
    Reads context (type.render names context).toList (type.relabel names.label)
  | .unit, context, _, _ => Reads.unit.everywhere ⟨_, _, rfl, by decide⟩ context
  | .bool, context, _, _ | .char, context, _, _ | .string, context, _, _ | .int, context, _, _
  | .float, context, _, _ =>
    Reads.atom (by simp [Reader.atoms, Ty.render, Ty.relabel]) context
  | .var v, context, _, named => (named v (List.mem_singleton_self v)).reads context
  | .tuple first second, context, legible, named => by
    obtain ⟨left, right⟩ := List.forall_mem_append.mp named
    have reads := (Ty.reads_render first .top legible.1 left).tuple (Ty.reads_render second .top legible.2 right)
    simpa only [Ty.relabel, Ty.render, String.toList_append, List.append_assoc] using
      reads.everywhere ⟨_, _, rfl, by decide⟩ context
  | .triple first second third, context, legible, named => by
    obtain ⟨left, others⟩ := List.forall_mem_append.mp named
    obtain ⟨middle, right⟩ := List.forall_mem_append.mp others
    have reads := (Ty.reads_render first .top legible.1 left).triple (Ty.reads_render second .top legible.2.1 middle)
      (Ty.reads_render third .top legible.2.2 right)
    simpa only [Ty.relabel, Ty.render, String.toList_append, List.append_assoc] using
      reads.everywhere ⟨_, _, rfl, by decide⟩ context
  | .list element, context, legible, named => by
    have reads := (Ty.reads_render element .argument legible named).list
    cases context with
    | argument => simpa [Ty.relabel, Ty.render, parenthesize] using reads.top.parenthesized
    | arrow => simpa [Ty.relabel, Ty.render, parenthesize] using reads
    | top => simpa [Ty.relabel, Ty.render, parenthesize] using reads.top
  | .function source target, context, legible, named => by
    obtain ⟨left, right⟩ := List.forall_mem_append.mp named
    have reads := (Ty.reads_render source .arrow legible.1 left).function (Ty.reads_render target .top legible.2 right)
    cases context with
    | argument => simpa [Ty.relabel, Ty.render, parenthesize] using reads.parenthesized
    | arrow => simpa [Ty.relabel, Ty.render, parenthesize] using reads.parenthesized.arrow ⟨_, _, rfl, by decide⟩
    | top => simpa [Ty.relabel, Ty.render, parenthesize] using reads
  | .record .empty, context, _, _ => Reads.emptyRecord.everywhere ⟨_, _, rfl, by decide⟩ context
  | .record (.field name type rest), context, legible, named => by
    obtain ⟨here, there⟩ := List.forall_mem_append.mp named
    have reads :=
      (Row.reads_renderMore rest legible.2.2 there).record legible.1 (Ty.reads_render type .top legible.2.1 here)
    rw [String.ofList_toList] at reads
    simpa only [Ty.relabel, Row.relabel, Ty.render, String.toList_append, List.append_assoc] using
      reads.everywhere ⟨_, _, rfl, by decide⟩ context
  | .extension base .empty, context, legible, _ => absurd rfl legible.1
  | .extension base (.field name type rest), context, legible, named => by
    obtain ⟨_, baseLegible, isWord, typeLegible, restLegible⟩ := legible
    obtain ⟨below, fields⟩ := List.forall_mem_append.mp named
    obtain ⟨here, there⟩ := List.forall_mem_append.mp fields
    have reads := (Row.reads_renderMore rest restLegible there).extension (Ty.reads_render base .top baseLegible below)
      isWord (Ty.reads_render type .top typeLegible here)
    rw [String.ofList_toList] at reads
    simpa only [Ty.relabel, Row.relabel, Ty.render, String.toList_append, List.append_assoc] using
      reads.everywhere ⟨_, _, rfl, by decide⟩ context

/-- Further fields are read back. -/
theorem Row.reads_renderMore : ∀ row : Row, row.Legible →
    (∀ v ∈ row.occurrences, IsName (names.name v.id).toList v.constraint) →
    ReadsMore (row.renderMore names).toList (row.relabel names.label)
  | .empty, _, _ => ReadsMore.empty
  | .field name type rest, legible, named => by
    obtain ⟨here, there⟩ := List.forall_mem_append.mp named
    have more := ReadsMore.field legible.1 (Ty.reads_render type .top legible.2.1 here)
      (Row.reads_renderMore rest legible.2.2 there)
    rw [String.ofList_toList] at more
    simpa only [Row.relabel, Row.renderMore, String.toList_append, List.append_assoc] using more

end

/-- A text stands for one type only. -/
theorem Reads.unique {context : PrintContext} {text : List Char} {type type' : Ty} (reads : Reads context text type)
    (reads' : Reads context text type') : type = type' := by
  obtain ⟨enough, reads⟩ := reads
  obtain ⟨enough', reads'⟩ := reads'
  have first := reads (max enough enough') (Nat.le_max_left ..) [] .nil
  have second := reads' (max enough enough') (Nat.le_max_right ..) [] .nil
  rw [first] at second
  exact (Prod.mk.inj (Option.some.inj second)).1

/-! ## Lists of types -/

variable {types left right : List Ty}

/-- The types can be read back, and their variables told apart by their names. -/
structure Printable (types : List Ty) : Prop extends Nameable types where
  legible : ∀ type ∈ types, type.Legible

/-- Each of the printable types is read back, with the names as identities. -/
theorem Printable.reads (printable : Printable types) {type : Ty} (member : type ∈ types) :
    Reads .top (type.render (Names.ofTypes types) .top).toList (type.relabel (Names.ofTypes types).label) :=
  type.reads_render .top (printable.legible type member) fun _ inType =>
    printable.isName (List.mem_flatMap.mpr ⟨type, member, inType⟩)

/-- The names are the identities of the variables under some permutation of all identities. -/
theorem Nameable.exists_perm (nameable : Nameable types) : ∃ perm : Equiv.Perm VarId,
    types.map (Ty.relabel (Names.ofTypes types).label) = types.map (Ty.relabel perm) := by
  obtain ⟨perm, extending⟩ := exists_perm_extending (identities_finite (types.flatMap Ty.occurrences))
    (fun id => (Names.ofTypes types).label id) (by
      rintro ⟨_, v, member, rfl⟩ ⟨_, u, member', rfl⟩ same
      exact Subtype.ext (nameable.id_eq_of_name_eq member member' (VarId.named.inj same)))
  refine ⟨perm, List.map_congr_left fun type member => type.relabel_congr fun v inType => ?_⟩
  exact (extending ⟨v.id, v, List.mem_flatMap.mpr ⟨type, member, inType⟩, rfl⟩).symm

/-- Types that are printed alike are read alike. -/
theorem Printable.relabel_eq (leftPrintable : Printable left) (rightPrintable : Printable right)
    (same : ({} : Names).printAll left = ({} : Names).printAll right) :
    left.map (Ty.relabel (Names.ofTypes left).label) = right.map (Ty.relabel (Names.ofTypes right).label) := by
  rw [Names.printAll_eq, Names.printAll_eq] at same
  refine List.ext_getElem (by simpa using congrArg List.length same) fun index bounded bounded' => ?_
  rw [List.length_map] at bounded bounded'
  have texts : left[index].render (Names.ofTypes left) .top = right[index].render (Names.ofTypes right) .top := by
    have entries := congrArg (·[index]?) same
    simpa [Names.ofTypes, bounded, bounded'] using entries
  rw [List.getElem_map, List.getElem_map]
  have reads := leftPrintable.reads (List.getElem_mem bounded)
  rw [texts] at reads
  exact reads.unique (rightPrintable.reads (List.getElem_mem bounded'))

/-- Lists of types are printed alike just if one is the other with other identities for the variables. -/
theorem printAll_eq_iff (leftPrintable : Printable left) (rightPrintable : Printable right) :
    ({} : Names).printAll left = ({} : Names).printAll right ↔
      ∃ label : VarId → VarId, Function.Injective label ∧ left.map (Ty.relabel label) = right := by
  constructor
  · intro same
    obtain ⟨perm, leftNames⟩ := leftPrintable.exists_perm
    obtain ⟨perm', rightNames⟩ := rightPrintable.exists_perm
    have relabelled := leftPrintable.relabel_eq rightPrintable same
    rw [leftNames, rightNames] at relabelled
    refine ⟨perm'.symm ∘ perm, perm'.symm.injective.comp perm.injective, ?_⟩
    calc left.map (Ty.relabel (perm'.symm ∘ perm))
      _ = (left.map (Ty.relabel perm)).map (Ty.relabel perm'.symm) := by simp
      _ = (right.map (Ty.relabel perm')).map (Ty.relabel perm'.symm) := by rw [relabelled]
      _ = right := by rw [List.map_map, List.map_id'' fun type => by simp]
  · rintro ⟨label, injective, rfl⟩
    rw [Names.printAll_eq, Names.printAll_eq, List.map_map]
    refine List.map_congr_left fun type member => (Ty.render_relabel type .top fun v inType => ?_).symm
    have inTypes := List.mem_flatMap.mpr ⟨type, member, inType⟩
    exact Names.name_ofTypes_relabel injective leftPrintable.uniform_order (Nameable.mem_order.mpr inTypes)

/-- A function type in parentheses, a list of lists and an open record, with variables of all classes. -/
def mixedTypes : List Ty :=
  [.function (.function (.var (.generated 7)) (.var ⟨.generated 2, some .number⟩))
      (.list (.list (.var ⟨.named "n", some .number⟩))),
    .extension (.var (.named "rest")) (.field "first_name" (.var ⟨.generated 5, some .appendable⟩)
      (.field "x" (.tuple (.var (.generated 7)) .unit) .empty))]

/-- The same types with other identities. -/
def mixedTypes' : List Ty :=
  [.function (.function (.var (.named "a")) (.var ⟨.generated 0, some .number⟩))
      (.list (.list (.var ⟨.generated 1, some .number⟩))),
    .extension (.var (.generated 7)) (.field "first_name" (.var ⟨.named "n", some .appendable⟩)
      (.field "x" (.tuple (.var (.named "a")) .unit) .empty))]

theorem printAll_eq_iff_mixedTypes : ({} : Names).printAll mixedTypes =
      ["(a -> number) -> List (List number1)", "\x7b b | first_name : appendable, x : ( a, () ) \x7d"] ∧
    ∃ label : VarId → VarId, Function.Injective label ∧ mixedTypes.map (Ty.relabel label) = mixedTypes' := by
  have words : IsWord "first_name".toList ∧ IsWord "x".toList := by decide
  have printable : Printable mixedTypes :=
    ⟨⟨by decide, by decide⟩, by simpa [mixedTypes, Ty.Legible, Row.Legible] using words⟩
  have printable' : Printable mixedTypes' :=
    ⟨⟨by decide, by decide⟩, by simpa [mixedTypes', Ty.Legible, Row.Legible] using words⟩
  have text : ({} : Names).printAll mixedTypes =
      ["(a -> number) -> List (List number1)", "\x7b b | first_name : appendable, x : ( a, () ) \x7d"] := by
        decide +kernel
  have text' : ({} : Names).printAll mixedTypes' =
      ["(a -> number) -> List (List number1)", "\x7b b | first_name : appendable, x : ( a, () ) \x7d"] := by
        decide +kernel
  exact ⟨text, (printAll_eq_iff printable printable').mp (text.trans text'.symm)⟩

end RowInference
