import RowInference.Codec.Module
import RowInference.Proofs.Types.Signature

/-! # Written trees are read back

A module is written as JSON and read again without a loss, whatever its nodes carry, as long as that itself is read
back. Trees are read with a bound on the nesting; every part of a written node is nested less deep than the node, so
the depth of the whole is always bound enough.

Variables are numbered below 2^32 and rows are sorted; both are asked of the schemes on the nodes.
-/

namespace RowInference

open Decoder (fields required orDefault nullable tag bare)

/-! ## Leaves -/

namespace Json

@[simp] theorem depth_tagged (name : String) (content : Json) : (tagged name content).depth = content.depth + 1 := by
  simp [tagged, depth, depthOfFields]

@[simp] theorem depth_nodeJson (kind info : Json) : (nodeJson kind info).depth = max kind.depth info.depth + 1 := by
  simp [nodeJson, depth, depthOfFields]

theorem depth_le_depthOfFields {fields : List (String × Json)} {entry : String × Json} (member : entry ∈ fields) :
    entry.2.depth ≤ depthOfFields fields := by
  induction fields with
  | nil => cases member
  | cons head rest ih =>
    rw [depthOfFields]
    rcases List.mem_cons.mp member with rfl | later
    · exact Nat.le_max_left ..
    · exact Nat.le_trans (ih later) (Nat.le_max_right ..)

end Json

namespace Decoder

variable {α β : Type}

/-- Values that are read back one by one are read back as a list. -/
theorem mapM_map {read : β → Option α} {write : α → β} {values : List α}
    (reads : ∀ value ∈ values, read (write value) = some value) : (values.map write).mapM read = some values := by
  induction values with
  | nil => rfl
  | cons value rest ih =>
    obtain ⟨here, there⟩ := List.forall_mem_cons.mp reads
    rw [List.map_cons, List.mapM_cons, here, ih there]
    rfl

theorem list_list {read : Decoder α} {write : α → Json} {values : List α}
    (reads : ∀ value ∈ values, read (write value) = some value) : list read (.list write values) = some values :=
  mapM_map reads

theorem list_cons {read : Decoder α} {head : Json} {tail : List Json} {value : α} {values : List α}
    (ofHead : read head = some value) (ofTail : list read (.array tail) = some values) :
    list read (.array (head :: tail)) = some (value :: values) := by
  rw [list] at ofTail ⊢
  rw [List.mapM_cons, ofHead, ofTail]
  rfl

theorem below_nat {bound n : Nat} (less : n < bound) : below bound (.nat n) = some n := by
  simp [below, Json.nat, less]

theorem word_toNat (value : UInt64) : word (.nat value.toNat) = some value := by
  simp [word, below_nat value.toNat_lt]

theorem int64_toInt (value : Int64) : int64 (.int value.toInt) = some value := by
  have lower := value.le_toInt
  have upper := value.toInt_lt
  simp only [int64]
  rw [if_pos ⟨by simpa using lower, by simpa using upper⟩, Int64.ofInt_toInt]

theorem char_singleton (value : Char) : char (.string (String.singleton value)) = some value := by
  simp [char]

theorem strings_list (names : List String) : list string (.list .string names) = some names :=
  list_list fun _ _ => rfl

/-- A missing value is read back as missing, since no value is written as `null`. -/
theorem nullable_orNull {read : Decoder α} {write : α → Json} {value : Option α}
    (reads : ∀ inner, read (write inner) = some inner) (present : ∀ inner, write inner ≠ .null) :
    nullable read (.orNull write value) = some value := by
  cases value with
  | none => rfl
  | some inner =>
    rw [Json.orNull, nullable, reads]
    · rfl
    · exact present inner

end Decoder

theorem Operator.ofJson?_toJson (op : Operator) : Operator.ofJson? op.toJson = some op := by
  cases op <;> simp [toJson, ofJson?, tag, all, jsonName, bare]

/-! ## Types and schemes -/

theorem VarId.ofJson?_generated {content : Json} {index : Nat}
    (inside : Decoder.below 0x100000000 content = some index) :
    VarId.ofJson? (.tagged "Generated" content) = some (.generated index) := by
  simp only [VarId.ofJson?, Json.tagged, tag, bind, Option.bind, pure]
  rw [inside]

/-- An identity is read back if its number is below 2^32. -/
theorem VarId.ofJson?_toJson {v : TypeVar} (below : v.Below 0x100000000) : VarId.ofJson? v.id.toJson = some v.id := by
  cases equation : v.id with
  | generated index => exact ofJson?_generated (Decoder.below_nat (below index equation))
  | named name => simp [toJson, ofJson?, Json.tagged, tag, Decoder.string]

theorem Constraint.ofJson?_toJson (constraint : Constraint) :
    Constraint.ofJson? constraint.toJson = some constraint := by
  cases constraint <;> simp [toJson, ofJson?, tag, bare]

theorem TypeVar.ofJson?_toJson {v : TypeVar} (below : v.Below 0x100000000) : TypeVar.ofJson? v.toJson = some v := by
  have id := VarId.ofJson?_toJson below
  have constraint : nullable Constraint.ofJson? (.orNull Constraint.toJson v.constraint) = some v.constraint :=
    Decoder.nullable_orNull Constraint.ofJson?_toJson fun inner => by cases inner <;> simp [Constraint.toJson]
  simp [ofJson?, toJson, fields, Decoder.field, required, orDefault, id, constraint]

namespace Row

theorem toFields_eq_map (row : Row) : row.toFields = row.toList.map fun entry => (entry.1, entry.2.toJson) := by
  induction row using Row.induction with
  | empty => rfl
  | field name type rest ih => rw [toFields, toList, ih, List.map_cons]

/-- A sorted row is what comes of inserting its fields one by one. -/
theorem ofList_toList {row : Row} (sorted : row.Sorted) : ofList row.toList = row := by
  have general : ∀ (start row : Row),
      row.toList.foldl (fun row entry => row.insert entry.1 entry.2) start = start.extend row := by
    intro start row
    induction row using Row.induction generalizing start with
    | empty => rfl
    | field name type rest ih => exact ih _
  rw [ofList, general, empty_extend sorted]

/-- A row is read back if its types are. -/
theorem entries_toFields {row : Row} {read : Decoder Ty}
    (reads : ∀ entry ∈ row.toList, read entry.2.toJson = some entry.2) :
    Decoder.entries read (.object row.toFields) = some row.toList := by
  rw [toFields_eq_map]
  refine Decoder.mapM_map fun entry member => ?_
  change (read entry.2.toJson).map (fun value => (entry.1, value)) = some entry
  rw [reads entry member, Option.map_some]

/-- The types of fields are nested less deep than the object they are written into. -/
theorem depth_lt_of_mem {row : Row} {entry : String × Ty} (member : entry ∈ row.toList) :
    entry.2.toJson.depth < (Json.object row.toFields).depth := by
  have inside : (entry.1, entry.2.toJson) ∈ row.toFields := by
    rw [toFields_eq_map]
    exact List.mem_map_of_mem member
  exact Nat.lt_succ_of_le (Json.depth_le_depthOfFields inside)

end Row

namespace Ty

/-- A type is read back to any depth that is larger than its own. -/
theorem ofJsonWithin_toJson (type : Ty) : ∀ depth, type.Canonical → (∀ v ∈ type.occurrences, v.Below 0x100000000) →
    type.toJson.depth < depth → ofJsonWithin depth type.toJson = some type := by
  -- a row's types are read within the bound that is left below the row
  have row : ∀ {fields : Row} (depth : Nat), (fields.All fun type => ∀ depth, type.Canonical →
      (∀ v ∈ type.occurrences, v.Below 0x100000000) → type.toJson.depth < depth →
      ofJsonWithin depth type.toJson = some type) → fields.Canonical →
      (∀ v ∈ fields.occurrences, v.Below 0x100000000) → (Json.object fields.toFields).depth ≤ depth →
      Decoder.entries (ofJsonWithin depth) (.object fields.toFields) = some fields.toList := by
    intro fields depth ih canonical below enough
    refine Row.entries_toFields fun entry member => ?_
    refine ih entry member depth ((Row.canonical_iff.mp canonical).2 entry member) (fun v inside => ?_)
      (Nat.lt_of_lt_of_le (Row.depth_lt_of_mem member) enough)
    exact below v (Row.mem_occurrences.mpr ⟨entry, member, inside⟩)
  intro depth canonical below enough
  induction type using Ty.induction generalizing depth <;>
    obtain ⟨depth, rfl⟩ := Nat.exists_eq_add_one_of_ne_zero (Nat.ne_zero_of_lt enough)
  case atom type isAtom =>
    cases type <;> simp_all [Ty.isAtom, toJson, ofJsonWithin, tag, ofTag, bare]
  case var v =>
    have var := TypeVar.ofJson?_toJson (below v (by simp [occurrences]))
    simp [toJson, ofJsonWithin, Json.tagged, tag, ofTag, var]
  case tuple first second ofFirst ofSecond =>
    simp only [toJson, Json.depth_tagged, Json.depth, Json.depthOfItems] at enough
    simp only [occurrences, List.forall_mem_append] at below
    have first := ofFirst depth canonical.1 below.1 (by omega)
    have second := ofSecond depth canonical.2 below.2 (by omega)
    simp [toJson, ofJsonWithin, Json.tagged, tag, ofTag, Decoder.pair, first, second]
  case triple first second third ofFirst ofSecond ofThird =>
    simp only [toJson, Json.depth_tagged, Json.depth, Json.depthOfItems] at enough
    simp only [occurrences, List.forall_mem_append] at below
    have first := ofFirst depth canonical.1 below.1 (by omega)
    have second := ofSecond depth canonical.2.1 below.2.1 (by omega)
    have third := ofThird depth canonical.2.2 below.2.2 (by omega)
    simp [toJson, ofJsonWithin, Json.tagged, tag, ofTag, Decoder.triple, first, second, third]
  case list element ofElement =>
    simp only [toJson, Json.depth_tagged] at enough
    have element := ofElement depth canonical below (by omega)
    simp [toJson, ofJsonWithin, Json.tagged, tag, ofTag, element]
  case function source target ofSource ofTarget =>
    simp only [toJson, Json.depth_tagged, Json.depth, Json.depthOfFields] at enough
    simp only [occurrences, List.forall_mem_append] at below
    have source := ofSource depth canonical.1 below.1 (by omega)
    have target := ofTarget depth canonical.2 below.2 (by omega)
    simp [toJson, ofJsonWithin, Json.tagged, tag, ofTag, fields, Decoder.field, required, source, target]
  case record inner ih =>
    simp only [toJson, Json.depth_tagged] at enough
    have inner' := row depth ih canonical below (Nat.le_of_lt_succ (Nat.lt_of_succ_lt enough))
    simp [toJson, ofJsonWithin, Json.tagged, tag, ofTag, inner', Row.ofList_toList (Row.Canonical.sorted canonical)]
  case extension base inner ofBase ih =>
    simp only [toJson, Json.depth_tagged, Json.depth, Json.depthOfFields] at enough
    simp only [occurrences, List.forall_mem_append] at below
    have base' := ofBase depth canonical.1 below.1 (by omega)
    have inner' := row depth ih canonical.2 below.2 (by rw [Json.depth]; omega)
    simp [toJson, ofJsonWithin, Json.tagged, tag, ofTag, fields, Decoder.field, required, base', inner',
      Row.ofList_toList (Row.Canonical.sorted canonical.2)]

end Ty

/-- The scheme can be written: its rows are sorted and its variables numbered below 2^32. -/
structure Scheme.Writable (scheme : Scheme) : Prop where
  canonical : scheme.body.Canonical
  below : ∀ v ∈ scheme.binders ++ scheme.body.occurrences, v.Below 0x100000000

/-- A scheme that can be written is read back. -/
theorem Scheme.ofJson?_toJson {scheme : Scheme} (writable : scheme.Writable) :
    Scheme.ofJson? scheme.toJson = some scheme := by
  obtain ⟨inBinders, inBody⟩ := List.forall_mem_append.mp writable.below
  have binders : Decoder.list TypeVar.ofJson? (.list TypeVar.toJson scheme.binders) = some scheme.binders :=
    Decoder.list_list fun v member => TypeVar.ofJson?_toJson (inBinders v member)
  have body : Ty.ofJson? scheme.body.toJson = some scheme.body :=
    Ty.ofJsonWithin_toJson _ _ writable.canonical inBody (Nat.lt_succ_self _)
  simp [ofJson?, toJson, fields, Decoder.field, required, binders, body]

/-! ## What nodes carry -/

/-- The information is read back as it was written. -/
def InfoFormat.Keeps {ι : Type} (format : InfoFormat ι) (info : ι) : Prop :=
  format.read (format.write info) = some info

theorem Position.ofJson?_object {position : Position} {line column offset : Json}
    (ofLine : Decoder.word line = some position.line) (ofColumn : Decoder.word column = some position.column)
    (ofOffset : Decoder.word offset = some position.offset) :
    Position.ofJson? (.object [("line", line), ("column", column), ("offset", offset)]) = some position := by
  simp [ofJson?, fields, Decoder.field, required, orDefault, ofLine, ofColumn, ofOffset]

theorem Position.ofJson?_toJson (position : Position) : Position.ofJson? position.toJson = some position :=
  ofJson?_object (Decoder.word_toNat _) (Decoder.word_toNat _) (Decoder.word_toNat _)

theorem Span.ofJson?_object {span : Span} {start stop : Json} (ofStart : Position.ofJson? start = some span.start)
    (ofStop : Position.ofJson? stop = some span.stop) :
    Span.ofJson? (.object [("start", start), ("end", stop)]) = some span := by
  simp [ofJson?, fields, Decoder.field, required, ofStart, ofStop]

theorem Span.ofJson?_toJson (span : Span) : Span.ofJson? span.toJson = some span :=
  ofJson?_object (Position.ofJson?_toJson _) (Position.ofJson?_toJson _)

theorem Typed.ofJson?_object {typed : Typed} {span scheme : Json} (ofSpan : Span.ofJson? span = some typed.span)
    (ofScheme : Scheme.ofJson? scheme = some typed.scheme) :
    Typed.ofJson? (.object [("span", span), ("ty", scheme)]) = some typed := by
  simp [ofJson?, fields, Decoder.field, required, ofSpan, ofScheme]

theorem InfoFormat.span_keeps (span : Span) : InfoFormat.span.Keeps span := Span.ofJson?_toJson span

/-- The information of a typed tree is kept if its scheme can be written. -/
theorem InfoFormat.typed_keeps {typed : Typed} (writable : typed.scheme.Writable) : InfoFormat.typed.Keeps typed :=
  Typed.ofJson?_object (Span.ofJson?_toJson _) (Scheme.ofJson?_toJson writable)

/-! ## Trees -/

variable {ι : Type} {format : InfoFormat ι}

/-- Of a written node the kind is left to read. -/
theorem nodeOf_nodeJson {α : Type} {kind : String × Option Json → Option (ι → α)} {node : Json} {info : ι}
    (keeps : format.Keeps info) :
    nodeOf format kind (nodeJson node (format.write info)) = (tag node >>= kind).map fun build => build info := by
  have read : format.read (format.write info) = some info := keeps
  cases known : tag node >>= kind <;> simp only [Option.bind_eq_bind] at known <;>
    simp [nodeOf, nodeJson, fields, Decoder.field, orDefault, known, read]

namespace Pattern

section Kinds

/-! What is read under a tag, given what is read from the parts. -/

variable {inner : Decoder (Pattern ι)} {left middle right : Json} {first second third : Pattern ι}

/-- For each form: if the parts are read, so is the kind that is written with them. -/
theorem kindOf_tuple (ofFirst : inner left = some first) (ofSecond : inner right = some second) :
    (tag (.tagged "Tuple" (.array [left, right])) >>= kindOf inner) = some fun info => .tuple info first second := by
  show (Decoder.pair inner inner (.array [left, right])).map _ = _
  simp only [Decoder.pair, ofFirst, ofSecond, Option.bind_eq_bind, Option.bind_some, Option.pure_def, Option.map_some]

theorem kindOf_triple (ofFirst : inner left = some first) (ofSecond : inner middle = some second)
    (ofThird : inner right = some third) :
    (tag (.tagged "Tuple3" (.array [left, middle, right])) >>= kindOf inner) =
      some fun info => .triple info first second third := by
  show (Decoder.triple inner inner inner (.array [left, middle, right])).map _ = _
  simp only [Decoder.triple, ofFirst, ofSecond, ofThird, Option.bind_eq_bind, Option.bind_some, Option.pure_def,
    Option.map_some]

theorem kindOf_list {content : Json} {items : List (Pattern ι)} (ofItems : Decoder.list inner content = some items) :
    (tag (.tagged "List" content) >>= kindOf inner) = some fun info => .list info items := by
  show (Decoder.list inner content).map _ = _
  rw [ofItems, Option.map_some]

theorem kindOf_cons (ofHead : inner left = some first) (ofTail : inner right = some second) :
    (tag (.tagged "Cons" (.object [("head", left), ("tail", right)])) >>= kindOf inner) =
      some fun info => .cons info first second := by
  show (inner left >>= fun head => inner right >>= fun tail => some fun info => Pattern.cons info head tail) = _
  rw [ofHead, ofTail]
  rfl

theorem kindOf_aliased (name : String) (ofInner : inner left = some first) :
    (tag (.tagged "Alias" (.object [("pattern", left), ("name", .string name)])) >>= kindOf inner) =
      some fun info => .aliased info first name := by
  show (inner left >>= fun pattern => some fun info => Pattern.aliased info pattern name) = _
  rw [ofInner]
  rfl

theorem kindOf_parenthesized (ofInner : inner left = some first) :
    (tag (.tagged "Parenthesized" left) >>= kindOf inner) = some fun info => .parenthesized info first := by
  show (inner left).map _ = _
  rw [ofInner, Option.map_some]

end Kinds

mutual

/-- A pattern is read back to any depth that is larger than its own. -/
theorem ofJsonWithin_toJson : ∀ (pattern : Pattern ι) (depth : Nat), (∀ info ∈ pattern.infos, format.Keeps info) →
    (pattern.toJson format.write).depth < depth →
      ofJsonWithin format depth (pattern.toJson format.write) = some pattern
  | _, 0, _, enough => absurd enough (Nat.not_lt_zero _)
  | .unit info, depth + 1, keeps, _ | .wildcard info, depth + 1, keeps, _ | .var info _, depth + 1, keeps, _
  | .float info _, depth + 1, keeps, _ | .string info _, depth + 1, keeps, _ => by
    rw [toJson, ofJsonWithin, nodeOf_nodeJson (keeps info List.mem_cons_self)]
    rfl
  | .integer info value, depth + 1, keeps, _ | .hex info value, depth + 1, keeps, _ => by
    rw [toJson, ofJsonWithin, nodeOf_nodeJson (keeps info List.mem_cons_self)]
    show ((Decoder.int64 (.int value.toInt)).map _).map _ = _
    rw [Decoder.int64_toInt]
    rfl
  | .char info value, depth + 1, keeps, _ => by
    rw [toJson, ofJsonWithin, nodeOf_nodeJson (keeps info List.mem_cons_self)]
    show ((Decoder.char (.string (String.singleton value))).map _).map _ = _
    rw [Decoder.char_singleton]
    rfl
  | .record info names, depth + 1, keeps, _ => by
    rw [toJson, ofJsonWithin, nodeOf_nodeJson (keeps info List.mem_cons_self)]
    show ((Decoder.list Decoder.string (.list .string names)).map _).map _ = _
    rw [Decoder.strings_list]
    rfl
  | .tuple info first second, depth + 1, keeps, enough => by
    simp only [infos, List.forall_mem_append, List.forall_mem_singleton] at keeps
    simp only [toJson, Json.depth_nodeJson, Json.depth_tagged, Json.depth, Json.depthOfItems] at enough
    have first := ofJsonWithin_toJson first depth keeps.1 (by omega)
    have second := ofJsonWithin_toJson second depth keeps.2.1 (by omega)
    rw [toJson, ofJsonWithin, nodeOf_nodeJson keeps.2.2, kindOf_tuple first second, Option.map_some]
  | .triple info first second third, depth + 1, keeps, enough => by
    simp only [infos, List.forall_mem_append, List.forall_mem_singleton] at keeps
    simp only [toJson, Json.depth_nodeJson, Json.depth_tagged, Json.depth, Json.depthOfItems] at enough
    have first := ofJsonWithin_toJson first depth keeps.1 (by omega)
    have second := ofJsonWithin_toJson second depth keeps.2.1 (by omega)
    have third := ofJsonWithin_toJson third depth keeps.2.2.1 (by omega)
    rw [toJson, ofJsonWithin, nodeOf_nodeJson keeps.2.2.2, kindOf_triple first second third, Option.map_some]
  | .list info items, depth + 1, keeps, enough => by
    simp only [infos, List.forall_mem_append, List.forall_mem_singleton] at keeps
    simp only [toJson, Json.depth_nodeJson, Json.depth_tagged, Json.depth] at enough
    have items := within_itemsJson items depth keeps.1 (by omega)
    rw [toJson, ofJsonWithin, nodeOf_nodeJson keeps.2, kindOf_list items, Option.map_some]
  | .cons info head tail, depth + 1, keeps, enough => by
    simp only [infos, List.forall_mem_append, List.forall_mem_singleton] at keeps
    simp only [toJson, Json.depth_nodeJson, Json.depth_tagged, Json.depth, Json.depthOfFields] at enough
    have head := ofJsonWithin_toJson head depth keeps.1 (by omega)
    have tail := ofJsonWithin_toJson tail depth keeps.2.1 (by omega)
    rw [toJson, ofJsonWithin, nodeOf_nodeJson keeps.2.2, kindOf_cons head tail, Option.map_some]
  | .aliased info inner name, depth + 1, keeps, enough => by
    simp only [infos, List.forall_mem_append, List.forall_mem_singleton] at keeps
    simp only [toJson, Json.depth_nodeJson, Json.depth_tagged, Json.depth, Json.depthOfFields] at enough
    have inner := ofJsonWithin_toJson inner depth keeps.1 (by omega)
    rw [toJson, ofJsonWithin, nodeOf_nodeJson keeps.2, kindOf_aliased name inner, Option.map_some]
  | .parenthesized info inner, depth + 1, keeps, enough => by
    simp only [infos, List.forall_mem_append, List.forall_mem_singleton] at keeps
    simp only [toJson, Json.depth_nodeJson, Json.depth_tagged] at enough
    have inner := ofJsonWithin_toJson inner depth keeps.1 (by omega)
    rw [toJson, ofJsonWithin, nodeOf_nodeJson keeps.2, kindOf_parenthesized inner, Option.map_some]

/-- So are the patterns of a list. -/
theorem within_itemsJson : ∀ (items : List (Pattern ι)) (depth : Nat), (∀ info ∈ infosOf items, format.Keeps info) →
    Json.depthOfItems (itemsJson format.write items) < depth →
      Decoder.list (ofJsonWithin format depth) (.array (itemsJson format.write items)) = some items
  | [], _, _, _ => rfl
  | item :: rest, depth, keeps, enough => by
    simp only [infosOf, List.forall_mem_append] at keeps
    simp only [itemsJson, Json.depthOfItems] at enough
    exact Decoder.list_cons (ofJsonWithin_toJson item depth keeps.1 (by omega))
      (within_itemsJson rest depth keeps.2 (by omega))

end

/-- A pattern is read back: the depth of what was written is enough. -/
theorem ofJson?_toJson (pattern : Pattern ι) (keeps : ∀ info ∈ pattern.infos, format.Keeps info) :
    ofJson? format (pattern.toJson format.write) = some pattern :=
  ofJsonWithin_toJson pattern _ keeps (Nat.lt_succ_self _)

theorem list_itemsJson : ∀ items : List (Pattern ι), (∀ info ∈ infosOf items, format.Keeps info) →
    Decoder.list (ofJson? format) (.array (itemsJson format.write items)) = some items
  | [], _ => rfl
  | item :: rest, keeps => by
    simp only [infosOf, List.forall_mem_append] at keeps
    exact Decoder.list_cons (ofJson?_toJson item keeps.1) (list_itemsJson rest keeps.2)

end Pattern

namespace Expr

section Kinds

variable {pattern : Decoder (Pattern ι)} {inner : Decoder (Expr ι)} {left middle right : Json}
  {first second third : Expr ι}

/-- For each form: if the parts are read, so is the kind that is written with them. -/
theorem kindOf_tuple (ofFirst : inner left = some first) (ofSecond : inner right = some second) :
    (tag (.tagged "Tuple" (.array [left, right])) >>= kindOf pattern inner) =
      some fun info => .tuple info first second := by
  show (Decoder.pair inner inner (.array [left, right])).map _ = _
  simp only [Decoder.pair, ofFirst, ofSecond, Option.bind_eq_bind, Option.bind_some, Option.pure_def, Option.map_some]

theorem kindOf_triple (ofFirst : inner left = some first) (ofSecond : inner middle = some second)
    (ofThird : inner right = some third) :
    (tag (.tagged "Tuple3" (.array [left, middle, right])) >>= kindOf pattern inner) =
      some fun info => .triple info first second third := by
  show (Decoder.triple inner inner inner (.array [left, middle, right])).map _ = _
  simp only [Decoder.triple, ofFirst, ofSecond, ofThird, Option.bind_eq_bind, Option.bind_some, Option.pure_def,
    Option.map_some]

theorem kindOf_list {items : List (Expr ι)} (ofItems : Decoder.list inner left = some items) :
    (tag (.tagged "List" left) >>= kindOf pattern inner) = some fun info => .list info items := by
  show (Decoder.list inner left).map _ = _
  rw [ofItems, Option.map_some]

theorem kindOf_lambda {params : List (Pattern ι)} (ofParams : Decoder.list pattern left = some params)
    (ofBody : inner right = some first) :
    (tag (.tagged "Lambda" (.object [("args", left), ("body", right)])) >>= kindOf pattern inner) =
      some fun info => .lambda info params first := by
  show (Decoder.list pattern left >>= fun params => inner right >>= fun body =>
    some fun info => Expr.lambda info params body) = _
  rw [ofParams, ofBody]
  rfl

theorem kindOf_record {entries : List (Field ι)} (ofEntries : fieldsOf inner left = some entries) :
    (tag (.tagged "Record" left) >>= kindOf pattern inner) = some fun info => .record info entries := by
  show (fieldsOf inner left).map _ = _
  rw [ofEntries, Option.map_some]

theorem kindOf_access (name : String) (ofSubject : inner left = some first) :
    (tag (.tagged "RecordAccess" (.object [("record", left), ("field", .string name)])) >>= kindOf pattern inner) =
      some fun info => .access info first name := by
  show (inner left >>= fun subject => some fun info => Expr.access info subject name) = _
  rw [ofSubject]
  rfl

theorem kindOf_update (name : String) {updates : List (Field ι)} (ofUpdates : fieldsOf inner right = some updates) :
    (tag (.tagged "RecordUpdate" (.object [("record", .string name), ("updates", right)])) >>= kindOf pattern inner) =
      some fun info => .update info name updates := by
  show (fieldsOf inner right >>= fun updates => some fun info => Expr.update info name updates) = _
  rw [ofUpdates]
  rfl

theorem kindOf_parenthesized (ofInner : inner left = some first) :
    (tag (.tagged "Parenthesized" left) >>= kindOf pattern inner) = some fun info => .parenthesized info first := by
  show (inner left).map _ = _
  rw [ofInner, Option.map_some]

theorem kindOf_application {args : List (Expr ι)} (ofFunction : inner left = some first)
    (ofArgs : Decoder.list inner right = some args) :
    (tag (.tagged "Application" (.object [("function", left), ("args", right)])) >>= kindOf pattern inner) =
      some fun info => .application info first args := by
  show (inner left >>= fun function => Decoder.list inner right >>= fun args =>
    some fun info => Expr.application info function args) = _
  rw [ofFunction, ofArgs]
  rfl

theorem kindOf_operation (op : Operator) (ofLeft : inner left = some first) (ofRight : inner right = some second) :
    (tag (.tagged "Operator" (.object [("op", op.toJson), ("left", left), ("right", right)])) >>=
      kindOf pattern inner) = some fun info => .operation info op first second := by
  show (Operator.ofJson? op.toJson >>= fun op => inner left >>= fun left => inner right >>= fun right =>
    some fun info => Expr.operation info op left right) = _
  rw [Operator.ofJson?_toJson, ofLeft, ofRight]
  rfl

theorem kindOf_negate (ofInner : inner left = some first) :
    (tag (.tagged "Negate" left) >>= kindOf pattern inner) = some fun info => .negate info first := by
  show (inner left).map _ = _
  rw [ofInner, Option.map_some]

theorem kindOf_conditional (ofCondition : inner left = some first) (ofThen : inner middle = some second)
    (ofElse : inner right = some third) :
    (tag (.tagged "If" (.object [("condition", left), ("then_branch", middle), ("else_branch", right)])) >>=
      kindOf pattern inner) = some fun info => .conditional info first second third := by
  show (inner left >>= fun condition => inner middle >>= fun thenBranch => inner right >>= fun elseBranch =>
    some fun info => Expr.conditional info condition thenBranch elseBranch) = _
  rw [ofCondition, ofThen, ofElse]
  rfl

theorem kindOf_letIn {bindings : List (Binding ι)}
    (ofBindings : Decoder.list (bindingOf pattern inner) left = some bindings) (ofBody : inner right = some first) :
    (tag (.tagged "Let" (.object [("bindings", left), ("body", right)])) >>= kindOf pattern inner) =
      some fun info => .letIn info bindings first := by
  show (Decoder.list (bindingOf pattern inner) left >>= fun bindings => inner right >>= fun body =>
    some fun info => Expr.letIn info bindings body) = _
  rw [ofBindings, ofBody]
  rfl

theorem kindOf_caseOf {branches : List (Branch ι)} (ofSubject : inner left = some first)
    (ofBranches : branchesOf pattern inner right = some branches) :
    (tag (.tagged "Case" (.object [("subject", left), ("branches", right)])) >>= kindOf pattern inner) =
      some fun info => .caseOf info first branches := by
  show (inner left >>= fun subject => branchesOf pattern inner right >>= fun branches =>
    some fun info => Expr.caseOf info subject branches) = _
  rw [ofSubject, ofBranches]
  rfl

end Kinds

mutual

/-- An expression is read back to any depth that is larger than its own. -/
theorem ofJsonWithin_toJson : ∀ (expr : Expr ι) (depth : Nat), (∀ info ∈ expr.infos, format.Keeps info) →
    (expr.toJson format.write).depth < depth → ofJsonWithin format depth (expr.toJson format.write) = some expr
  | _, 0, _, enough => absurd enough (Nat.not_lt_zero _)
  | .unit info, depth + 1, keeps, _ | .float info _, depth + 1, keeps, _ | .string info _, depth + 1, keeps, _
  | .var info _, depth + 1, keeps, _ | .accessor info _, depth + 1, keeps, _ | .glsl info _, depth + 1, keeps, _ => by
    rw [toJson, ofJsonWithin, nodeOf_nodeJson (keeps info List.mem_cons_self)]
    rfl
  | .integer info value, depth + 1, keeps, _ | .hex info value, depth + 1, keeps, _ => by
    rw [toJson, ofJsonWithin, nodeOf_nodeJson (keeps info List.mem_cons_self)]
    show ((Decoder.int64 (.int value.toInt)).map _).map _ = _
    rw [Decoder.int64_toInt]
    rfl
  | .char info value, depth + 1, keeps, _ => by
    rw [toJson, ofJsonWithin, nodeOf_nodeJson (keeps info List.mem_cons_self)]
    show ((Decoder.char (.string (String.singleton value))).map _).map _ = _
    rw [Decoder.char_singleton]
    rfl
  | .operator info op, depth + 1, keeps, _ => by
    rw [toJson, ofJsonWithin, nodeOf_nodeJson (keeps info List.mem_cons_self)]
    show ((Operator.ofJson? op.toJson).map _).map _ = _
    rw [Operator.ofJson?_toJson]
    rfl
  | .tuple info first second, depth + 1, keeps, enough => by
    simp only [infos, List.forall_mem_append, List.forall_mem_singleton] at keeps
    simp only [toJson, Json.depth_nodeJson, Json.depth_tagged, Json.depth, Json.depthOfItems] at enough
    have first := ofJsonWithin_toJson first depth keeps.1 (by omega)
    have second := ofJsonWithin_toJson second depth keeps.2.1 (by omega)
    rw [toJson, ofJsonWithin, nodeOf_nodeJson keeps.2.2, kindOf_tuple first second, Option.map_some]
  | .triple info first second third, depth + 1, keeps, enough => by
    simp only [infos, List.forall_mem_append, List.forall_mem_singleton] at keeps
    simp only [toJson, Json.depth_nodeJson, Json.depth_tagged, Json.depth, Json.depthOfItems] at enough
    have first := ofJsonWithin_toJson first depth keeps.1 (by omega)
    have second := ofJsonWithin_toJson second depth keeps.2.1 (by omega)
    have third := ofJsonWithin_toJson third depth keeps.2.2.1 (by omega)
    rw [toJson, ofJsonWithin, nodeOf_nodeJson keeps.2.2.2, kindOf_triple first second third, Option.map_some]
  | .list info items, depth + 1, keeps, enough => by
    simp only [infos, List.forall_mem_append, List.forall_mem_singleton] at keeps
    simp only [toJson, Json.depth_nodeJson, Json.depth_tagged, Json.depth] at enough
    have items := list_itemsJson items depth keeps.1 (by omega)
    rw [toJson, ofJsonWithin, nodeOf_nodeJson keeps.2, kindOf_list items, Option.map_some]
  | .lambda info params body, depth + 1, keeps, enough => by
    simp only [infos, List.forall_mem_append, List.forall_mem_singleton] at keeps
    simp only [toJson, Json.depth_nodeJson, Json.depth_tagged, Json.depth, Json.depthOfFields] at enough
    have params := Pattern.list_itemsJson params keeps.1
    have body := ofJsonWithin_toJson body depth keeps.2.1 (by omega)
    rw [toJson, ofJsonWithin, nodeOf_nodeJson keeps.2.2, kindOf_lambda params body, Option.map_some]
  | .record info entries, depth + 1, keeps, enough => by
    simp only [infos, List.forall_mem_append, List.forall_mem_singleton] at keeps
    simp only [toJson, Json.depth_nodeJson, Json.depth_tagged, Json.depth] at enough
    have entries := fieldsOf_fieldsJson entries depth keeps.1 (by omega)
    rw [toJson, ofJsonWithin, nodeOf_nodeJson keeps.2, kindOf_record entries, Option.map_some]
  | .access info subject name, depth + 1, keeps, enough => by
    simp only [infos, List.forall_mem_append, List.forall_mem_singleton] at keeps
    simp only [toJson, Json.depth_nodeJson, Json.depth_tagged, Json.depth, Json.depthOfFields] at enough
    have subject := ofJsonWithin_toJson subject depth keeps.1 (by omega)
    rw [toJson, ofJsonWithin, nodeOf_nodeJson keeps.2, kindOf_access name subject, Option.map_some]
  | .update info name updates, depth + 1, keeps, enough => by
    simp only [infos, List.forall_mem_append, List.forall_mem_singleton] at keeps
    simp only [toJson, Json.depth_nodeJson, Json.depth_tagged, Json.depth, Json.depthOfFields] at enough
    have updates := fieldsOf_fieldsJson updates depth keeps.1 (by omega)
    rw [toJson, ofJsonWithin, nodeOf_nodeJson keeps.2, kindOf_update name updates, Option.map_some]
  | .parenthesized info inner, depth + 1, keeps, enough => by
    simp only [infos, List.forall_mem_append, List.forall_mem_singleton] at keeps
    simp only [toJson, Json.depth_nodeJson, Json.depth_tagged] at enough
    have inner := ofJsonWithin_toJson inner depth keeps.1 (by omega)
    rw [toJson, ofJsonWithin, nodeOf_nodeJson keeps.2, kindOf_parenthesized inner, Option.map_some]
  | .application info function args, depth + 1, keeps, enough => by
    simp only [infos, List.forall_mem_append, List.forall_mem_singleton] at keeps
    simp only [toJson, Json.depth_nodeJson, Json.depth_tagged, Json.depth, Json.depthOfFields] at enough
    have function := ofJsonWithin_toJson function depth keeps.1 (by omega)
    have args := list_itemsJson args depth keeps.2.1 (by omega)
    rw [toJson, ofJsonWithin, nodeOf_nodeJson keeps.2.2, kindOf_application function args, Option.map_some]
  | .operation info op left right, depth + 1, keeps, enough => by
    simp only [infos, List.forall_mem_append, List.forall_mem_singleton] at keeps
    simp only [toJson, Json.depth_nodeJson, Json.depth_tagged, Json.depth, Json.depthOfFields] at enough
    have left := ofJsonWithin_toJson left depth keeps.1 (by omega)
    have right := ofJsonWithin_toJson right depth keeps.2.1 (by omega)
    rw [toJson, ofJsonWithin, nodeOf_nodeJson keeps.2.2, kindOf_operation op left right, Option.map_some]
  | .negate info inner, depth + 1, keeps, enough => by
    simp only [infos, List.forall_mem_append, List.forall_mem_singleton] at keeps
    simp only [toJson, Json.depth_nodeJson, Json.depth_tagged] at enough
    have inner := ofJsonWithin_toJson inner depth keeps.1 (by omega)
    rw [toJson, ofJsonWithin, nodeOf_nodeJson keeps.2, kindOf_negate inner, Option.map_some]
  | .conditional info condition thenBranch elseBranch, depth + 1, keeps, enough => by
    simp only [infos, List.forall_mem_append, List.forall_mem_singleton] at keeps
    simp only [toJson, Json.depth_nodeJson, Json.depth_tagged, Json.depth, Json.depthOfFields] at enough
    have condition := ofJsonWithin_toJson condition depth keeps.1 (by omega)
    have thenBranch := ofJsonWithin_toJson thenBranch depth keeps.2.1 (by omega)
    have elseBranch := ofJsonWithin_toJson elseBranch depth keeps.2.2.1 (by omega)
    rw [toJson, ofJsonWithin, nodeOf_nodeJson keeps.2.2.2, kindOf_conditional condition thenBranch elseBranch,
      Option.map_some]
  | .letIn info bindings body, depth + 1, keeps, enough => by
    simp only [infos, List.forall_mem_append, List.forall_mem_singleton] at keeps
    simp only [toJson, Json.depth_nodeJson, Json.depth_tagged, Json.depth, Json.depthOfFields] at enough
    have bindings := list_bindingsJson bindings depth keeps.1 (by omega)
    have body := ofJsonWithin_toJson body depth keeps.2.1 (by omega)
    rw [toJson, ofJsonWithin, nodeOf_nodeJson keeps.2.2, kindOf_letIn bindings body, Option.map_some]
  | .caseOf info subject branches, depth + 1, keeps, enough => by
    simp only [infos, List.forall_mem_append, List.forall_mem_singleton] at keeps
    simp only [toJson, Json.depth_nodeJson, Json.depth_tagged, Json.depth, Json.depthOfFields] at enough
    have subject := ofJsonWithin_toJson subject depth keeps.1 (by omega)
    have branches := branchesOf_branchesJson branches depth keeps.2.1 (by omega)
    rw [toJson, ofJsonWithin, nodeOf_nodeJson keeps.2.2, kindOf_caseOf subject branches, Option.map_some]

theorem list_itemsJson : ∀ (items : List (Expr ι)) (depth : Nat), (∀ info ∈ itemInfos items, format.Keeps info) →
    Json.depthOfItems (itemsJson format.write items) < depth →
      Decoder.list (ofJsonWithin format depth) (.array (itemsJson format.write items)) = some items
  | [], _, _, _ => rfl
  | item :: rest, depth, keeps, enough => by
    simp only [itemInfos, List.forall_mem_append] at keeps
    simp only [itemsJson, Json.depthOfItems] at enough
    exact Decoder.list_cons (ofJsonWithin_toJson item depth keeps.1 (by omega))
      (list_itemsJson rest depth keeps.2 (by omega))

/-- Fields are read back, each as a pair of its name and its value. -/
theorem fieldsOf_fieldsJson : ∀ (entries : List (Field ι)) (depth : Nat),
    (∀ info ∈ fieldInfos entries, format.Keeps info) →
    Json.depthOfItems (fieldsJson format.write entries) < depth →
      fieldsOf (ofJsonWithin format depth) (.array (fieldsJson format.write entries)) = some entries
  | [], _, _, _ => rfl
  | .mk name value :: rest, depth, keeps, enough => by
    simp only [fieldInfos, List.forall_mem_append] at keeps
    simp only [fieldsJson, namedJson, Json.depth, Json.depthOfItems] at enough
    have value := ofJsonWithin_toJson value depth keeps.1 (by omega)
    refine Decoder.list_cons ?_ (fieldsOf_fieldsJson rest depth keeps.2 (by omega))
    simp [namedJson, Decoder.pair, Decoder.string, value]

/-- Branches are read back. Their patterns are read to whatever depth they have. -/
theorem branchesOf_branchesJson : ∀ (branches : List (Branch ι)) (depth : Nat),
    (∀ info ∈ branchInfos branches, format.Keeps info) →
    Json.depthOfItems (branchesJson format.write branches) < depth →
      branchesOf (Pattern.ofJson? format) (ofJsonWithin format depth) (.array (branchesJson format.write branches)) =
        some branches
  | [], _, _, _ => rfl
  | .mk pattern body :: rest, depth, keeps, enough => by
    simp only [branchInfos, List.forall_mem_append] at keeps
    simp only [branchesJson, Json.depth, Json.depthOfItems] at enough
    have pattern := Pattern.ofJson?_toJson pattern keeps.1
    have body := ofJsonWithin_toJson body depth keeps.2.1 (by omega)
    refine Decoder.list_cons ?_ (branchesOf_branchesJson rest depth keeps.2.2 (by omega))
    simp [Decoder.pair, pattern, body]

/-- Bindings are read back, functions and destructurings alike. -/
theorem list_bindingsJson : ∀ (bindings : List (Binding ι)) (depth : Nat),
    (∀ info ∈ bindingInfos bindings, format.Keeps info) →
    Json.depthOfItems (bindingsJson format.write bindings) < depth →
      Decoder.list (bindingOf (Pattern.ofJson? format) (ofJsonWithin format depth))
        (.array (bindingsJson format.write bindings)) = some bindings
  | [], _, _, _ => rfl
  | .function name params body :: rest, depth, keeps, enough => by
    simp only [bindingInfos, List.forall_mem_append] at keeps
    simp only [bindingsJson, Json.depth_tagged, Json.depth, Json.depthOfItems, Json.depthOfFields] at enough
    have params := Pattern.list_itemsJson params keeps.1
    have body := ofJsonWithin_toJson body depth keeps.2.1 (by omega)
    refine Decoder.list_cons ?_ (list_bindingsJson rest depth keeps.2.2 (by omega))
    simp [bindingOf, tag, Json.tagged, fields, Decoder.field, required, Decoder.string, params, body]
  | .destructuring pattern body :: rest, depth, keeps, enough => by
    simp only [bindingInfos, List.forall_mem_append] at keeps
    simp only [bindingsJson, Json.depth_tagged, Json.depth, Json.depthOfItems, Json.depthOfFields] at enough
    have pattern := Pattern.ofJson?_toJson pattern keeps.1
    have body := ofJsonWithin_toJson body depth keeps.2.1 (by omega)
    refine Decoder.list_cons ?_ (list_bindingsJson rest depth keeps.2.2 (by omega))
    simp [bindingOf, tag, Json.tagged, fields, Decoder.field, required, pattern, body]

end

/-- An expression is read back: the depth of what was written is enough. -/
theorem ofJson?_toJson (expr : Expr ι) (keeps : ∀ info ∈ expr.infos, format.Keeps info) :
    ofJson? format (expr.toJson format.write) = some expr :=
  ofJsonWithin_toJson expr _ keeps (Nat.lt_succ_self _)

end Expr

/-! ## Modules -/

theorem Exposing.ofJson?_toJson (exposing : Exposing) : Exposing.ofJson? exposing.toJson = some exposing := by
  cases exposing <;> simp [toJson, ofJson?, Json.tagged, tag, bare, Decoder.strings_list]

theorem Import.ofJson?_toJson (entry : Import) : Import.ofJson? entry.toJson = some entry := by
  have localName : nullable Decoder.string (.orNull .string entry.localName) = some entry.localName :=
    Decoder.nullable_orNull (fun _ => rfl) (fun _ => by simp)
  simp [ofJson?, toJson, fields, Decoder.field, required, orDefault, Decoder.string, localName,
    Exposing.ofJson?_toJson]

/-- A declaration is read back with its parameters, its body and the information on it. -/
theorem Declaration.ofJson?_toJson (declaration : Declaration ι)
    (keeps : ∀ info ∈ declaration.infos, format.Keeps info) :
    Declaration.ofJson? format (declaration.toJson format.write) = some declaration := by
  simp only [infos, List.forall_mem_append, List.forall_mem_singleton] at keeps
  have params := Pattern.list_itemsJson declaration.params keeps.1
  have body := Expr.ofJson?_toJson declaration.body keeps.2.1
  have info : format.read (format.write declaration.info) = some declaration.info := keeps.2.2
  simp [ofJson?, toJson, fields, Decoder.field, required, orDefault, Decoder.string, params, body, info]

namespace Module

/-- A module is read back if the information on its nodes is. -/
theorem ofJson?_toJson (module : Module ι) (keeps : ∀ info ∈ module.infos, format.Keeps info) :
    ofJson? format (module.toJson format.write) = some module := by
  have imports : Decoder.list Import.ofJson? (.list Import.toJson module.imports) = some module.imports :=
    Decoder.list_list fun entry _ => Import.ofJson?_toJson entry
  have declarations : Decoder.list (Declaration.ofJson? format)
      (.list (Declaration.toJson format.write) module.declarations) = some module.declarations :=
    Decoder.list_list fun declaration member => Declaration.ofJson?_toJson declaration fun info inside =>
      keeps info (List.mem_flatMap.mpr ⟨declaration, member, inside⟩)
  simp [ofJson?, toJson, fields, Decoder.field, required, orDefault, Decoder.string, imports, declarations]

/-- A written module is read back unchanged: one that carries places always, and one that carries types whenever its
schemes can be written at all. -/
theorem written_readBack :
    (∀ module : Module Span, Module.ofJson? .span (module.toJson Span.toJson) = some module) ∧
    (∀ module : Module Typed, (∀ typed ∈ module.infos, typed.scheme.Writable) →
      Module.ofJson? .typed (module.toJson Typed.toJson) = some module) := by
  constructor
  · exact fun module => ofJson?_toJson module fun span _ => InfoFormat.span_keeps span
  · exact fun module writable => ofJson?_toJson module fun typed member =>
      InfoFormat.typed_keeps (writable typed member)

/-- A module that imports another under its own name for it and declares a function on open records. -/
def openRecordAccess : Module Typed where
  name := "Access"
  imports := [{ target := "Numbers", localName := some "N", exposing := .names ["double"] }]
  declarations := [{
    name := "size"
    body := .accessor ⟨.onLine 1 8 13, .mono accessType⟩ "size"
    info := ⟨.onLine 1 1 13, ⟨[rest, size], accessType⟩⟩ }]
where
  rest : TypeVar := ⟨.generated 7, none⟩
  size : TypeVar := ⟨.named "number", some .number⟩
  accessType : Ty := .function (.extension (.var rest) (.field "size" (.var size) .empty)) (.var size)

theorem written_readBack_openRecordAccess :
    (∀ typed ∈ openRecordAccess.infos, typed.scheme.Writable) ∧
    Module.ofJson? .typed (openRecordAccess.toJson Typed.toJson) = some openRecordAccess := by
  have writable : ∀ typed ∈ openRecordAccess.infos, typed.scheme.Writable := by
    refine List.forall_mem_cons.mpr ⟨?_, List.forall_mem_singleton.mpr ?_⟩ <;> constructor <;>
      simp [Scheme.mono, openRecordAccess.accessType, openRecordAccess.rest, openRecordAccess.size, Ty.Canonical,
        Row.Canonical, Row.toList, Ty.occurrences, Row.occurrences, TypeVar.Below]
  exact ⟨writable, written_readBack.2 openRecordAccess writable⟩

end Module

end RowInference
