import QueryProjection.Proofs.Expansion.Selections
import QueryProjection.Forest.Resolution
import QueryProjection.Proofs.Mapping.Projection
import QueryProjection.Proofs.Mapping.Records
import QueryProjection.Proofs.Mapping.Shape
import QueryProjection.Proofs.Mapping.Steps

set_option autoImplicit false

namespace QueryProjection

open Outcome Evaluation

theorem Evaluation.evalBindings_of_forall₂ {rows : List Value} {scope : Scope}
    {suits : MemberDecl → Value → Prop} {members : List MemberDecl} {bindings : List (String × Expr)}
    (each : List.Forall₂ (fun member binding => binding.1 = member.name ∧
      ∃ value, eval rows scope binding.2 = .ok value ∧ suits member value) members bindings) :
    ∃ fields, evalBindings rows scope bindings = .ok fields ∧
      List.Forall₂ (fun member field => field.1 = member.name ∧ suits member field.2) members fields := by
  induction each with
  | nil => exact ⟨[], rfl, .nil⟩
  | @cons member binding _ _ first _ ih =>
    obtain ⟨named, value, isValue, suitable⟩ := first
    obtain ⟨fields, areFields, later⟩ := ih
    refine ⟨(binding.1, value) :: fields, ?_, .cons ⟨named, suitable⟩ later⟩
    simp only [evalBindings, isValue, areFields, ok_bind]
    rfl

namespace Mapping

variable {mapping : Mapping} {parameters : ProjectionParameters} {rows : List Value}
  {rowType : String} {row value : Value} {scope : Scope} {source read expr : Expr} {depth : Nat}
  {construct : Construct} {memberType ty : DataType} {element : String}

theorem HoldsRecords.recordType? (holds : mapping.HoldsRecords memberType element) :
    mapping.schema.recordType? memberType = some element := by
  obtain ⟨model, isModel⟩ :=
    Option.isSome_iff_exists.1 ((mapping.schema.recordType?_isSome memberType).2 holds.kind)
  have named := Schema.recordType?_eq_some isModel
  rw [DataType.elementType_of_typeName? holds.named] at named
  cases named
  exact isModel

def ConstructsFrom (mapping : Mapping) (rows : List Value) (rowType : String) (row : Value)
    (construct : Construct) (sourceType modelType : String) : Prop :=
  ∀ source depth expr scope, construct modelType source depth = .ok expr →
    mapping.YieldsRecord rows rowType row scope source sourceType →
      ∃ record, eval rows scope expr = .ok record ∧ mapping.Shapes false modelType record

theorem eval_items {sourceElement : String} (isRow : Value.IsRow mapping.schema rowType row)
    (constructs : mapping.ConstructsFrom rows rowType row construct sourceElement element)
    (many : memberType.isCollection = true) (manyRead : ty.isCollection = true)
    (isRecord : mapping.schema.recordType? ty = some sourceElement)
    (typed : read.type.nonNull = ty.nonNull) (evaluated : eval rows scope read = .ok value)
    (mayBe : row.MayBe mapping.schema rowType ty value)
    {body : Expr} (isBody : construct element
      (.parameter ⟨itemNameAtDepth (depth + 1), read.type.elementType⟩) (depth + 1) = .ok body)
    (emptyType selectedType : DataType) :
    ∃ result, eval rows scope (emptyWhenNull read (.constant (Value.defaultOf memberType) emptyType)
        ((read.selected ⟨⟨itemNameAtDepth (depth + 1), read.type.elementType⟩, body⟩).coercedTo
          memberType.collectionKind?) selectedType) = .ok result ∧
      mapping.ListShapes false element result := by
  rw [eval_emptyWhenNull, evaluated, ok_bind]
  by_cases present : value = .null
  · subst present
    exact ⟨Value.defaultOf memberType, rfl, by simp [Value.defaultOf, many, ListShapes, ItemsShape]⟩
  obtain ⟨items, rfl, areItems, noNull⟩ := mayBe.items isRow present manyRead
  have notNull := noNull (by simp [isRecord])
  simp only [Value.isNull, Bool.false_eq_true, if_false]
  -- In the body of the selection the item is a record of the row itself.
  let item : Parameter := ⟨itemNameAtDepth (depth + 1), read.type.elementType⟩
  have isItem : item.ty.nonNull = .named sourceElement := by
    simp only [item, DataType.elementType_congr typed]
    exact Schema.recordType?_eq_some isRecord
  have each : ∀ held ∈ items, ∃ record, eval rows ((item.name, held) :: scope) body = .ok record ∧
      mapping.Shapes false element record := by
    intro held isHeld
    refine constructs (.parameter item) (depth + 1) body _ isBody ⟨isItem, held, ?_, ?_, ?_⟩
    · simp [eval]
    · exact fun null_ => notNull (null_ ▸ isHeld)
    · refine (areItems held isHeld).congr ?_
      exact Schema.recordType?_eq_some isRecord
  obtain ⟨records, areRecords, shapes⟩ := mapItems_exists each
  have yields := (Selects.coercedTo read item body memberType.collectionKind?).yields rows scope
  rw [itemsIn_eq_ok.2 evaluated, ok_bind, areRecords] at yields
  refine ⟨.list records, itemsIn_eq_ok.1 ((yields.eq_ok_iff records).2 rfl), ?_⟩
  exact itemsShape_of_forall fun record isRecord => .inr (shapes record isRecord)

theorem eval_record {sourceElement : String}
    (constructs : mapping.ConstructsFrom rows rowType row construct sourceElement element)
    (single : ty.isCollection = false) (isRecord : mapping.schema.recordType? ty = some sourceElement)
    (typed : read.type.nonNull = ty.nonNull) (evaluated : eval rows scope read = .ok value)
    (mayBe : row.MayBe mapping.schema rowType ty value)
    {body : Expr} (isBody : construct element read depth = .ok body) :
    ∃ result, eval rows scope (emptyWhenNull read (.null (.named element)) body (.named element)) =
        .ok result ∧ (result = .null ∨ mapping.Shapes false element result) := by
  rw [eval_emptyWhenNull, evaluated, ok_bind]
  by_cases present : value = .null
  · subst present
    exact ⟨.null, rfl, .inl rfl⟩
  have isElement : ty.nonNull = .named sourceElement := by
    have named := Schema.recordType?_eq_some isRecord
    rwa [DataType.elementType_of_single single, DataType.nonNull_nonNull] at named
  obtain ⟨record, isRecord, shapes⟩ := constructs read depth body scope isBody
    ⟨typed.trans isElement, value, evaluated, present, mayBe.congr isElement⟩
  simp only [Value.isNull_of_ne_null present, Bool.false_eq_true, if_false]
  exact ⟨record, isRecord, .inr shapes⟩

theorem eval_fit (isRow : Value.IsRow mapping.schema rowType row)
    (constructs : ∀ sourceElement element, mapping.schema.recordType? ty = some sourceElement →
      memberType.typeName? = some element →
        mapping.ConstructsFrom rows rowType row construct sourceElement element)
    (collection : ty.isCollection = memberType.isCollection)
    (records : (mapping.schema.recordType? ty).isSome = (mapping.schema.recordType? memberType).isSome)
    (typed : read.type.nonNull = ty.nonNull) (evaluated : eval rows scope read = .ok value)
    (mayBe : row.MayBe mapping.schema rowType ty value)
    (fits : mapping.fit construct memberType read depth = .ok expr) :
    ∃ result, eval rows scope expr = .ok result ∧ mapping.MemberShapes false memberType result := by
  -- What is primitive is taken over or converted, and any value has its shape.
  have shapesPrimitive (primitive : mapping.schema.targetKind memberType = .ok .primitive)
      (result : Value) : mapping.MemberShapes false memberType result := by
    have noRecord : mapping.schema.recordType? memberType = none := by
      rw [← Option.not_isSome_iff_eq_none, Schema.recordType?_isSome, primitive]
      simp
    simp [MemberShapes, noRecord]
  have source {element : String} (holds : mapping.HoldsRecords memberType element) :
      ∃ sourceElement, mapping.schema.recordType? ty = some sourceElement ∧
        mapping.ConstructsFrom rows rowType row construct sourceElement element := by
    rw [holds.recordType?] at records
    obtain ⟨sourceElement, isSource⟩ := Option.isSome_iff_exists.1 records
    exact ⟨sourceElement, isSource, constructs sourceElement element isSource holds.named⟩
  cases fitsBy_of_fit fits with
  | same primitive _ => exact ⟨value, evaluated, shapesPrimitive primitive value⟩
  | converted primitive _ =>
    refine ⟨convert value memberType, ?_, shapesPrimitive primitive _⟩
    simp only [eval, evaluated, ok_bind]
    rfl
  | items holds many constructed selects =>
    subst selects
    obtain ⟨sourceElement, isSource, constructs⟩ := source holds
    simp only [MemberShapes, holds.recordType?, Option.some.injEq, forall_eq', many, if_true]
    exact eval_items isRow constructs many (collection.trans many) isSource typed evaluated mayBe
      constructed _ _
  | record holds single constructed =>
    obtain ⟨sourceElement, isSource, constructs⟩ := source holds
    simp only [MemberShapes, holds.recordType?, Option.some.injEq, forall_eq', single,
      Bool.false_eq_true, if_false]
    exact eval_record constructs (collection.trans single) isSource typed evaluated mayBe constructed

section Construction

variable {sourceType modelType source' model' : String} {member : MemberDecl} {fuel : Nat}
  {tree : IncludeTree}

theorem eval_bindingValue (isRow : Value.IsRow mapping.schema rowType row)
    (fits : mapping.EveryRead sourceType modelType mapping.Fits)
    (listed : mapping.EveryRead sourceType modelType fun _ _ steps => mapping.Listed steps)
    (meets : mapping.Meets sourceType modelType source' model')
    (constructs : ∀ source' model', mapping.Meets sourceType modelType source' model' →
      mapping.ConstructsFrom rows rowType row construct source' model')
    (lists : mapping.schema.Lists model' member)
    (yields : mapping.YieldsRecord rows rowType row scope source source')
    (bound : mapping.bindingValue parameters construct model' member source depth = .ok expr) :
    ∃ result, eval rows scope expr = .ok result ∧
      mapping.MemberShapes (mapping.suppliedBelow false model' member.name) member.ty result := by
  cases path : mapping.mapPath? model' member.name with
  | none =>
    obtain ⟨name, value, isValue, rfl⟩ := bindingValue_of_parameter path bound
    simp only [suppliedBelow, path, Option.isNone_none, Bool.false_or]
    refine ⟨value, rfl, memberShapes_of_isOf value ?_⟩
    unfold parameterValue at isValue
    split at isValue
    next json _ => exact ⟨json, isValue⟩
    next =>
      cases isValue
      exact Value.isOf_null _ _
  | some names =>
    rw [bindingValue_of_mapPath path] at bound
    obtain ⟨read, reads, bound⟩ := bind_eq_ok.1 bound
    obtain ⟨steps, isSteps, typed⟩ := sourceSteps_of_readMapped yields.typed path reads
    have fits := fits _ _ _ _ meets lists isSteps
    obtain ⟨value, evaluated, mayBe⟩ := eval_readMapped isRow yields path reads isSteps fits.single
      (listed _ _ _ _ meets lists isSteps)
    simp only [suppliedBelow, path, Option.isNone_some, Bool.false_or]
    exact eval_fit isRow (fun _ _ holdsSource holdsModel =>
      constructs _ _ (meets.member lists isSteps holdsSource holdsModel)) fits.collection fits.records
      typed evaluated mayBe bound

theorem eval_construct (isRow : Value.IsRow mapping.schema rowType row)
    (fits : mapping.EveryRead sourceType modelType mapping.Fits)
    (listed : mapping.EveryRead sourceType modelType fun _ _ steps => mapping.Listed steps)
    (meets : mapping.Meets sourceType modelType source' model') :
    mapping.ConstructsFrom rows rowType row (mapping.construct parameters fuel tree) source' model' := by
  induction fuel generalizing tree source' model' with
  | zero =>
    intro source depth expr scope constructed
    simp [Mapping.construct] at constructed
  | succ fuel ih =>
    intro source depth expr scope constructed yields
    obtain ⟨fuel', bindings, members, same, rfl, isListed, binds⟩ := construct_eq_ok constructed
    cases same
    -- A member that nothing is projected into holds its default; the others are read from the record.
    have each : List.Forall₂ (fun member binding => binding.1 = member.name ∧
        ∃ value, eval rows scope binding.2 = .ok value ∧
          mapping.MemberShapes (mapping.suppliedBelow false model' member.name) member.ty value)
        members bindings := by
      refine List.forall₂_iff_zip.2 ⟨binds.length_eq, fun {member binding} isPair => ?_⟩
      obtain ⟨named, ⟨-, isDefault⟩ | ⟨child, -, bound⟩⟩ := (List.forall₂_iff_zip.1 binds).2 isPair
      · rw [isDefault]
        exact ⟨named, _, rfl, memberShapes_default mapping _ member.ty⟩
      · refine ⟨named, ?_⟩
        exact eval_bindingValue isRow fits listed meets (fun _ _ meets => ih meets)
          ⟨members, isListed, (List.of_mem_zip isPair).1⟩ yields bound
    obtain ⟨fields, areFields, shapes⟩ := evalBindings_of_forall₂ each
    have distinct : (fields.map Prod.fst).Nodup := by
      rw [(evalBindings_eq_ok areFields).1, Binds.names binds]
      exact (Schema.members_unique isListed).names_nodup
    refine ⟨.record model' fields, ?_, rfl, members, isListed, fieldsShape_of_forall₂ shapes⟩
    simp only [eval, areFields, ok_bind]
    exact congrArg Except.ok (Value.ofFields_of_nodup model' distinct)

/-- A projection evaluates on all rows, and every result has the shape of the model type. -/
theorem project_evaluates {includes : List Lambda} {projection : Lambda}
    (fits : mapping.EveryRead sourceType modelType mapping.Fits)
    (listed : mapping.EveryRead sourceType modelType fun _ _ steps => mapping.Listed steps)
    (areRows : ∀ row ∈ rows, Value.IsRow mapping.schema sourceType row)
    (projected : mapping.project sourceType modelType includes parameters = .ok projection) :
    ∃ results, Evaluation.sequence rows ((Expr.allRows sourceType).selected projection) = .ok results ∧
      results.length = rows.length ∧ ∀ result ∈ results, mapping.Shapes false modelType result := by
  simp only [project, bind_eq_ok, pure_eq_ok] at projected
  obtain ⟨-, -, tree, -, body, constructed, rfl⟩ := projected
  have each : ∀ row ∈ rows, ∃ record, eval rows [(itemNameAtDepth 0, row)] body = .ok record ∧
      mapping.Shapes false modelType record := by
    intro row isRow
    refine eval_construct (areRows row isRow) fits listed .itself _ _ _ _ constructed ⟨rfl, row, ?_, ?_⟩
    · simp [eval]
    · exact ⟨(areRows row isRow).present, Value.mayBe_row _ _ _⟩
  obtain ⟨results, areResults, shapes⟩ := mapItems_exists each
  have yields : Agree
      (Evaluation.sequence rows ((Expr.allRows sourceType).selected
        ⟨⟨itemNameAtDepth 0, .named sourceType⟩, body⟩))
      (.ok rows >>= mapItems fun row => eval rows [(itemNameAtDepth 0, row)] body) :=
    ((Yields.source rows [] _).select ⟨itemNameAtDepth 0, .named sourceType⟩ body _).sequence
  refine ⟨results, (yields.eq_ok_iff results).2 areResults, ?_, shapes⟩
  exact (mapItems_eq_ok.1 areResults).length_eq.symm

end Construction

end Mapping

def projectDefault (mapping : Mapping) (sourceType modelType : String)
    (parameters : ProjectionParameters) (documents : List Json) : Outcome (Lambda × List Value) := do
  let forest ← Forest.build mapping.schema modelType none ⟨true, none⟩ 4
  let includes ← Include.ofForest mapping.schema modelType forest
  let projection ← mapping.project sourceType modelType includes parameters
  let rows ← documents.mapM fun document => Value.ofJson mapping.schema document (.named sourceType)
  return (projection, rows)

def presentRows (rows : List Value) : Bool :=
  rows.all fun row => !row.isNull && row.itemsPresent

theorem projectDefault_eq_ok {mapping : Mapping} {sourceType modelType : String}
    {parameters : ProjectionParameters} {documents : List Json} {projection : Lambda}
    {rows : List Value}
    (made : projectDefault mapping sourceType modelType parameters documents = .ok (projection, rows))
    (present : presentRows rows = true) :
    (∃ includes, mapping.project sourceType modelType includes parameters = .ok projection) ∧
      ∀ row ∈ rows, Value.IsRow mapping.schema sourceType row := by
  simp only [projectDefault, bind_eq_ok, pure_eq_ok, Prod.mk.injEq] at made
  obtain ⟨_, -, includes, -, projection, projected, rows, read, rfl, rfl⟩ := made
  refine ⟨⟨includes, projected⟩, fun row isRow => ?_⟩
  obtain ⟨document, -, isOf⟩ := exists_of_forall₂ (mapM_eq_ok.1 read).flip isRow
  simp only [presentRows, List.all_eq_true, Bool.and_eq_true, Bool.not_eq_true'] at present
  exact Value.isRow_of_itemsPresent ⟨document, isOf⟩ (present row isRow).1 (present row isRow).2

def billMapping : Mapping where
  schema := ⟨[
    ⟨"Order", .entity, none, [⟨"Code", .scalar .string⟩, ⟨"Customer", .named "Customer"⟩,
      ⟨"Lines", .collection .list (.named "Line")⟩]⟩,
    ⟨"Customer", .entity, none, [⟨"Home", .named "Address"⟩]⟩,
    ⟨"Address", .complex, none, [⟨"City", .scalar .string⟩]⟩,
    ⟨"Line", .complex, none, [⟨"Title", .scalar .string⟩]⟩,
    ⟨"Bill", .entity, none, [⟨"Number", .scalar .string⟩, ⟨"City", .scalar .string⟩,
      ⟨"Home", .named "Address"⟩, ⟨"Lines", .collection .list (.named "Line")⟩,
      ⟨"Region", .scalar .string⟩]⟩]⟩
  maps := [("Bill", ⟨"Order", [("Number", .path ["Code"]),
    ("City", .path ["Customer", "Home", "City"]), ("Home", .path ["Customer", "Home"]),
    ("Region", .parameter "region")]⟩)]

def orders : List Json :=
  [.object [("Code", .string "A"), ("Customer", .null),
      ("Lines", .array [.object [("Title", .string "Bolt")]])],
    .object [("Code", .string "B"), ("Customer", .object [("Home", .null)]), ("Lines", .null)]]

theorem project_evaluates_bills :
    ∃ projection rows results, projectDefault billMapping "Order" "Bill" [] orders =
        .ok (projection, rows) ∧
      Evaluation.sequence rows ((Expr.allRows "Order").selected projection) = .ok results ∧
      results.length = 2 ∧ ∀ result ∈ results, billMapping.Shapes false "Bill" result := by
  obtain ⟨⟨projection, rows⟩, made, test⟩ := exists_of_toOption_any
    (projectDefault billMapping "Order" "Bill" [] orders)
    (fun made => made.2.length == 2 && presentRows made.2) (by rfl)
  simp only [Bool.and_eq_true, beq_iff_eq] at test
  obtain ⟨number, present⟩ := test
  obtain ⟨⟨includes, projected⟩, areRows⟩ := projectDefault_eq_ok made present
  have closed : billMapping.ClosedUnder
      [("Order", "Bill"), ("Address", "Address"), ("Line", "Line")] billMapping.Fits := by
    decide +kernel
  have once : billMapping.schema.DeclaresOnce := by decide +kernel
  obtain ⟨results, evaluated, length, shapes⟩ := Mapping.project_evaluates
    (Mapping.everyRead_of_closed closed (by simp)) (Mapping.everyRead_listed once _ _) areRows projected
  exact ⟨projection, rows, results, made, evaluated, length.trans number, shapes⟩

def twofoldBest : Mapping where
  schema := ⟨[
    ⟨"Club", .entity, none, [⟨"Best", .named "Veteran"⟩, ⟨"Best", .named "Junior"⟩]⟩,
    ⟨"Veteran", .complex, none, [⟨"Medal", .scalar .string⟩]⟩,
    ⟨"Junior", .complex, none, [⟨"Coach", .scalar .string⟩]⟩,
    ⟨"Team", .entity, none, [⟨"Best", .named "Player"⟩]⟩,
    ⟨"Player", .complex, none, [⟨"Medal", .scalar .string⟩]⟩]⟩
  maps := [("Team", ⟨"Club", []⟩), ("Player", ⟨"Veteran", []⟩)]

def suppliedCaptain : Mapping where
  schema := ⟨[
    ⟨"Club", .entity, none, [⟨"Name", .scalar .string⟩]⟩,
    ⟨"Team", .entity, none, [⟨"Captain", .named "Player"⟩]⟩,
    ⟨"Player", .complex, none, [⟨"Pets", .collection .list (.named "Pet")⟩]⟩,
    ⟨"Pet", .entity, none, [⟨"Name", .scalar .string⟩]⟩]⟩
  maps := [("Team", ⟨"Club", [("Captain", .parameter "captain")]⟩)]

def failsWith (cause : Error) : Outcome (List Value) → Bool
  | .error other => other == cause
  | .ok _ => false

def captainLacksPets : Outcome (List Value) → Bool
  | .ok [.record "Team" [("Captain", .record "Player" [("Pets", .null)])]] => true
  | _ => false

/-- Rows hold the last declaration of a member, while mapped members are read as the first one. And in
a record that a parameter supplies a collection may be null. -/
theorem not_project_evaluates_twofold :
    (twofoldBest.EveryRead "Club" "Team" twofoldBest.Fits ∧
      ∃ projection rows, projectDefault twofoldBest "Club" "Team" []
          [.object [("Best", .object [("Coach", .string "Ann")])]] = .ok (projection, rows) ∧
        (∀ row ∈ rows, Value.IsRow twofoldBest.schema "Club" row) ∧
        Evaluation.sequence rows ((Expr.allRows "Club").selected projection) =
          .error (.evaluation "type Junior has no member Medal")) ∧
    suppliedCaptain.schema.DeclaresOnce ∧
      suppliedCaptain.EveryRead "Club" "Team" suppliedCaptain.Fits ∧
      ∃ projection rows, projectDefault suppliedCaptain "Club" "Team"
          [("captain", .object [("Pets", .null)])] [.object [("Name", .string "Brann")]] =
            .ok (projection, rows) ∧
        (∀ row ∈ rows, Value.IsRow suppliedCaptain.schema "Club" row) ∧
        Evaluation.sequence rows ((Expr.allRows "Club").selected projection) =
          .ok [.record "Team" [("Captain", .record "Player" [("Pets", .null)])]] := by
  refine ⟨⟨?_, ?_⟩, by decide +kernel, ?_, ?_⟩
  · have closed : twofoldBest.ClosedUnder [("Club", "Team"), ("Veteran", "Player")]
        twofoldBest.Fits := by
      decide +kernel
    exact Mapping.everyRead_of_closed closed (by simp)
  · obtain ⟨⟨projection, rows⟩, made, test⟩ := exists_of_toOption_any
      (projectDefault twofoldBest "Club" "Team" []
        [.object [("Best", .object [("Coach", .string "Ann")])]])
      (fun made => presentRows made.2 && failsWith (.evaluation "type Junior has no member Medal")
        (Evaluation.sequence made.2 ((Expr.allRows "Club").selected made.1))) (by rfl)
    obtain ⟨present, fails⟩ := Bool.and_eq_true_iff.1 test
    refine ⟨projection, rows, made, (projectDefault_eq_ok made present).2, ?_⟩
    unfold failsWith at fails
    split at fails
    next cause failed => rw [failed, beq_iff_eq.1 fails]
    next => contradiction
  · have closed : suppliedCaptain.ClosedUnder [("Club", "Team")] suppliedCaptain.Fits := by
      decide +kernel
    exact Mapping.everyRead_of_closed closed (by simp)
  · obtain ⟨⟨projection, rows⟩, made, test⟩ := exists_of_toOption_any
      (projectDefault suppliedCaptain "Club" "Team" [("captain", .object [("Pets", .null)])]
        [.object [("Name", .string "Brann")]])
      (fun made => presentRows made.2 &&
        captainLacksPets (Evaluation.sequence made.2 ((Expr.allRows "Club").selected made.1)))
      (by rfl)
    obtain ⟨present, lacks⟩ := Bool.and_eq_true_iff.1 test
    refine ⟨projection, rows, made, (projectDefault_eq_ok made present).2, ?_⟩
    unfold captainLacksPets at lacks
    split at lacks
    next same => exact same
    next => contradiction

end QueryProjection
