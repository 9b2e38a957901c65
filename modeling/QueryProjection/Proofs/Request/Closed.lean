import QueryProjection.Proofs.Request.Calls

set_option autoImplicit false

namespace QueryProjection

open Outcome

def unshadowedRules : PlaceRules Declared where
  reads _ _ := True
  constructs _ := True
  opens declared param inside :=
    (∀ other ∈ declared, other.name ≠ param.name) ∧ inside = param :: declared

def unreservedRules : PlaceRules Unit where
  reads _ param := param.isReserved = false
  constructs _ := True
  opens _ param _ := param.isReserved = false

namespace Mapping

theorem itemNameAtDepth_injective {depth depth' : Nat}
    (same : itemNameAtDepth depth = itemNameAtDepth depth') : depth = depth' := by
  have lengths := congrArg (fun name : String => name.toList.length) same
  simpa [itemNameAtDepth] using lengths

theorem itemNameAtDepth_ne_elementName (depth : Nat) : itemNameAtDepth depth ≠ elementName := by
  intro same
  have heads := congrArg (fun name : String => name.toList.head?) same
  simp [itemNameAtDepth, elementName] at heads

theorem layerRules_admitsItems :
    AdmitsItems layerRules (fun depth layer => layer = .items (depth + 1)) where
  constructs := by
    rintro depth _ rfl
    exact Layer.noConfusion
  opens := by
    rintro depth _ rfl ty
    exact ⟨.items (depth + 2), .items (depth + 1), rfl, trivial⟩

end Mapping

namespace Renaming

variable {names : Renaming} {params : List Parameter}

theorem SeparatesNames.visibleIn (separates : names.SeparatesNames params) {param : Parameter}
    {declared : Declared} (within : declared ⊆ params) (visible : param.VisibleIn declared) :
    (renamed names param).VisibleIn (declared.map (renamed names)) := by
  induction declared with
  | nil => simp [Parameter.VisibleIn] at visible
  | cons declaration rest ih =>
    obtain ⟨isDeclaration, within⟩ := List.cons_subset.1 within
    rw [List.map_cons, Parameter.visibleIn_cons]
    rcases Parameter.visibleIn_cons.1 visible with rfl | ⟨apart, outside⟩
    · exact .inl rfl
    · have isParam := within (Parameter.mem_of_visibleIn outside)
      exact .inr ⟨fun same => apart (separates _ isDeclaration _ isParam same), ih within outside⟩

theorem SeparatesNames.carries_scopeRules (separates : names.SeparatesNames params) :
    Expr.scopeRules.Carries Expr.scopeRules names params fun declared declared' =>
      declared ⊆ params ∧ declared' = declared.map (renamed names) where
  reads := by
    rintro declared _ param ⟨within, rfl⟩ visible
    exact separates.visibleIn within visible
  constructs _ _ := trivial
  opens := by
    rintro declared _ param _ ⟨within, rfl⟩ isParam rfl
    exact ⟨_, rfl, List.cons_subset.2 ⟨isParam, within⟩, rfl⟩

def DeclaresItems (names : Renaming) (params : List Parameter) : Layer → Declared → Prop
  | .element, _ => True
  | .items depth, declared => ∀ other ∈ declared, ∃ origin ∈ params, ∃ above < depth,
      origin.name = Mapping.itemNameAtDepth above ∧ renamed names origin = other

theorem SeparatesNames.carries_layerRules (separates : names.SeparatesNames params) :
    layerRules.Carries unshadowedRules names params (DeclaresItems names params) where
  reads _ _ := trivial
  constructs _ _ := trivial
  opens := by
    intro layer declared param inside declares isParam opens
    have opens : layer.Opens param.name inside := opens
    generalize named : param.name = name at opens
    refine ⟨renamed names param :: declared, ⟨?_, rfl⟩, ?_⟩
    · intro other isOther same
      cases opens with
      | element depth =>
        obtain ⟨origin, isOrigin, above, -, isItem, rfl⟩ := declares other isOther
        -- If the new names were the same, the old ones would be, and those tell the layers apart.
        have equal := separates origin isOrigin param isParam same
        rw [isItem, named] at equal
        exact Mapping.itemNameAtDepth_ne_elementName above equal
      | items depth =>
        obtain ⟨origin, isOrigin, above, isAbove, isItem, rfl⟩ := declares other isOther
        have equal := separates origin isOrigin param isParam same
        rw [isItem, named] at equal
        have equal := Mapping.itemNameAtDepth_injective equal
        omega
    · cases opens with
      | element depth => trivial
      | items depth =>
        refine List.forall_mem_cons.2 ⟨⟨param, isParam, depth, by omega, named, rfl⟩, ?_⟩
        intro other isOther
        obtain ⟨origin, isOrigin, above, isAbove, isItem, same⟩ := declares other isOther
        exact ⟨origin, isOrigin, above, by omega, isItem, same⟩

end Renaming

namespace Expr

theorem carries_unreservedRules (expr : Expr) :
    scopeRules.Carries unreservedRules expr.renamingOf expr.lambdaParameters
      fun declared _ => declared ⊆ expr.lambdaParameters where
  reads within visible := isReserved_renamed (within (Parameter.mem_of_visibleIn visible))
  constructs _ _ := trivial
  opens := by
    rintro declared _ param _ within isParam rfl
    exact ⟨(), isReserved_renamed isParam, List.cons_subset.2 ⟨isParam, within⟩⟩

variable {expr : Expr}

theorem withoutReservedNames_scopedIn (inScope : expr.ScopedIn []) :
    expr.withoutReservedNames.ScopedIn [] := by
  rw [← obeys_scopeRules] at inScope ⊢
  exact inScope.rename (renamingOf_separatesNames expr).carries_scopeRules expr
    ⟨List.nil_subset _, rfl⟩ (List.Subset.refl _)

theorem withoutReservedNames_unshadowed (layered : expr.Obeys layerRules (.items 0)) :
    expr.withoutReservedNames.Obeys unshadowedRules [] := by
  have outside : Renaming.DeclaresItems expr.renamingOf expr.lambdaParameters (.items 0) [] := by
    simp [Renaming.DeclaresItems]
  exact layered.rename (renamingOf_separatesNames expr).carries_layerRules expr outside
    (List.Subset.refl _)

theorem withoutReservedNames_unreserved (inScope : expr.ScopedIn []) :
    expr.withoutReservedNames.Obeys unreservedRules () := by
  rw [← obeys_scopeRules] at inScope
  exact inScope.rename (carries_unreservedRules expr) expr (List.nil_subset _) (List.Subset.refl _)

end Expr

theorem Request.levels_onElement {request : Request} {context : BindingContext}
    {levels : List OrderLevel} (areLevels : request.levels context = .ok levels) :
    ∀ level ∈ levels, level.key.OnElement := by
  obtain ⟨bound, areBound, mapped⟩ := bind_eq_ok.1 areLevels
  exact Mapping.levelsToSource_onElement (Binder.levels_onElement areBound) mapped

theorem Request.filtered_layered {request : Request} {context : BindingContext}
    {sourceType elementType : String} {expr : Expr}
    (applied : request.filtered context sourceType (.allRows elementType) = .ok expr) :
    expr.Obeys layerRules (.items 0) := by
  match present : request.options.filter with
  | none =>
    simp only [filtered, present, Except.ok.injEq] at applied
    exact applied ▸ trivial
  | some filter =>
    simp only [filtered, present, bind_eq_ok, pure_eq_ok] at applied
    obtain ⟨predicate, bound, mapped, translated, rfl⟩ := applied
    obtain ⟨isMapped, -⟩ := Mapping.predicateToSource_eq_ok translated
    have onElement := Mapping.lambdaToSource_onElement (Filter.bind_onElement bound) isMapped
    exact ⟨trivial, layerRules_admitsElements mapped onElement (.items 0) Layer.noConfusion, trivial⟩

namespace FilteredRequest

variable {filtered : FilteredRequest}

theorem selector_layered {selector : Lambda} (selects : filtered.selector = .ok selector) :
    (Expr.ofLambda selector).Obeys layerRules (.items 0) := by
  simp only [FilteredRequest.selector, bind_eq_ok, pure_eq_ok] at selects
  obtain ⟨forest, -, includes, -, projection, projects, body, refines, rfl⟩ := selects
  obtain ⟨isRoot, layered⟩ := Mapping.project_obeys Mapping.layerRules_admitsItems rfl trivial projects
  obtain ⟨middle, filters, arranges⟩ := bind_eq_ok.1 refines
  have refined := Refiner.applyAll_obeys layerRules_admitsElements
    (Refiner.applyAll_obeys layerRules_admitsElements layered filters) arranges
  refine ⟨.items 1, ?_, refined⟩
  rw [isRoot]
  exact .items 0

theorem projected_layered (applied : filtered.Applied) {query : Query}
    (projected : filtered.projected = .ok query) :
    ∃ expr : Expr, query.expression = expr.withoutReservedNames ∧ expr.ScopedIn [] ∧
      expr.Obeys layerRules (.items 0) := by
  obtain ⟨elementType, applied⟩ := applied
  obtain ⟨inScope, free, -⟩ := Request.filtered_spec applied
  obtain ⟨expr, selector, ty, arranged, selects, rfl⟩ := projected_eq_ok free projected
  obtain ⟨levels, areLevels, -, keys, -, arranges⟩ := arranged_eq_ok arranged
  refine ⟨_, rfl, ⟨arranges.scopedIn [] keys.closed inScope,
    Expr.scopedIn_of_closed_lambda (selector_closed selects) [], trivial⟩, ?_⟩
  refine ⟨arranges.obeys (fun level isLevel => ?_) (Request.filtered_layered applied),
    selector_layered selects, trivial⟩
  exact layerRules_admitsElements level.key (Request.levels_onElement areLevels level isLevel)
    (.items 0) Layer.noConfusion

end FilteredRequest

namespace Request

/-- The expression of a projected query is closed, no declaration in it hides another, and it has no
reserved name. -/
theorem project_closed {request : Request} {provider : Provider} {elementType : String}
    {query : Query} {before after : RunState}
    (ran : (request.project (.ofProvider provider elementType)).run before = .ok query after) :
    query.expression.ScopedIn [] ∧ query.expression.Obeys unshadowedRules [] ∧
      query.expression.Obeys unreservedRules () := by
  obtain ⟨filtered, isApplied, projected⟩ := projected_of_project ran
  obtain ⟨expr, isExpr, inScope, layered⟩ := FilteredRequest.projected_layered
    (applied_of_applyFilter isApplied) projected
  rw [isExpr]
  exact ⟨Expr.withoutReservedNames_scopedIn inScope, Expr.withoutReservedNames_unshadowed layered,
    Expr.withoutReservedNames_unreserved inScope⟩

theorem project_closed_bestPlayer :
    ∃ query after, (bestPlayerPage.project (.ofProvider (MemoryRows.ofRows oneClub none).provider
        "Club")).run ⟨.idle, .fresh, []⟩ = .ok query after ∧
      query.expression.lambdaParameters.map Parameter.name =
        ["it", "it", "x", "it0", "it0", "x0", "it0", "x00"] ∧
      query.expression.ScopedIn [] ∧ query.expression.Obeys unshadowedRules [] ∧
        query.expression.Obeys unreservedRules () := by
  have ends : Run.endsWith (bestPlayerPage.project (.ofProvider (MemoryRows.ofRows oneClub
      none).provider "Club")) ⟨.idle, .fresh, []⟩
      (fun query => query.expression.lambdaParameters.map Parameter.name ==
        ["it", "it", "x", "it0", "it0", "x0", "it0", "x00"]) = true := by
    simp only [project, applyFilter, check_bestPlayerPage, ok_bind]
    decide +kernel
  obtain ⟨query, after, ran, names⟩ := Run.exists_of_endsWith ends
  exact ⟨query, after, ran, beq_iff_eq.1 names, project_closed ran⟩

end Request

end QueryProjection
