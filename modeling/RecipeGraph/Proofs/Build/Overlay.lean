/-
# Building under an overlay

Some changes of a level go unnoticed while more is built in it: another name, another place in the
hierarchy, registries that already hold something. An overlay is such a change. It does not matter
whether it is put over a level before statements are built there or afterwards.

An overlay may let a lookup succeed that would have failed without it, or have an edge refused with
another message. The warnings given in such a case tell of it. So an overlay comes with the codes of
the warnings that must not have been given, and with what has to hold of the finished level for its
lookups to agree.
-/

import RecipeGraph.Proofs.Build.Growth

namespace RecipeGraph

variable {σ : Type}

/-- A change of levels that commutes with whatever a builder does to a level, and that lookups do not
notice. Where the answers to a lookup may differ, a warning with one of the silent codes is given
without the overlay. -/
structure Dag.Overlay (overlaid : Dag → Dag) (silent : ErrorCode → Prop) (fits : Dag → Prop) :
    Prop where
  addNode : ∀ {dag : Dag} (node : Node), dag.Tidy →
    overlaid (dag.addNode node) = (overlaid dag).addNode node
  addEdge : ∀ {dag : Dag} (edge : Edge), dag.Tidy →
    (overlaid dag).addEdge edge = (dag.addEdge edge).map overlaid ∨
      (∃ reason, dag.addEdge edge = .error reason) ∧ silent .malformedEdge
  attach : ∀ {dag : Dag} (child : Dag), dag.Tidy →
    overlaid (dag.attach child) = (overlaid dag).attach child
  merge : ∀ {dag : Dag} (other : Dag), dag.Tidy →
    overlaid (dag.merge other) = (overlaid dag).merge other
  bind : ∀ {dag : Dag} (name : String) (id : Id) (style : Option Style), dag.Tidy →
    overlaid ((dag.setVariable name id).setVariableStyle name style) =
      ((overlaid dag).setVariable name id).setVariableStyle name style
  setStyle : ∀ {dag : Dag} (name : String) (properties : StyleProperties), dag.Tidy →
    overlaid (dag.setStyle name properties) = (overlaid dag).setStyle name properties
  bindStyles : ∀ {dag : Dag} (keyword : String) (tags : List QualifiedPath), dag.Tidy →
    overlaid (dag.bindStyles keyword tags) = (overlaid dag).bindStyles keyword tags
  addImport : ∀ {dag : Dag} (location : String), dag.Tidy →
    overlaid (dag.addImport location) = (overlaid dag).addImport location
  producer? : ∀ {dag : Dag} (path : QualifiedPath), dag.Tidy → fits dag →
    (overlaid dag).producer? path = dag.producer? path ∨
      dag.producer? path = none ∧ silent .undefinedVariable ∧ silent .unresolvedPath
  variableStyle? : ∀ {dag : Dag} {path : QualifiedPath} {id : Id}, dag.Tidy → fits dag →
    dag.producer? path = some id → (overlaid dag).variableStyle? path = dag.variableStyle? path
  style? : ∀ {dag : Dag} (tag : QualifiedPath), dag.Tidy → fits dag →
    (overlaid dag).style? tag = dag.style? tag ∨ dag.style? tag = none ∧ silent .undefinedStyleTag
  fits_of_change : ∀ {named : String → Prop} {absorbed : Dag → Prop} {dag changed : Dag},
    dag.Change named absorbed changed → fits changed → fits dag

/-! ### Overlays that lookups cannot see -/

namespace Dag

/-- The level under another name and in another place, with other locations imported. -/
def redress (name : String → String) (parent : Option Id → Option Id)
    (imports : OrderedSet String → OrderedSet String) (dag : Dag) : Dag :=
  { dag with name := name dag.name, parent := parent dag.parent, imports := imports dag.imports }

variable {name : String → String} {parent : Option Id → Option Id}
  {imports : OrderedSet String → OrderedSet String}

theorem variableStyle?_redress (dag : Dag) (path : QualifiedPath) :
    (dag.redress name parent imports).variableStyle? path = dag.variableStyle? path := by
  obtain ⟨segments⟩ := path
  match segments with
  | [] => rfl
  | [_] => rfl
  | _ :: _ :: _ => rfl

theorem style?_redress (dag : Dag) (tag : QualifiedPath) :
    (dag.redress name parent imports).style? tag = dag.style? tag := by
  obtain ⟨segments⟩ := tag
  match segments with
  | [] => rfl
  | [_] => rfl
  | _ :: _ :: _ => rfl

theorem insertAll_commutes
    (commutes : ∀ set location, imports (set.insert location) = (imports set).insert location)
    (set : OrderedSet String) (locations : List String) :
    imports (set.insertAll locations) = (imports set).insertAll locations := by
  induction locations generalizing set with
  | nil => rfl
  | cons location rest step => rw [OrderedSet.insertAll, step, commutes, OrderedSet.insertAll]

/-- Name, place and imported locations go unnoticed; the name shows only in the warning about an edge
that is refused. -/
theorem overlay_redress
    (commutes : ∀ set location, imports (set.insert location) = (imports set).insert location) :
    Overlay (redress name parent imports) (· = .malformedEdge) fun _ => True where
  addNode _ _ := rfl
  addEdge {dag} edge _ := by
    have endpoint : ∀ id, (dag.redress name parent imports).hasEndpoint id = dag.hasEndpoint id :=
      fun _ => rfl
    unfold addEdge
    rw [endpoint, endpoint]
    split
    · exact .inr ⟨⟨_, rfl⟩, rfl⟩
    · split
      · exact .inr ⟨⟨_, rfl⟩, rfl⟩
      · exact .inl rfl
  attach _ _ := rfl
  merge {dag} other _ := by
    have imported : imports (dag.imports.extend other.imports) =
        (imports dag.imports).extend other.imports :=
      insertAll_commutes commutes dag.imports other.imports.members
    simp only [merge, attachAll_eq, redress, imported]
  bind _ _ _ _ := rfl
  setStyle _ _ _ := rfl
  bindStyles _ _ _ := rfl
  addImport {dag} location _ := by
    simp only [addImport, redress, commutes]
  producer? _ _ _ := .inl rfl
  variableStyle? _ _ _ := variableStyle?_redress _ _
  style? tag _ _ := .inl (style?_redress _ tag)
  fits_of_change _ _ := trivial

/-- Where a level is nested goes unnoticed. -/
theorem overlay_withParent (parent : Id) :
    Overlay (·.withParent parent) (· = .malformedEdge) fun _ => True := by
  have same : (·.withParent parent) =
      redress (fun name => name) (fun _ => some parent) fun imports => imports := rfl
  rw [same]
  exact overlay_redress fun _ _ => rfl

end Dag

namespace Work

/-- The work with an overlay over its level, and with warnings that had been given before. -/
def under (work : Work σ) (overlaid : Dag → Dag) (before : List Diagnostic) : Work σ :=
  { work with level := overlaid work.level, found := ⟨before ++ work.found.entries⟩ }

/-- No warning has been given that has to be silent, and the level fits. -/
structure Calm (silent : ErrorCode → Prop) (fits : Dag → Prop) (work : Work σ) : Prop where
  quiet : ∀ diagnostic ∈ work.found.entries, ∀ code, diagnostic.code = some code → ¬ silent code
  fits : fits work.level

section Overlay

variable {overlaid : Dag → Dag} {silent : ErrorCode → Prop} {fits : Dag → Prop}
  {named : String → Prop} {absorbed : Dag → Prop} {work after : Work σ} {before : List Diagnostic}

/-- What is calm in the end was calm before. -/
theorem Calm.of_grows (overlay : Dag.Overlay overlaid silent fits) (calm : after.Calm silent fits)
    (grown : work.Grows named absorbed after) : work.Calm silent fits where
  quiet := fun diagnostic held => calm.quiet diagnostic (grown.found held)
  fits := by
    have backwards : ∀ {level last : Dag}, level.Grows named absorbed last → fits last →
        fits level := by
      intro level last grown
      induction grown with
      | refl => exact fun held => held
      | tail _ change step => exact fun held => step (overlay.fits_of_change change held)
    exact backwards grown.level calm.fits

/-- A warning that must not be given is not given. -/
theorem Calm.not_reported {warning : Warning} (calm : (work.report warning).Calm silent fits)
    {code : ErrorCode} (same : warning.diagnostic.code = some code) : ¬ silent code :=
  calm.quiet _ (List.mem_append_right _ (List.mem_singleton.2 rfl)) code same

theorem Calm.not_unresolved {path : Spanned QualifiedPath}
    (calm : (work.report (.unresolved path)).Calm silent fits) (plain : silent .undefinedVariable)
    (qualified : silent .unresolvedPath) : False := by
  unfold Warning.unresolved at calm
  split at calm
  · exact calm.not_reported rfl qualified
  · exact calm.not_reported rfl plain

theorem under_report (warning : Warning) :
    (work.under overlaid before).report warning = (work.report warning).under overlaid before := by
  have found : DiagnosticLog.emit ⟨before ++ work.found.entries⟩ warning.diagnostic =
      ⟨before ++ (work.found.emit warning.diagnostic).entries⟩ :=
    congrArg DiagnosticLog.mk (List.append_assoc _ _ _)
  unfold report under
  rw [found]

/-- Connecting an argument takes an identifier, and the level accepts the edge or refuses it. -/
theorem connect_edgeOf (target : Id) (incoming : Incoming) (work : Work σ) :
    work.connect target incoming =
      match work.level.addEdge (edgeOf work.freshId.1 target incoming) with
      | .ok level => { work.freshId.2 with level := level }
      | .error reason => work.freshId.2.report (.edgeDropped reason incoming.span) := rfl

section Steps

variable (overlay : Dag.Overlay overlaid silent fits) (tidy : work.level.Tidy)

include overlay tidy

theorem under_openNode (name : String) (style : Option StyleBlock) :
    (work.under overlaid before).openNode name style =
      ((work.openNode name style).1, (work.openNode name style).2.under overlaid before) := by
  have added := overlay.addNode ⟨work.freshId.1, name, elementStyle style⟩ tidy
  exact congrArg (fun level => ((work.freshId.1, { work.freshId.2.under overlaid before with
    level := level }) : Id × Work σ)) added.symm

theorem under_connect {target : Id} {incoming : Incoming}
    (calm : (work.connect target incoming).Calm silent fits) :
    (work.under overlaid before).connect target incoming =
      (work.connect target incoming).under overlaid before := by
  rw [connect_edgeOf] at calm
  rw [connect_edgeOf, connect_edgeOf]
  rcases overlay.addEdge (edgeOf work.freshId.1 target incoming) tidy
    with same | ⟨⟨reason, refused⟩, silenced⟩
  · have same : (work.under overlaid before).level.addEdge
        (edgeOf (work.under overlaid before).freshId.1 target incoming) = _ := same
    rw [same]
    cases work.level.addEdge (edgeOf work.freshId.1 target incoming) with
    | ok level => rfl
    | error reason =>
        have reported :
            (work.freshId.2.under overlaid before).report (.edgeDropped reason incoming.span) =
            (work.freshId.2.report (.edgeDropped reason incoming.span)).under overlaid before :=
          under_report _
        exact reported
  · rw [refused] at calm
    exact absurd silenced (calm.not_reported rfl)

theorem under_connectAll {target : Id} {incoming : List Incoming}
    (calm : (work.connectAll target incoming).Calm silent fits) :
    (work.under overlaid before).connectAll target incoming =
      (work.connectAll target incoming).under overlaid before := by
  induction incoming generalizing work with
  | nil => rfl
  | cons argument rest step =>
      have grown : work.Grows (fun _ => True) (fun _ => True) (work.connect target argument) :=
        grows_connect _ _ work target argument
      have here := calm.of_grows overlay
        (grows_connectAll (fun _ => True) (fun _ => True) (work.connect target argument) target rest)
      rw [connectAll, under_connect overlay tidy here, step (grown.level.tidy tidy) calm]
      rfl

theorem under_lookUp {path : Spanned QualifiedPath}
    (calm : (work.lookUp path).2.Calm silent fits) :
    (work.under overlaid before).lookUp path =
      ((work.lookUp path).1, (work.lookUp path).2.under overlaid before) := by
  have here := calm.of_grows overlay (grows_lookUp (fun _ => True) (fun _ => True) work path)
  unfold lookUp at calm ⊢
  rcases overlay.producer? path.value tidy here.fits with same | ⟨missing, plain, qualified⟩
  · have same : (work.under overlaid before).level.producer? path.value = _ := same
    rw [same]
    cases found : work.level.producer? path.value with
    | none => exact congrArg (Prod.mk none) (under_report _)
    | some source =>
        have style : (work.under overlaid before).level.variableStyle? path.value = _ :=
          overlay.variableStyle? tidy here.fits found
        simp only [style]
  · rw [missing] at calm
    exact (calm.not_unresolved plain qualified).elim

end Steps

section Statements

variable (overlay : Dag.Overlay overlaid silent fits)

include overlay

/-- A call's node is opened, its arguments are gathered, and their edges are added. -/
theorem under_finishCall (tidy : work.level.Tidy) (name : String) (style : Option StyleBlock)
    {arguments : List Argument}
    (gathers : ∀ {work : Work σ}, work.level.Tidy → (gather arguments work).2.Calm silent fits →
      gather arguments (work.under overlaid before) =
        ((gather arguments work).1, (gather arguments work).2.under overlaid before))
    (calm : (let opened := work.openNode name style
      let gathered := gather arguments opened.2
      gathered.2.connectAll opened.1 gathered.1).Calm silent fits) :
    (let opened := (work.under overlaid before).openNode name style
      let gathered := gather arguments opened.2
      (opened.1, gathered.2.connectAll opened.1 gathered.1)) =
      (let opened := work.openNode name style
      let gathered := gather arguments opened.2
      (opened.1, (gathered.2.connectAll opened.1 gathered.1).under overlaid before)) := by
  have opened := grows_openNode (fun _ => True) (fun _ => True) work name style
  have gathered := grows_gather (fun _ => True) (fun _ => True) arguments (work.openNode name style).2
  have tidy' := opened.level.tidy tidy
  have connected := grows_connectAll (fun _ => True) (fun _ => True)
    (gather arguments (work.openNode name style).2).2 (work.openNode name style).1
    (gather arguments (work.openNode name style).2).1
  dsimp only at calm ⊢
  rw [under_openNode overlay tidy, gathers tidy' (calm.of_grows overlay connected),
    under_connectAll overlay (gathered.level.tidy tidy') calm]

mutual

theorem under_gatherOne : ∀ (argument : Argument) {work : Work σ}, work.level.Tidy →
    (gatherOne argument work).2.Calm silent fits →
    gatherOne argument (work.under overlaid before) =
      ((gatherOne argument work).1, (gatherOne argument work).2.under overlaid before)
  | .call ⟨⟨name, arguments, style⟩, span⟩, _, tidy, calm =>
    congrArg (fun pair : Id × Work σ => (some (Incoming.mk pair.1 "" .plain span), pair.2))
      (under_finishCall overlay tidy name.value style
        (fun tidy calm => under_gather arguments tidy calm) calm)
  | .reference _, _, tidy, calm => under_lookUp overlay tidy calm
termination_by structural argument => argument

theorem under_gather : ∀ (arguments : List Argument) {work : Work σ}, work.level.Tidy →
    (gather arguments work).2.Calm silent fits →
    gather arguments (work.under overlaid before) =
      ((gather arguments work).1, (gather arguments work).2.under overlaid before)
  | [], _, _, _ => rfl
  | argument :: rest, work, tidy, calm => by
      have first := grows_gatherOne (fun _ => True) (fun _ => True) argument work
      have others := grows_gather (fun _ => True) (fun _ => True) rest (gatherOne argument work).2
      simp only [gather, under_gatherOne argument tidy (calm.of_grows overlay others),
        under_gather rest (first.level.tidy tidy) calm]
termination_by structural arguments => arguments

end

theorem under_placeCall (tidy : work.level.Tidy) (made : Call)
    (calm : (work.placeCall made).2.Calm silent fits) :
    (work.under overlaid before).placeCall made =
      ((work.placeCall made).1, (work.placeCall made).2.under overlaid before) :=
  under_finishCall overlay tidy made.name.value made.style
    (fun tidy calm => under_gather overlay made.arguments tidy calm) calm

theorem under_bindTarget (tidy : work.level.Tidy) (id : Id) (target : Target) :
    (work.under overlaid before).bindTarget id target =
      (work.bindTarget id target).under overlaid before := by
  have bound := overlay.bind target.name.value id
    (target.style.map fun block => elementStyle (some block)) tidy
  exact congrArg (fun level => { work.under overlaid before with level := level }) bound.symm

theorem under_bindTargets (tidy : work.level.Tidy) {id : Id} (held : id ∈ work.level.elements)
    (targets : List Target) :
    (work.under overlaid before).bindTargets targets id =
      (work.bindTargets targets id).under overlaid before := by
  induction targets generalizing work with
  | nil => rfl
  | cons target rest step =>
      have bound := grows_bindTarget (fun _ => True) (fun _ => True) held target
      have later := step (bound.level.tidy tidy) (bound.level.elements_subset held)
      rw [← under_bindTarget overlay tidy] at later
      exact later

theorem under_placeAlias (tidy : work.level.Tidy) (target : Target) (path : Spanned QualifiedPath)
    (calm : (work.placeAlias target path).Calm silent fits) :
    (work.under overlaid before).placeAlias target path =
      (work.placeAlias target path).under overlaid before := by
  have here := calm.of_grows overlay (grows_placeAlias (fun _ => True) (fun _ => True) target
    fun _ found => tidy.producer?_mem found)
  unfold placeAlias at calm ⊢
  rcases overlay.producer? path.value tidy here.fits with same | ⟨missing, plain, qualified⟩
  · have same : (work.under overlaid before).level.producer? path.value = _ := same
    rw [same]
    cases work.level.producer? path.value with
    | none => exact under_report _
    | some id => exact under_bindTarget overlay tidy id target
  · rw [missing] at calm
    exact (calm.not_unresolved plain qualified).elim

end Statements

/-! ### Named styles -/

/-- A tag that is not known at the level is missing from whatever is flattened there. -/
theorem mem_missing {dag : Dag} {tags : List (Spanned QualifiedPath)} {tag : Spanned QualifiedPath}
    (held : tag ∈ tags) (unknown : dag.style? tag.value = none) (result : Flattened) :
    tag ∈ (tags.foldl (Flattened.addTag dag) result).missing := by
  have kept : ∀ (tags : List (Spanned QualifiedPath)) (result : Flattened), tag ∈ result.missing →
      tag ∈ (tags.foldl (Flattened.addTag dag) result).missing := by
    intro tags
    induction tags with
    | nil => exact fun _ held => held
    | cons other rest step =>
        intro result held
        refine step _ ?_
        unfold Flattened.addTag
        split
        · exact held
        · exact List.mem_append_left _ held
  induction tags generalizing result with
  | nil => nomatch held
  | cons other rest step =>
      rcases List.mem_cons.1 held with rfl | later
      · refine kept rest _ ?_
        rw [Flattened.addTag, unknown]
        exact List.mem_append_right _ (List.mem_singleton.2 rfl)
      · exact step later _

/-- Whatever tags are missing is reported. -/
theorem mem_reportAll {tags : List (Spanned QualifiedPath)} {tag : Spanned QualifiedPath}
    (held : tag ∈ tags) :
    (Warning.undefinedStyleTag tag).diagnostic ∈
      (tags.foldl (fun work tag => work.report (.undefinedStyleTag tag)) work).found.entries := by
  rw [(reportTags_eq tags work).2.1]
  exact List.mem_append_right _ (List.mem_map_of_mem held)

theorem under_reportAll (tags : List (Spanned QualifiedPath)) :
    tags.foldl (fun work tag => work.report (.undefinedStyleTag tag)) (work.under overlaid before) =
      (tags.foldl (fun work tag => work.report (.undefinedStyleTag tag)) work).under overlaid
        before := by
  induction tags generalizing work with
  | nil => rfl
  | cons tag rest step => rw [List.foldl_cons, List.foldl_cons, under_report, step]

theorem under_placeStyle (overlay : Dag.Overlay overlaid silent fits) (tidy : work.level.Tidy)
    (name : Spanned String) (block : StyleBlock)
    (calm : (work.placeStyle name block).Calm silent fits) :
    (work.under overlaid before).placeStyle name block =
      (work.placeStyle name block).under overlaid before := by
  have grown := grows_reportAll (fun _ => True) (fun _ => True) work
    (block.flatten work.level).missing
  have placed : work.Grows (fun _ => True) (fun _ => True) (work.placeStyle name block) :=
    grows_placeStyle _ _ work trivial block
  have here := calm.of_grows overlay placed
  have known : ∀ tag ∈ block.tags,
      (overlaid work.level).style? tag.value = work.level.style? tag.value := by
    intro tag held
    rcases overlay.style? tag.value tidy here.fits with same | ⟨unknown, silenced⟩
    · exact same
    · exact absurd silenced (calm.quiet _ (mem_reportAll (mem_missing held unknown _)) _ rfl)
  have flattened : block.flatten (overlaid work.level) = block.flatten work.level := by
    have tags : block.tags.foldl (Flattened.addTag (overlaid work.level)) ⟨.empty, []⟩ =
        block.tags.foldl (Flattened.addTag work.level) ⟨.empty, []⟩ := by
      refine List.foldl_ext _ _ _ fun result tag held => ?_
      rw [Flattened.addTag, Flattened.addTag, known tag held]
    simp only [StyleBlock.flatten, tags]
  unfold placeStyle
  have flattened' : block.flatten (work.under overlaid before).level = _ := flattened
  dsimp only
  rw [flattened', under_reportAll]
  have registered := overlay.setStyle name.value (block.flatten work.level).properties
    (grown.level.tidy tidy)
  exact congrArg (fun level => { (List.foldl _ work _).under overlaid before with level := level })
    registered.symm

/-! ### Imports -/

section Imports

variable {keeps : σ → Prop} {old : List String} {start : IdSupply} {resolve : Resolve σ}
  (overlay : Dag.Overlay overlaid silent fits)

include overlay

theorem under_fetchImport (tidy : work.level.Tidy) (source : Import) :
    (work.under overlaid before).fetchImport resolve source =
      ((work.fetchImport resolve source).1,
        (work.fetchImport resolve source).2.under overlaid before) := by
  have fetched : (work.under overlaid before).fetch resolve source.location.value =
      ((work.fetch resolve source.location.value).1,
        (work.fetch resolve source.location.value).2.under overlaid before) := by
    have noted := overlay.addImport source.location.value tidy
    rw [fetch_eq, fetch_eq]
    dsimp only [under]
    rw [apply_ite overlaid, noted]
    rfl
  unfold fetchImport
  split
  · exact congrArg (Prod.mk none) (under_report _)
  · rw [fetched]
    obtain ⟨result, work'⟩ := work.fetch resolve source.location.value
    cases result with
    | ok imported => rfl
    | error failure => exact congrArg (Prod.mk none) (under_report _)

/-- An imported graph is adopted under an identifier of its own. -/
theorem under_adopt (tidy : work.level.Tidy) (imported : Dag) (name : Option (Spanned String)) :
    (work.under overlaid before).adopt imported name =
      ((work.adopt imported name).1, (work.adopt imported name).2.under overlaid before) := by
  have nested := overlay.attach
    (imported.reidentify work.freshId.1 ((name.map Spanned.value).getD "")) tidy
  exact congrArg (fun level => (work.freshId.1, { work.freshId.2.under overlaid before with
    level := level })) nested.symm

theorem under_placeNestedImport (tidy : work.level.Tidy) (source : Import) :
    (work.under overlaid before).placeNestedImport resolve source =
      ((work.placeNestedImport resolve source).1,
        (work.placeNestedImport resolve source).2.under overlaid before) := by
  have gives : resolve.Gives fun _ => True := fun _ _ _ _ _ => trivial
  have fetched := (grows_fetchImport (fun _ => True) work gives source).1
  unfold placeNestedImport
  rw [under_fetchImport overlay tidy]
  generalize work.fetchImport resolve source = pair at fetched
  obtain ⟨imported, work'⟩ := pair
  cases imported with
  | none => rfl
  | some imported =>
      dsimp only
      rw [under_adopt overlay (fetched.level.tidy tidy)]

theorem under_placeImport (tidy : work.level.Tidy) (source : Import) :
    (work.under overlaid before).placeImport resolve source =
      (work.placeImport resolve source).under overlaid before := by
  have gives : resolve.Gives fun _ => True := fun _ _ _ _ _ => trivial
  have fetched := (grows_fetchImport (fun _ => True) work gives source).1
  unfold placeImport
  rw [under_fetchImport overlay tidy]
  generalize work.fetchImport resolve source = pair at fetched
  obtain ⟨imported, work'⟩ := pair
  have tidy' := fetched.level.tidy tidy
  cases imported with
  | none => rfl
  | some imported =>
      dsimp only
      split
      · rw [under_adopt overlay tidy']
      · have merged := overlay.merge imported tidy'
        exact congrArg (fun level => { work'.under overlaid before with level := level }) merged.symm

end Imports

/-! ### Statements -/

section Statements

variable {keeps : σ → Prop} {old : List String} {resolve : Resolve σ}

/-- No edge has been refused while a sound level was built. -/
theorem Sound.calm {start : IdSupply} (sound : work.Sound keeps old start) :
    work.Calm (· = .malformedEdge) fun _ => True where
  quiet := fun diagnostic held _ given same =>
    sound.quiet diagnostic held (given.trans (congrArg _ same))
  fits := trivial

/-- What is built inside a namespace is nested under the overlay. Inside, all that there is to notice
is where the namespace is nested. -/
theorem under_nest (overlay : Dag.Overlay overlaid silent fits) {start : IdSupply}
    (sound : work.Sound keeps old start) (tidy : work.level.Tidy) (arguments : List Argument)
    {build : Work σ → Work σ} (name : Option (Spanned String)) (style : Option StyleBlock)
    (grows : ∀ {start : IdSupply} {work : Work σ}, work.Sound keeps old start →
      work.Grows (fun _ => True) (fun _ => True) (build work))
    (inside : ∀ (parent : Id) {start : IdSupply} {work : Work σ}, work.Sound keeps old start →
      work.level.Tidy →
      build (work.under (·.withParent parent) before) =
        (build work).under (·.withParent parent) before) :
    let gathered := gather arguments work
    let closed := (build (gathered.2.openLevel name style)).closeLevel gathered.2.level gathered.1
    let gathered' := gather arguments (work.under overlaid before)
    let closed' :=
      (build (gathered'.2.openLevel name style)).closeLevel gathered'.2.level gathered'.1
    closed.2.Calm silent fits → closed' = (closed.1, closed.2.under overlaid before) := by
  intro gathered closed gathered' closed' calm
  let inner := build (gathered.2.openLevel name style)
  let parent := (overlaid gathered.2.level).id
  have grown := grows_gather (fun _ => True) (fun _ => True) arguments work
  have sound' := (sound.gather arguments).1
  have tidy' := grown.level.tidy tidy
  have opened : (gathered.2.openLevel name style).Grows _ _ inner :=
    grows (sound'.openLevel name style)
  have attached := sound'.grows_attach (fun _ => True) (fun _ => True) opened.level.id_eq
    opened.found
  have connected := grows_connectAll (fun _ => True) (fun _ => True)
    { inner with level := gathered.2.level.attach inner.level } inner.level.id gathered.1
  have same : gathered' = (gathered.1, gathered.2.under overlaid before) :=
    under_gather overlay arguments tidy (calm.of_grows overlay (attached.trans connected))
  have built : build (openLevel name style (gathered.2.under overlaid before)) =
      inner.under (·.withParent parent) before :=
    inside parent (sound'.openLevel name style) (tidy_openLevel gathered.2 name style)
  have nested : { inner.under (·.withParent parent) before with
        level := (overlaid gathered.2.level).attach inner.level } =
      { inner with level := gathered.2.level.attach inner.level }.under overlaid before :=
    congrArg (fun level => { inner.under overlaid before with level := level })
      (overlay.attach inner.level tidy').symm
  show closeLevel gathered'.2.level gathered'.1 (build (openLevel name style gathered'.2)) = _
  rw [same, built]
  refine Prod.ext rfl ?_
  show connectAll inner.level.id gathered.1 { inner.under (·.withParent parent) before with
    level := (overlaid gathered.2.level).attach inner.level } = _
  rw [nested]
  exact under_connectAll overlay (attached.level.tidy tidy') calm

mutual

/-- Placing a statement under an overlay comes to placing it and putting the overlay over the level
afterwards. -/
theorem under_place (resolves : resolve.Sound keeps) : ∀ (statement : Statement)
    {overlaid : Dag → Dag} {silent : ErrorCode → Prop} {fits : Dag → Prop} {before : List Diagnostic}
    {start : IdSupply} {work : Work σ}, Dag.Overlay overlaid silent fits → work.Sound keeps old start →
    work.level.Tidy → (Work.place resolve statement work).Calm silent fits →
    Work.place resolve statement (work.under overlaid before) =
      (Work.place resolve statement work).under overlaid before
  | .call made, _, _, _, _, _, _, overlay, _, tidy, calm => by
      rw [Work.place, Work.place, under_placeCall overlay tidy made calm]
  | .assignment targets (.call made), _, _, _, _, _, work, overlay, sound, tidy, calm => by
      have placed := grows_placeCall (fun _ => True) (fun _ => True) work made.value
      have held := (sound.placeCall made.value).2
      have bound := grows_bindTargets (fun _ => True) (fun _ => True) held targets
      rw [Work.place, Work.place,
        under_placeCall overlay tidy made.value (calm.of_grows overlay bound)]
      exact under_bindTargets overlay (placed.level.tidy tidy) held targets
  | .assignment targets (.level ⟨⟨name, statements, arguments, style⟩, _⟩), _, _, _, _, _, _,
      overlay, sound, tidy, calm => by
      have grows := fun {start : IdSupply} {work : Work σ} (inside : work.Sound keeps old start) =>
        inside.placeAll_grows resolves statements
      have nested := sound.grows_nest (fun _ => True) (fun _ => True) arguments name style grows
      have held := (sound.nest arguments name style fun inside => inside.placeAll resolves statements).2
      have bound := calm.of_grows overlay
        (grows_bindTargets (fun _ => True) (fun _ => True) held targets)
      refine Eq.trans ?_ (under_bindTargets overlay (nested.level.tidy tidy) held targets)
      exact congrArg (fun closed : Id × Work σ => closed.2.bindTargets targets closed.1)
        (under_nest overlay sound tidy arguments name style grows
          (fun parent _ _ sound tidy => under_placeAll resolves statements
            (Dag.overlay_withParent parent) sound tidy
            (Sound.placeAll resolves statements sound).calm) bound)
  | .assignment targets (.fetched source), _, _, _, _, _, work, overlay, sound, tidy, calm => by
      have gives : resolve.Gives fun _ => True := fun _ _ _ _ _ => trivial
      have placed := sound.grows_placeNestedImport (fun _ => True) resolves gives source.value
      have held := (sound.placeNestedImport resolves source.value).2
      rw [Work.place, Work.place, under_placeNestedImport overlay tidy]
      generalize work.placeNestedImport resolve source.value = pair at placed held
      obtain ⟨id, work'⟩ := pair
      cases id with
      | none => rfl
      | some id => exact under_bindTargets overlay (placed.level.tidy tidy) (held id rfl) targets
  | .alias target path, _, _, _, _, _, _, overlay, _, tidy, calm =>
    under_placeAlias overlay tidy target path calm
  | .namedStyle name block, _, _, _, _, _, _, overlay, _, tidy, calm =>
    under_placeStyle overlay tidy name block calm
  | .styleBinding keyword tags, _, _, _, _, _, work, overlay, _, tidy, _ => by
      have bound := overlay.bindStyles keyword.value (tags.map Spanned.value) tidy
      exact congrArg (fun level => { work.under _ _ with level := level }) bound.symm
  | .level ⟨name, statements, arguments, style⟩, _, _, _, _, _, _, overlay, sound, tidy, calm =>
    congrArg Prod.snd (under_nest overlay sound tidy arguments name style
      (fun inside => inside.placeAll_grows resolves statements)
      (fun parent _ _ sound tidy => under_placeAll resolves statements
        (Dag.overlay_withParent parent) sound tidy (Sound.placeAll resolves statements sound).calm)
      calm)
  | .fetched source, _, _, _, _, _, _, overlay, _, tidy, _ => under_placeImport overlay tidy source
  | .reference _, _, _, _, _, _, _, _, _, _, _ => under_report _
termination_by structural statement => statement

/-- Placing statements under an overlay comes to placing them and putting the overlay over the level
afterwards. -/
theorem under_placeAll (resolves : resolve.Sound keeps) : ∀ (statements : List (Spanned Statement))
    {overlaid : Dag → Dag} {silent : ErrorCode → Prop} {fits : Dag → Prop} {before : List Diagnostic}
    {start : IdSupply} {work : Work σ}, Dag.Overlay overlaid silent fits → work.Sound keeps old start →
    work.level.Tidy → (Work.placeAll resolve statements work).Calm silent fits →
    Work.placeAll resolve statements (work.under overlaid before) =
      (Work.placeAll resolve statements work).under overlaid before
  | [], _, _, _, _, _, _, _, _, _, _ => rfl
  | ⟨statement, _⟩ :: rest, _, _, _, _, _, work, overlay, sound, tidy, calm => by
      have placed := sound.placeAll_grows resolves [⟨statement, default⟩]
      have others := (sound.place resolves statement).placeAll_grows resolves rest
      rw [Work.placeAll, Work.placeAll,
        under_place resolves statement overlay sound tidy (calm.of_grows overlay others)]
      exact under_placeAll resolves rest overlay (sound.place resolves statement)
        (placed.level.tidy tidy) calm
termination_by structural statements => statements

end

end Statements

end Overlay

end Work

end RecipeGraph
