/-
# A second name for a variable

After `x = y` both names stand for one element. Then it makes no difference to the graph which of
them an argument or another alias names, except that the edge of an argument is called after the
variable and looks as declared on it. This is shown for all statements that bind neither name anew.

What is written inside a namespace is not touched, for there other variables are meant. Still the
two texts may have it in different places, so that a namespace has to be compared, too.
-/

import RecipeGraph.Proofs.Build.Reworded
import RecipeGraph.Proofs.Data.OrderedMap

namespace RecipeGraph

/-! ### What is put differently -/

/-- Namespaces that say the same, but for one variable that is replaced by another in `n` of their
arguments. -/
structure Namespace.Rewords (swap : Option (String × String)) (n : Nat)
    (opened opened' : Namespace) : Prop where
  named : optionsAgree Spanned.agrees opened.name opened'.name = true
  inside : Statement.listAgrees opened.statements opened'.statements = true
  arguments : Argument.ListRewords swap n opened.arguments opened'.arguments
  styled : optionsAgree StyleBlock.agrees opened.style opened'.style = true

/-- Statements that say the same, but for one variable that is replaced by another in `n` arguments
or on the right of an alias. -/
inductive Statement.Rewords (swap : Option (String × String)) :
    (n : Nat) → Statement → Statement → Prop
  | same {one other : Statement} (agree : one.agrees other = true) :
      Statement.Rewords swap 0 one other
  | call {n : Nat} {made made' : Call}
      (reworded : Argument.Rewords swap n (.call ⟨made, default⟩) (.call ⟨made', default⟩)) :
      Statement.Rewords swap n (.call made) (.call made')
  | assignedCall {n : Nat} {targets targets' : List Target} {made made' : Spanned Call}
      (lefts : listsAgree Target.agrees targets targets' = true)
      (reworded : Argument.Rewords swap n (.call made) (.call made')) :
      Statement.Rewords swap n (.assignment targets (.call made))
        (.assignment targets' (.call made'))
  | level {n : Nat} {opened opened' : Namespace} (reworded : opened.Rewords swap n opened') :
      Statement.Rewords swap n (.level opened) (.level opened')
  | assignedLevel {n : Nat} {targets targets' : List Target} {opened opened' : Spanned Namespace}
      (lefts : listsAgree Target.agrees targets targets' = true)
      (reworded : opened.value.Rewords swap n opened'.value) :
      Statement.Rewords swap n (.assignment targets (.level opened))
        (.assignment targets' (.level opened'))
  | replacedAlias {x y : String} {target target' : Target} {span span' : Span}
      (left : target.agrees target' = true) (swapped : swap = some (x, y)) :
      Statement.Rewords swap 0 (.alias target ⟨.single x, span⟩) (.alias target' ⟨.single y, span'⟩)

inductive Statement.ListRewords (swap : Option (String × String)) :
    (n : Nat) → List (Spanned Statement) → List (Spanned Statement) → Prop
  | nil : Statement.ListRewords swap 0 [] []
  | cons {m n : Nat} {statement statement' : Spanned Statement}
      {rest rest' : List (Spanned Statement)}
      (first : Statement.Rewords swap m statement.value statement'.value)
      (others : Statement.ListRewords swap n rest rest') :
      Statement.ListRewords swap (m + n) (statement :: rest) (statement' :: rest')

/-- A statement does not bind a name: it has no such target and takes over nothing from imports. -/
def Statement.Spares (name : String) : Statement → Prop
  | .assignment targets _ => ∀ target ∈ targets, target.name.value ≠ name
  | .alias target _ => target.name.value ≠ name
  | .fetched source => source.name.isSome = true
  | _ => True

variable {σ : Type}

namespace Work

variable {keeps : σ → Prop} {old : List String} {start : IdSupply} {one other : Incoming}
  {n k : Nat} {work work' : Work σ} {swap : Option (String × String)} {resolve : Resolve σ}

/-! ### Calls and variables -/

theorem Alike.placeCall (alike : work.Alike one other n work') (joined : one.source = other.source)
    (sound : work.Sound keeps old start) (knows : Knows swap one other work.level)
    {made made' : Call} {span span' : Span}
    (reworded : Argument.Rewords swap k (.call ⟨made, span⟩) (.call ⟨made', span'⟩)) :
    (work'.placeCall made').1 = (work.placeCall made).1 ∧
      (work.placeCall made).2.Alike one other (n + k) (work'.placeCall made').2 := by
  cases reworded with
  | @call _ name name' arguments arguments' style style' _ _ named inside styled =>
      have opened := alike.openNode name.value styled
      have gathered := Alike.gather joined inside opened.2 (sound.openNode name.value style) knows
      unfold Work.placeCall
      rw [← named]
      exact alike.finishCall joined sound name.value styled gathered

theorem Alike.bindTarget (alike : work.Alike one other n work') (id : Id) {target target' : Target}
    (agree : target.agrees target' = true) :
    (work.bindTarget id target).Alike one other n (work'.bindTarget id target') := by
  obtain ⟨name, style⟩ := Bool.and_eq_true_iff.1 agree
  unfold Work.bindTarget
  rw [← Spanned.value_eq_of_agrees name, ← map_elementStyle_eq_of_agrees style]
  exact alike.onLevel (fun level => (level.setVariable _ id).setVariableStyle _ _)
    (fun _ _ => rfl) rfl

theorem Alike.bindTargets (alike : work.Alike one other n work') (id : Id)
    {targets targets' : List Target} (agree : listsAgree Target.agrees targets targets' = true) :
    (work.bindTargets targets id).Alike one other n (work'.bindTargets targets' id) := by
  have agreeing := forall₂_of_listsAgree agree
  clear agree
  induction agreeing generalizing work work' with
  | nil => exact alike
  | cons here _ step => exact step (alike.bindTarget id here)

/-- An assignment binds its variables to the same element. -/
theorem Alike.bindTargets_eq (alike : work.Alike one other n work') {id id' : Id} (same : id' = id)
    {targets targets' : List Target} (agree : listsAgree Target.agrees targets targets' = true) :
    (work.bindTargets targets id).Alike one other n (work'.bindTargets targets' id') :=
  same ▸ alike.bindTargets id' agree

theorem Alike.assignCall (alike : work.Alike one other n work') (joined : one.source = other.source)
    (sound : work.Sound keeps old start) (knows : Knows swap one other work.level)
    {targets targets' : List Target} (lefts : listsAgree Target.agrees targets targets' = true)
    {made made' : Spanned Call} (reworded : Argument.Rewords swap k (.call made) (.call made')) :
    (Work.place resolve (.assignment targets (.call made)) work).Alike one other (n + k)
      (Work.place resolve (.assignment targets' (.call made')) work') := by
  obtain ⟨id, placed⟩ := alike.placeCall joined sound knows reworded
  exact placed.bindTargets_eq id lefts

theorem Alike.placeAlias (alike : work.Alike one other n work') {target target' : Target}
    (left : target.agrees target' = true) {path path' : Spanned QualifiedPath}
    (same : path.value = path'.value) :
    (work.placeAlias target path).Alike one other n (work'.placeAlias target' path') := by
  unfold Work.placeAlias
  rw [alike.producer?, ← same]
  cases work.level.producer? path.value with
  | none => exact alike.report (Warning.unplaced_unresolved same) (by simp)
  | some id => exact alike.bindTarget id left

theorem Alike.placeAlias_replaced (alike : work.Alike one other n work')
    (joined : one.source = other.source) (one_known : work.level.Supplies one)
    (other_known : work.level.Supplies other) {target target' : Target}
    (left : target.agrees target' = true) (span span' : Span) :
    (work.placeAlias target ⟨.single one.name, span⟩).Alike one other n
      (work'.placeAlias target' ⟨.single other.name, span'⟩) := by
  have found : work.level.producer? (.single one.name) = some one.source := one_known.1
  have found' : work.level.producer? (.single other.name) = some one.source :=
    joined ▸ other_known.1
  unfold Work.placeAlias
  dsimp only
  rw [alike.producer?, found, found']
  exact alike.bindTarget one.source left

/-! ### Styles -/

theorem Alike.style? (alike : work.Alike one other n work') (tag : QualifiedPath) :
    work'.level.style? tag = work.level.style? tag := by
  rw [alike.level]
  obtain ⟨segments⟩ := tag
  match segments with
  | [] => rfl
  | [_] => rfl
  | _ :: _ :: _ => rfl

/-- Tags are resolved by what they say, and those that are missing correspond. -/
theorem Alike.foldl_addTag (alike : work.Alike one other n work')
    {tags tags' : List (Spanned QualifiedPath)}
    (agree : List.Forall₂ (Spanned.agrees · · = true) tags tags') (result result' : Flattened)
    (properties : result.properties = result'.properties)
    (missing : result.missing.map Spanned.value = result'.missing.map Spanned.value) :
    let flattened := tags.foldl (Flattened.addTag work.level) result
    let flattened' := tags'.foldl (Flattened.addTag work'.level) result'
    flattened.properties = flattened'.properties ∧
      flattened.missing.map Spanned.value = flattened'.missing.map Spanned.value := by
  induction agree generalizing result result' with
  | nil => exact ⟨properties, missing⟩
  | @cons tag tag' _ _ here _ step =>
      have value := Spanned.value_eq_of_agrees here
      apply step
      · unfold Flattened.addTag
        rw [alike.style?, ← value]
        split
        · exact congrArg (OrderedMap.extend · _) properties
        · exact properties
      · unfold Flattened.addTag
        rw [alike.style?, ← value]
        split
        · exact missing
        · rw [List.map_append, List.map_append, missing, List.map_singleton, List.map_singleton,
            value]

theorem Alike.flatten (alike : work.Alike one other n work') {block block' : StyleBlock}
    (agree : block.agrees block' = true) :
    (block.flatten work.level).properties = (block'.flatten work'.level).properties ∧
      (block.flatten work.level).missing.map Spanned.value =
        (block'.flatten work'.level).missing.map Spanned.value := by
  obtain ⟨tags, _⟩ := Bool.and_eq_true_iff.1 agree
  obtain ⟨properties, missing⟩ := alike.foldl_addTag (forall₂_of_listsAgree tags) ⟨.empty, []⟩
    ⟨.empty, []⟩ rfl rfl
  refine ⟨?_, missing⟩
  show OrderedMap.extend _ _ = OrderedMap.extend _ _
  rw [properties, StyleBlock.ownProperties_eq_of_agrees agree]

theorem Alike.reportTags (alike : work.Alike one other n work')
    {tags tags' : List (Spanned QualifiedPath)}
    (same : tags.map Spanned.value = tags'.map Spanned.value) :
    (tags.foldl (fun work tag => work.report (.undefinedStyleTag tag)) work).Alike one other n
      (tags'.foldl (fun work tag => work.report (.undefinedStyleTag tag)) work') := by
  induction tags generalizing work work' tags' with
  | nil =>
      obtain rfl := List.map_eq_nil_iff.1 same.symm
      exact alike
  | cons tag rest step =>
      obtain ⟨tag', rest', rfl, here, later⟩ := List.map_eq_cons_iff.1 same.symm
      obtain ⟨value, span⟩ := tag
      obtain ⟨value', span'⟩ := tag'
      obtain rfl : value' = value := here
      have unplaced : (Warning.undefinedStyleTag ⟨value', span⟩).diagnostic.unplaced =
          (Warning.undefinedStyleTag ⟨value', span'⟩).diagnostic.unplaced := rfl
      exact step (alike.report unplaced rfl) later.symm

theorem Alike.placeStyle (alike : work.Alike one other n work') {name name' : Spanned String}
    (named : name.agrees name' = true) {block block' : StyleBlock}
    (agree : block.agrees block' = true) :
    (work.placeStyle name block).Alike one other n (work'.placeStyle name' block') := by
  obtain ⟨properties, missing⟩ := alike.flatten agree
  unfold Work.placeStyle
  dsimp only
  rw [← Spanned.value_eq_of_agrees named, ← properties]
  exact (alike.reportTags missing).onLevel
    (fun level => level.setStyle name.value (block.flatten work.level).properties)
    (fun _ _ => rfl) rfl

theorem Alike.placeBinding (alike : work.Alike one other n work') {keyword keyword' : Spanned String}
    (same : keyword.agrees keyword' = true) {tags tags' : List (Spanned QualifiedPath)}
    (agree : listsAgree Spanned.agrees tags tags' = true) :
    (work.placeBinding keyword tags).Alike one other n (work'.placeBinding keyword' tags') := by
  unfold Work.placeBinding
  rw [← Spanned.value_eq_of_agrees same,
    ← map_eq_of_listsAgree (fun _ _ => Spanned.value_eq_of_agrees) agree]
  exact alike.onLevel (fun level => level.bindStyles _ _) (fun _ _ => rfl) rfl

/-! ### Namespaces -/

/-- Where no edge differs, the levels are equal. -/
theorem Alike.level_eq (alike : work.Alike one other 0 work') : work'.level = work.level := by
  have values := alike.edges.eq_of_zero
  have entries : work'.level.edges = work.level.edges := by
    have keys := alike.keys
    generalize work.level.edges = edges at keys values
    generalize work'.level.edges = edges' at keys values
    obtain ⟨entries⟩ := edges
    obtain ⟨entries'⟩ := edges'
    refine congrArg OrderedMap.mk ?_
    rw [← List.zip_unzip entries, ← List.zip_unzip entries', List.unzip_eq_map, List.unzip_eq_map]
    exact congrArg₂ List.zip keys.symm values.symm
  rw [alike.level, entries]
  cases work.level
  rfl

theorem Alike.openLevel (alike : work.Alike one other n work') {name name' : Option (Spanned String)}
    (named : optionsAgree Spanned.agrees name name' = true) {style style' : Option StyleBlock}
    (styled : optionsAgree StyleBlock.agrees style style' = true) :
    (work.openLevel name style).Alike one other 0 (work'.openLevel name' style') := by
  obtain ⟨id, fresh⟩ := alike.freshId
  have outer : work'.level.id = work.level.id := by rw [alike.level]
  have names := map_eq_of_optionsAgree (fun _ _ => Spanned.value_eq_of_agrees) named
  have level : (work'.openLevel name' style').level = (work.openLevel name style).level := by
    show ((Dag.empty work'.freshId.1 _).withParent work'.level.id).withStyle _ =
      ((Dag.empty work.freshId.1 _).withParent work.level.id).withStyle _
    rw [id, outer, names, elementStyle_eq_of_agrees styled]
  refine ⟨?_, ?_, ?_, alike.found⟩
  · show Work.mk (work'.openLevel name' style').level _ work'.freshId.2.chain
      work'.freshId.2.session = Work.mk _ _ work.freshId.2.chain work.freshId.2.session
    rw [fresh.chain, fresh.session, level]
    rfl
  · rw [level]
  · rw [level]
    exact .refl _

theorem Alike.closeLevel (alike : work.Alike one other n work') (joined : one.source = other.source)
    (sound : work.Sound keeps old start) {inner inner' : Work σ}
    (finished : inner.Alike one other 0 inner')
    (inside : inner.Sound keeps old work.session.supply) {incoming incoming' : List Incoming}
    (sources : ∀ argument ∈ incoming, argument.source ∈ work.level.elements)
    (like : IncomingAlike one other k incoming incoming') :
    (inner'.closeLevel work'.level incoming').1 = (inner.closeLevel work.level incoming).1 ∧
      (inner.closeLevel work.level incoming).2.Alike one other (n + k)
        (inner'.closeLevel work'.level incoming').2 := by
  obtain ⟨attached, ready⟩ := sound.attach inside sources
  have level := finished.level_eq
  have nested : Alike one other n { inner with level := work.level.attach inner.level }
      { inner' with level := work'.level.attach inner'.level } := by
    refine ⟨?_, alike.keys, alike.edges, finished.found⟩
    show Work.mk _ inner'.found inner'.chain inner'.session = Work.mk _ _ inner.chain inner.session
    rw [finished.chain, finished.session, level, alike.level]
    rfl
  refine ⟨congrArg Dag.id level, ?_⟩
  unfold Work.closeLevel
  dsimp only
  have connected := nested.connectAll joined attached ready like
  rw [show inner'.level.id = inner.level.id from congrArg Dag.id level]
  exact connected

/-- Two namespaces that are built alike inside are nested alike. -/
theorem Alike.nest (alike : work.Alike one other n work') (joined : one.source = other.source)
    (sound : work.Sound keeps old start) (knows : Knows swap one other work.level)
    {name name' : Option (Spanned String)} (named : optionsAgree Spanned.agrees name name' = true)
    {style style' : Option StyleBlock} (styled : optionsAgree StyleBlock.agrees style style' = true)
    {arguments arguments' : List Argument}
    (reworded : Argument.ListRewords swap k arguments arguments') {build build' : Work σ → Work σ}
    (keepsSound : ∀ {start : IdSupply} {work : Work σ}, work.Sound keeps old start →
      (build work).Sound keeps old start)
    (inside : ∀ {start : IdSupply} {work work' : Work σ}, work.Alike one other 0 work' →
      work.Sound keeps old start → (build work).Alike one other 0 (build' work')) :
    let gathered := Work.gather arguments work
    let gathered' := Work.gather arguments' work'
    let closed := (build (gathered.2.openLevel name style)).closeLevel gathered.2.level gathered.1
    let closed' :=
      (build' (gathered'.2.openLevel name' style')).closeLevel gathered'.2.level gathered'.1
    closed'.1 = closed.1 ∧ closed.2.Alike one other (n + k) closed'.2 := by
  obtain ⟨i, j, rfl, gathered, like⟩ := Alike.gather joined reworded alike sound knows
  obtain ⟨sound', gathers⟩ := sound.gather arguments
  have opened := sound'.openLevel name style
  rw [← Nat.add_assoc]
  exact gathered.closeLevel joined sound' (inside (gathered.openLevel named styled) opened)
    (keepsSound opened) gathers.sources like

/-! ### Imports -/

theorem Alike.fetch (alike : work.Alike one other n work') (resolve : Resolve σ)
    (location : String) :
    (work'.fetch resolve location).1 = (work.fetch resolve location).1 ∧
      (work.fetch resolve location).2.Alike one other n (work'.fetch resolve location).2 := by
  rw [fetch_eq, fetch_eq, alike.chain, alike.session]
  refine ⟨rfl, ?_⟩
  dsimp only
  split
  · refine ⟨?_, alike.keys, alike.edges, alike.found⟩
    rw [alike.level]
    rfl
  · refine ⟨?_, alike.keys, alike.edges, alike.found⟩
    rw [alike.level]
    rfl

theorem Alike.fetchImport (alike : work.Alike one other n work') (resolve : Resolve σ)
    {source source' : Import}
    (agree : source.agrees source' = true) :
    (work'.fetchImport resolve source').1 = (work.fetchImport resolve source).1 ∧
      (work.fetchImport resolve source).2.Alike one other n
        (work'.fetchImport resolve source').2 := by
  have location := Spanned.value_eq_of_agrees (Bool.and_eq_true_iff.1 agree).1
  obtain ⟨same, fetched⟩ := alike.fetch resolve source.location.value
  unfold Work.fetchImport
  rw [← location]
  split
  · have unplaced : (Warning.noLocation source.location.span).diagnostic.unplaced =
        (Warning.noLocation source'.location.span).diagnostic.unplaced := rfl
    exact ⟨rfl, alike.report unplaced rfl⟩
  · generalize work.fetch resolve source.location.value = one at same fetched
    generalize work'.fetch resolve source.location.value = other at same fetched
    obtain ⟨result, after⟩ := one
    obtain ⟨result', after'⟩ := other
    obtain rfl : result' = result := same
    cases result' with
    | ok imported => exact ⟨rfl, fetched⟩
    | error failure =>
        have unplaced : (Warning.importFailed failure source.location.span).diagnostic.unplaced =
            (Warning.importFailed failure source'.location.span).diagnostic.unplaced := rfl
        exact ⟨rfl, fetched.report unplaced rfl⟩

theorem Alike.adopt (alike : work.Alike one other n work') (imported : Dag)
    {name name' : Option (Spanned String)} (named : optionsAgree Spanned.agrees name name' = true) :
    (work'.adopt imported name').1 = (work.adopt imported name).1 ∧
      (work.adopt imported name).2.Alike one other n (work'.adopt imported name').2 := by
  obtain ⟨id, fresh⟩ := alike.freshId
  have names := map_eq_of_optionsAgree (fun _ _ => Spanned.value_eq_of_agrees) named
  refine ⟨id, ?_⟩
  unfold Work.adopt
  dsimp only
  rw [id, ← names]
  exact fresh.onLevel (fun level => level.attach _) (fun _ _ => rfl) rfl

theorem Alike.placeNestedImport (alike : work.Alike one other n work') (resolve : Resolve σ)
    {source source' : Import}
    (agree : source.agrees source' = true) :
    (work'.placeNestedImport resolve source').1 = (work.placeNestedImport resolve source).1 ∧
      (work.placeNestedImport resolve source).2.Alike one other n
        (work'.placeNestedImport resolve source').2 := by
  have named := (Bool.and_eq_true_iff.1 agree).2
  obtain ⟨same, fetched⟩ := alike.fetchImport resolve agree
  unfold Work.placeNestedImport
  generalize work.fetchImport resolve source = one at same fetched
  generalize work'.fetchImport resolve source' = other at same fetched
  obtain ⟨result, after⟩ := one
  obtain ⟨result', after'⟩ := other
  obtain rfl : result' = result := same
  cases result' with
  | none => exact ⟨rfl, fetched⟩
  | some imported =>
      obtain ⟨id, adopted⟩ := fetched.adopt imported named
      exact ⟨congrArg some id, adopted⟩

/-- A graph that was made after both levels is taken over alike. -/
theorem Alike.merge (alike : work.Alike one other n work') {graph : Dag}
    (imported : work.Imported start graph) :
    (work.onLevel fun level => level.merge graph).Alike one other n
      (work'.onLevel fun level => level.merge graph) := by
  obtain ⟨_, level, made⟩ := imported
  have distinct : graph.edges.keys.Nodup :=
    (List.nodup_append.1 (List.nodup_append.1 (Dag.innerIds_nodup made.distinct)).1).2.1
  have absent : ∀ id ∈ graph.edges.keys, id ∉ work.level.edges.keys := fun id new old =>
    level.apart made id (Dag.mem_ids_iff.2 (.inr (.inr (.inl old))))
      (Dag.mem_ids_iff.2 (.inr (.inr (.inl new))))
  have absent' : ∀ id ∈ graph.edges.keys, id ∉ work'.level.edges.keys := alike.keys ▸ absent
  have merged : work'.level.merge graph =
      { work.level.merge graph with edges := work'.level.edges.extend graph.edges } := by
    rw [alike.level, Dag.merge, Dag.merge, Dag.attachAll_eq, Dag.attachAll_eq]
  refine ⟨?_, ?_, ?_, alike.found⟩
  · show Work.mk (work'.level.merge graph) work'.found work'.chain work'.session =
      Work.mk { work.level.merge graph with edges := (work'.level.merge graph).edges } work'.found
        work.chain work.session
    rw [alike.chain, alike.session, Dag.edges_merge work'.level, ← merged]
  · show (work.level.merge graph).edges.keys = (work'.level.merge graph).edges.keys
    rw [Dag.edges_merge, Dag.edges_merge]
    exact OrderedMap.keys_extend_congr alike.keys rfl
  · show AlikeBut _ _ _ (work.level.merge graph).edges.values (work'.level.merge graph).edges.values
    rw [Dag.edges_merge, Dag.edges_merge, OrderedMap.values, OrderedMap.values, OrderedMap.extend,
      OrderedMap.extend, OrderedMap.entries_insertAll_of_absent distinct absent,
      OrderedMap.entries_insertAll_of_absent distinct absent', List.map_append, List.map_append]
    exact alike.edges.append (.refl _)

theorem Alike.placeImport (alike : work.Alike one other n work') (sound : work.Sound keeps old start)
    (resolves : resolve.Sound keeps) {source source' : Import}
    (agree : source.agrees source' = true) :
    (work.placeImport resolve source).Alike one other n (work'.placeImport resolve source') := by
  have named := (Bool.and_eq_true_iff.1 agree).2
  have imported := (sound.fetchImport resolves source).2
  obtain ⟨same, fetched⟩ := alike.fetchImport resolve agree
  unfold Work.placeImport
  generalize work.fetchImport resolve source = one at same fetched imported
  generalize work'.fetchImport resolve source' = other at same fetched
  obtain ⟨result, after⟩ := one
  obtain ⟨result', after'⟩ := other
  obtain rfl : result' = result := same
  cases result' with
  | none => exact fetched
  | some graph =>
      have merged := fetched.merge (imported graph rfl)
      have adopted := (fetched.adopt graph named).2
      generalize source.name = name at named adopted
      generalize source'.name = name' at named adopted
      match name, name', named with
      | none, none, _ => exact merged
      | some _, some _, _ => exact adopted

theorem Alike.assignImport (alike : work.Alike one other n work') (resolve : Resolve σ)
    {targets targets' : List Target} (lefts : listsAgree Target.agrees targets targets' = true)
    {source source' : Spanned Import} (agree : source.value.agrees source'.value = true) :
    (Work.place resolve (.assignment targets (.fetched source)) work).Alike one other n
      (Work.place resolve (.assignment targets' (.fetched source')) work') := by
  obtain ⟨same, placed⟩ := alike.placeNestedImport resolve agree
  rw [Work.place, Work.place]
  generalize work.placeNestedImport resolve source.value = result at same placed
  generalize work'.placeNestedImport resolve source'.value = result' at same placed
  obtain ⟨id, after⟩ := result
  obtain ⟨id', after'⟩ := result'
  obtain rfl : id' = id := same
  cases id' with
  | none => exact placed
  | some id => exact placed.bindTargets id lefts

/-! ### Statements that agree -/

mutual

theorem Alike.place_agreeing (joined : one.source = other.source) (resolves : resolve.Sound keeps) :
    ∀ {statement statement' : Statement}, statement.agrees statement' = true →
      ∀ {n : Nat} {start : IdSupply} {work work' : Work σ}, work.Alike one other n work' →
        work.Sound keeps old start →
        (Work.place resolve statement work).Alike one other n
          (Work.place resolve statement' work')
  | .call made, .call made', agree, _, _, work, _, alike, sound => by
      have reworded : Argument.Rewords none 0 (.call ⟨made, default⟩) (.call ⟨made', default⟩) :=
        Argument.rewords_of_agrees none agree
      exact (alike.placeCall joined sound (knows_none one other _) reworded).2
  | .assignment targets (.call made), .assignment targets' (.call made'), agree, _, _, work, _,
      alike, sound => by
      obtain ⟨lefts, made_agree⟩ := Bool.and_eq_true_iff.1 agree
      have reworded : Argument.Rewords none 0 (.call made) (.call made') :=
        Argument.rewords_of_agrees none made_agree
      exact alike.assignCall joined sound (knows_none one other _) lefts reworded
  | .assignment targets (.level ⟨⟨name, statements, arguments, style⟩, _⟩),
      .assignment targets' (.level ⟨⟨name', statements', arguments', style'⟩, _⟩), agree, _, _,
      work, _, alike, sound => by
      simp only [Statement.agrees, Bool.and_eq_true] at agree
      obtain ⟨⟨⟨⟨lefts, named⟩, inside⟩, taken⟩, styled⟩ := agree
      obtain ⟨id, closed⟩ := alike.nest joined sound (knows_none one other _) named styled
        (Argument.listRewords_of_agrees none taken) (Sound.placeAll resolves statements)
        fun opened sound => Alike.placeAll_agreeing joined resolves inside opened sound
      exact closed.bindTargets_eq id lefts
  | .assignment targets (.fetched source), .assignment targets' (.fetched source'), agree, _, _,
      _, _, alike, _ => by
      obtain ⟨lefts, same⟩ := Bool.and_eq_true_iff.1 agree
      exact alike.assignImport resolve lefts same
  | .alias target path, .alias target' path', agree, _, _, _, _, alike, _ => by
      obtain ⟨left, same⟩ := Bool.and_eq_true_iff.1 agree
      exact alike.placeAlias left (Spanned.value_eq_of_agrees same)
  | .namedStyle name style, .namedStyle name' style', agree, _, _, _, _, alike, _ => by
      obtain ⟨named, styled⟩ := Bool.and_eq_true_iff.1 agree
      exact alike.placeStyle named styled
  | .styleBinding keyword tags, .styleBinding keyword' tags', agree, _, _, _, _, alike, _ => by
      obtain ⟨same, bound⟩ := Bool.and_eq_true_iff.1 agree
      exact alike.placeBinding same bound
  | .level ⟨name, statements, arguments, style⟩, .level ⟨name', statements', arguments', style'⟩,
      agree, _, _, work, _, alike, sound => by
      simp only [Statement.agrees, Bool.and_eq_true] at agree
      obtain ⟨⟨⟨named, inside⟩, taken⟩, styled⟩ := agree
      exact (alike.nest joined sound (knows_none one other _) named styled
        (Argument.listRewords_of_agrees none taken) (Sound.placeAll resolves statements)
        fun opened sound => Alike.placeAll_agreeing joined resolves inside opened sound).2
  | .fetched source, .fetched source', agree, _, _, _, _, alike, sound =>
    alike.placeImport sound resolves agree
  | .reference path, .reference path', agree, _, _, _, _, alike, _ =>
    alike.report (Warning.unplaced_noEffect (Spanned.value_eq_of_agrees agree)) rfl

theorem Alike.placeAll_agreeing (joined : one.source = other.source)
    (resolves : resolve.Sound keeps) :
    ∀ {statements statements' : List (Spanned Statement)},
      Statement.listAgrees statements statements' = true →
      ∀ {n : Nat} {start : IdSupply} {work work' : Work σ}, work.Alike one other n work' →
        work.Sound keeps old start →
        (Work.placeAll resolve statements work).Alike one other n
          (Work.placeAll resolve statements' work')
  | [], [], _, _, _, _, _, alike, _ => alike
  | ⟨statement, _⟩ :: rest, ⟨statement', _⟩ :: rest', agree, _, _, _, _, alike, sound => by
      obtain ⟨first, others⟩ := Bool.and_eq_true_iff.1 agree
      exact Alike.placeAll_agreeing joined resolves others
        (Alike.place_agreeing joined resolves first alike sound)
        (sound.place resolves statement)

end

/-! ### Variables that no statement binds anew -/

theorem variables_closeLevel (outer : Dag) (incoming : List Incoming) (inner : Work σ) :
    (inner.closeLevel outer incoming).2.level.variables = outer.variables :=
  variables_connectAll _ _ _

theorem variables_fetchImport (resolve : Resolve σ) (source : Import) (work : Work σ) :
    (work.fetchImport resolve source).2.level.variables = work.level.variables := by
  have fetched : (work.fetch resolve source.location.value).2.level.variables =
      work.level.variables := by
    rw [fetch_eq]
    dsimp only
    split
    · rfl
    · rfl
  unfold Work.fetchImport
  split
  · rfl
  · generalize work.fetch resolve source.location.value = result at fetched
    obtain ⟨result, after⟩ := result
    cases result with
    | ok imported => exact fetched
    | error failure => exact fetched

theorem variables_placeNestedImport (resolve : Resolve σ) (source : Import) (work : Work σ) :
    (work.placeNestedImport resolve source).2.level.variables = work.level.variables := by
  have fetched := variables_fetchImport resolve source work
  unfold Work.placeNestedImport
  generalize work.fetchImport resolve source = result at fetched
  obtain ⟨imported, after⟩ := result
  cases imported with
  | none => exact fetched
  | some imported => exact fetched

theorem variables_placeStyle (name : Spanned String) (block : StyleBlock) (work : Work σ) :
    (work.placeStyle name block).level.variables = work.level.variables := by
  let properties := (block.flatten work.level).properties
  have reported := (reportTags_eq (block.flatten work.level).missing work).1
  exact congrArg (fun level => (level.setStyle name.value properties).variables) reported

variable {incoming : Incoming}

theorem supplies_bindTarget (supplied : work.level.Supplies incoming) (id : Id) {target : Target}
    (spared : target.name.value ≠ incoming.name) :
    (work.bindTarget id target).level.Supplies incoming := by
  obtain ⟨bound, styled⟩ := supplied
  constructor
  · show (work.level.variableIds.insert _ id).get? _ = _
    rw [OrderedMap.get?_insert, if_neg spared]
    exact bound
  · show (((work.level.variableStyles.insert _ _).get? _).join).getD .plain = _
    rw [OrderedMap.get?_insert, if_neg spared]
    exact styled

theorem supplies_bindTargets (supplied : work.level.Supplies incoming) (id : Id)
    {targets : List Target} (spared : ∀ target ∈ targets, target.name.value ≠ incoming.name) :
    (work.bindTargets targets id).level.Supplies incoming := by
  induction targets generalizing work with
  | nil => exact supplied
  | cons target rest step =>
      obtain ⟨here, later⟩ := List.forall_mem_cons.1 spared
      exact step (supplies_bindTarget supplied id here) later

/-- A statement that does not bind a variable leaves it what it stands for and how it looks. -/
theorem supplies_place (supplied : work.level.Supplies incoming) (resolve : Resolve σ)
    {statement : Statement} (spares : statement.Spares incoming.name) :
    (Work.place resolve statement work).level.Supplies incoming := by
  cases statement with
  | call made =>
      exact supplied.congr (variables_gatherOne (.call ⟨made, default⟩) work)
  | assignment targets producer =>
      cases producer with
      | call made =>
          have placed : (work.placeCall made.value).2.level.Supplies incoming :=
            supplied.congr (variables_gatherOne (.call made) work)
          exact supplies_bindTargets placed _ spares
      | level opened =>
          obtain ⟨⟨name, statements, arguments, style⟩, _⟩ := opened
          have closed := supplied.congr (variables_gather arguments work)
          exact supplies_bindTargets (closed.congr (variables_closeLevel _ _ _)) _ spares
      | fetched source =>
          have placed := supplied.congr (variables_placeNestedImport resolve source.value work)
          rw [Work.place]
          generalize work.placeNestedImport resolve source.value = result at placed
          obtain ⟨id, after⟩ := result
          cases id with
          | none => exact placed
          | some id => exact supplies_bindTargets placed id spares
  | «alias» target path =>
      rw [Work.place, Work.placeAlias]
      split
      · exact supplied
      · exact supplies_bindTarget supplied _ spares
  | namedStyle name block => exact supplied.congr (variables_placeStyle name block work)
  | styleBinding keyword tags => exact supplied
  | level opened =>
      obtain ⟨name, statements, arguments, style⟩ := opened
      have closed := supplied.congr (variables_gather arguments work)
      exact closed.congr (variables_closeLevel _ _ _)
  | fetched source =>
      obtain ⟨name, named⟩ := Option.isSome_iff_exists.1 spares
      rw [Work.place, placeImport_of_named resolve named]
      exact supplied.congr (variables_placeNestedImport resolve source work)
  | reference path => exact supplied

theorem Knows.place (knows : Knows swap one other work.level) (resolve : Resolve σ)
    {statement : Statement} (spares : ∀ x y, swap = some (x, y) →
      statement.Spares x ∧ statement.Spares y) :
    Knows swap one other (Work.place resolve statement work).level := by
  intro x y swapped
  obtain ⟨rfl, rfl, one_known, other_known⟩ := knows x y swapped
  obtain ⟨one_spared, other_spared⟩ := spares _ _ swapped
  exact ⟨rfl, rfl, supplies_place one_known resolve one_spared,
    supplies_place other_known resolve other_spared⟩

/-! ### Statements that are put differently -/

theorem Alike.placeLevel (alike : work.Alike one other n work') (joined : one.source = other.source)
    (resolves : resolve.Sound keeps) (sound : work.Sound keeps old start)
    (knows : Knows swap one other work.level) {opened opened' : Namespace}
    (reworded : opened.Rewords swap k opened') :
    let closed := (Work.placeAll resolve opened.statements ((Work.gather opened.arguments
      work).2.openLevel opened.name opened.style)).closeLevel
        (Work.gather opened.arguments work).2.level (Work.gather opened.arguments work).1
    let closed' := (Work.placeAll resolve opened'.statements ((Work.gather opened'.arguments
      work').2.openLevel opened'.name opened'.style)).closeLevel
        (Work.gather opened'.arguments work').2.level (Work.gather opened'.arguments work').1
    closed'.1 = closed.1 ∧ closed.2.Alike one other (n + k) closed'.2 :=
  alike.nest joined sound knows reworded.named reworded.styled reworded.arguments
    (Sound.placeAll resolves opened.statements)
    fun inner sound => Alike.placeAll_agreeing joined resolves reworded.inside inner sound

theorem Alike.place (alike : work.Alike one other n work') (joined : one.source = other.source)
    (resolves : resolve.Sound keeps) (sound : work.Sound keeps old start)
    (knows : Knows swap one other work.level) {statement statement' : Statement}
    (reworded : Statement.Rewords swap k statement statement') :
    (Work.place resolve statement work).Alike one other (n + k)
      (Work.place resolve statement' work') := by
  cases reworded with
  | same agree => exact Alike.place_agreeing joined resolves agree alike sound
  | call reworded => exact (alike.placeCall joined sound knows reworded).2
  | assignedCall lefts reworded => exact alike.assignCall joined sound knows lefts reworded
  | level reworded => exact (alike.placeLevel joined resolves sound knows reworded).2
  | assignedLevel lefts reworded =>
      obtain ⟨id, closed⟩ := alike.placeLevel joined resolves sound knows reworded
      exact closed.bindTargets_eq id lefts
  | replacedAlias left swapped =>
      obtain ⟨rfl, rfl, one_known, other_known⟩ := knows _ _ swapped
      exact alike.placeAlias_replaced joined one_known other_known left _ _

/-- Statements that are put differently are built alike, as long as none of them binds the variables
anew. -/
theorem Alike.placeAll (joined : one.source = other.source) (resolves : resolve.Sound keeps)
    {statements statements' : List (Spanned Statement)}
    (reworded : Statement.ListRewords swap k statements statements')
    (spares : ∀ statement ∈ statements, ∀ x y, swap = some (x, y) →
      statement.value.Spares x ∧ statement.value.Spares y)
    (alike : work.Alike one other n work') (sound : work.Sound keeps old start)
    (knows : Knows swap one other work.level) :
    (Work.placeAll resolve statements work).Alike one other (n + k)
      (Work.placeAll resolve statements' work') := by
  induction reworded generalizing n work work' with
  | nil => exact alike
  | cons first others step =>
      obtain ⟨here, later⟩ := List.forall_mem_cons.1 spares
      rw [← Nat.add_assoc]
      exact step later (alike.place joined resolves sound knows first)
        (sound.place resolves _) (knows.place resolve here)

end Work

end RecipeGraph
