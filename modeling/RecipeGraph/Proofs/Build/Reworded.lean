/-
# Arguments that are put differently

A text may be changed in two ways that the builder hardly notices. Parts may stand elsewhere, and a
variable may be named where another one stood that stands for the same element. What is built then
is the same, with the same identifiers: the spans show in the labels of warnings only, and the
variable shows in the name and style of the edge of its argument and nowhere else.

This module follows two builders of arguments that were put differently in these ways. Their states
differ in nothing but edges that they have in common under different names, and in the places that
warnings point to.
-/

import RecipeGraph.Proofs.Build.Soundness
import RecipeGraph.Proofs.Graph.Minted

namespace RecipeGraph

/-! ### Lists that differ in some places -/

/-- Two lists correspond place by place: in `n` places the items are related in the second way, and
in all others in the first way. -/
inductive AlikeBut {α : Type} (same changed : α → α → Prop) : (n : Nat) → List α → List α → Prop
  | nil : AlikeBut same changed 0 [] []
  | same {n : Nat} {one other : α} {ones others : List α} (here : same one other)
      (later : AlikeBut same changed n ones others) :
      AlikeBut same changed n (one :: ones) (other :: others)
  | changed {n : Nat} {one other : α} {ones others : List α} (here : changed one other)
      (later : AlikeBut same changed n ones others) :
      AlikeBut same changed (n + 1) (one :: ones) (other :: others)

namespace AlikeBut

variable {α : Type} {same changed : α → α → Prop} {m n : Nat} {ones others ones' others' : List α}

theorem append (first : AlikeBut same changed m ones others)
    (second : AlikeBut same changed n ones' others') :
    AlikeBut same changed (m + n) (ones ++ ones') (others ++ others') := by
  induction first with
  | nil => simpa using second
  | same here _ step => exact .same here step
  | changed here _ step =>
      rw [Nat.add_right_comm]
      exact .changed here step

theorem refl (ones : List α) : AlikeBut Eq changed 0 ones ones := by
  induction ones with
  | nil => exact .nil
  | cons one rest step => exact .same rfl step

theorem eq_of_zero (alike : AlikeBut Eq changed 0 ones others) : ones = others := by
  generalize none : 0 = n at alike
  induction alike with
  | nil => rfl
  | same here _ step => rw [here, step none]
  | changed => cases none

theorem map {f : α → α} {same' changed' : α → α → Prop} (alike : AlikeBut same changed n ones others)
    (sames : ∀ one other, same one other → same' (f one) (f other))
    (changes : ∀ one other, changed one other → changed' (f one) (f other)) :
    AlikeBut same' changed' n (ones.map f) (others.map f) := by
  induction alike with
  | nil => exact .nil
  | same here _ step => exact .same (sames _ _ here) step
  | changed here _ step => exact .changed (changes _ _ here) step

theorem imp {changed' : α → α → Prop} (alike : AlikeBut same changed n ones others)
    (changes : ∀ one other, changed one other → changed' one other) :
    AlikeBut same changed' n ones others := by
  have mapped := alike.map (f := id) (fun _ _ => id) changes
  rwa [List.map_id, List.map_id] at mapped

end AlikeBut

/-! ### What is put differently -/

mutual

/-- Arguments that say the same, but for one variable that is replaced by another in `n` places. -/
inductive Argument.Rewords (swap : Option (String × String)) : (n : Nat) → Argument → Argument → Prop
  | reference {path other : Spanned QualifiedPath} (same : path.value = other.value) :
      Argument.Rewords swap 0 (.reference path) (.reference other)
  | replaced {x y : String} {span span' : Span} (swapped : swap = some (x, y)) :
      Argument.Rewords swap 1 (.reference ⟨.single x, span⟩) (.reference ⟨.single y, span'⟩)
  | call {n : Nat} {name name' : Spanned String} {arguments arguments' : List Argument}
      {style style' : Option StyleBlock} {span span' : Span} (named : name.value = name'.value)
      (inside : Argument.ListRewords swap n arguments arguments')
      (styled : optionsAgree StyleBlock.agrees style style' = true) :
      Argument.Rewords swap n (.call ⟨⟨name, arguments, style⟩, span⟩)
        (.call ⟨⟨name', arguments', style'⟩, span'⟩)

inductive Argument.ListRewords (swap : Option (String × String)) :
    (n : Nat) → List Argument → List Argument → Prop
  | nil : Argument.ListRewords swap 0 [] []
  | cons {m n : Nat} {argument argument' : Argument} {rest rest' : List Argument}
      (first : Argument.Rewords swap m argument argument')
      (others : Argument.ListRewords swap n rest rest') :
      Argument.ListRewords swap (m + n) (argument :: rest) (argument' :: rest')

end

/-- A diagnostic without the places that it points to. -/
def Diagnostic.unplaced (diagnostic : Diagnostic) : Diagnostic :=
  { diagnostic with labels := diagnostic.labels.map fun label => { label with span := default } }

theorem Warning.unplaced_unresolved {path path' : Spanned QualifiedPath}
    (same : path.value = path'.value) :
    (unresolved path).diagnostic.unplaced = (unresolved path').diagnostic.unplaced := by
  obtain ⟨value, span⟩ := path
  obtain ⟨value', span'⟩ := path'
  obtain rfl : value = value' := same
  unfold unresolved
  split
  · rfl
  · rfl

theorem Warning.unplaced_noEffect {path path' : Spanned QualifiedPath}
    (same : path.value = path'.value) :
    (noEffect path).diagnostic.unplaced = (noEffect path').diagnostic.unplaced := by
  obtain ⟨value, span⟩ := path
  obtain ⟨value', span'⟩ := path'
  obtain rfl : value = value' := same
  rfl

@[simp] theorem Warning.isLogged_unresolved (path : Spanned QualifiedPath) :
    (unresolved path).isLogged = true := by
  unfold unresolved
  split
  · rfl
  · rfl

/-! ### Parts that agree -/

section Agreement

theorem Spanned.value_eq_of_agrees {α : Type} [DecidableEq α] {one other : Spanned α}
    (agree : one.agrees other = true) : one.value = other.value :=
  of_decide_eq_true agree

theorem forall₂_of_listsAgree {α : Type} {agrees : α → α → Bool} :
    ∀ {ones others : List α}, listsAgree agrees ones others = true →
      List.Forall₂ (agrees · · = true) ones others
  | [], [], _ => .nil
  | one :: ones, other :: others, agree => by
      rw [listsAgree, Bool.and_eq_true] at agree
      exact .cons agree.1 (forall₂_of_listsAgree agree.2)

theorem map_eq_of_listsAgree {α β : Type} {agrees : α → α → Bool} {f : α → β}
    (same : ∀ one other, agrees one other = true → f one = f other) {ones others : List α}
    (agree : listsAgree agrees ones others = true) : ones.map f = others.map f := by
  have agreeing := forall₂_of_listsAgree agree
  clear agree
  induction agreeing with
  | nil => rfl
  | cons here _ step => rw [List.map_cons, List.map_cons, same _ _ here, step]

theorem map_eq_of_optionsAgree {α β : Type} {agrees : α → α → Bool} {f : α → β}
    (same : ∀ one other, agrees one other = true → f one = f other) :
    ∀ {one other : Option α}, optionsAgree agrees one other = true → one.map f = other.map f
  | none, none, _ => rfl
  | some _, some _, agree => congrArg some (same _ _ agree)

theorem StyleBlock.ownProperties_eq_of_agrees {block other : StyleBlock}
    (agree : block.agrees other = true) : block.ownProperties = other.ownProperties := by
  have same : block.entries = other.entries := of_decide_eq_true (Bool.and_eq_true_iff.1 agree).2
  rw [ownProperties, ownProperties, same]

theorem StyleBlock.tags_eq_of_agrees {block other : StyleBlock} (agree : block.agrees other = true) :
    block.tags.map Spanned.value = other.tags.map Spanned.value :=
  map_eq_of_listsAgree (fun _ _ => Spanned.value_eq_of_agrees) (Bool.and_eq_true_iff.1 agree).1

/-- A style that is put differently comes to the same for whatever has it. -/
theorem map_elementStyle_eq_of_agrees {style other : Option StyleBlock}
    (agree : optionsAgree StyleBlock.agrees style other = true) :
    style.map (fun block => elementStyle (some block)) =
      other.map fun block => elementStyle (some block) := by
  refine map_eq_of_optionsAgree (fun block block' same => ?_) agree
  rw [elementStyle, elementStyle, StyleBlock.ownProperties_eq_of_agrees same,
    StyleBlock.tags_eq_of_agrees same]

theorem elementStyle_eq_of_agrees {style other : Option StyleBlock}
    (agree : optionsAgree StyleBlock.agrees style other = true) :
    elementStyle style = elementStyle other := by
  have same := congrArg (Option.getD · .plain) (map_elementStyle_eq_of_agrees agree)
  cases style <;> cases other <;> exact same

mutual

theorem Argument.rewords_of_agrees (swap : Option (String × String)) : ∀ {one other : Argument},
    one.agrees other = true → Argument.Rewords swap 0 one other
  | .call ⟨⟨name, arguments, style⟩, _⟩, .call ⟨⟨name', arguments', style'⟩, _⟩, agree => by
      rw [Argument.agrees, Bool.and_eq_true, Bool.and_eq_true] at agree
      exact .call (Spanned.value_eq_of_agrees agree.1.1)
        (Argument.listRewords_of_agrees swap agree.1.2) agree.2
  | .reference _, .reference _, agree => .reference (Spanned.value_eq_of_agrees agree)

/-- Where arguments agree, nothing is replaced. -/
theorem Argument.listRewords_of_agrees (swap : Option (String × String)) :
    ∀ {ones others : List Argument}, Argument.listAgrees ones others = true →
      Argument.ListRewords swap 0 ones others
  | [], [], _ => .nil
  | one :: ones, other :: others, agree => by
      rw [Argument.listAgrees, Bool.and_eq_true] at agree
      exact .cons (Argument.rewords_of_agrees swap agree.1)
        (Argument.listRewords_of_agrees swap agree.2)

end

end Agreement

/-! ### Two builders in nearly the same state -/

/-- Two arguments on their way come from the same element, and their edges will look the same. -/
structure Incoming.Like (incoming other : Incoming) : Prop where
  source : incoming.source = other.source
  name : incoming.name = other.name
  style : incoming.style = other.style

/-- A variable has the element and the style that an argument naming it takes over. -/
def Dag.Supplies (level : Dag) (incoming : Incoming) : Prop :=
  level.variableIds.get? incoming.name = some incoming.source ∧
    (level.variableStyle? (.single incoming.name)).getD .plain = incoming.style

/-- What the variables of a level stand for, and the styles declared on them. -/
def Dag.variables (level : Dag) : OrderedMap String Id × OrderedMap String (Option Style) :=
  (level.variableIds, level.variableStyles)

theorem Dag.Supplies.congr {level changed : Dag} {incoming : Incoming}
    (supplied : level.Supplies incoming) (same : changed.variables = level.variables) :
    changed.Supplies incoming := by
  obtain ⟨ids, styles⟩ := Prod.mk.inj same
  obtain ⟨bound, styled⟩ := supplied
  refine ⟨ids ▸ bound, ?_⟩
  change ((level.variableStyles.get? incoming.name).join).getD .plain = _ at styled
  show ((changed.variableStyles.get? incoming.name).join).getD .plain = _
  rw [styles, styled]

variable {σ : Type}

namespace Work

/-- An argument that names a variable was replaced by one that names the other variable. -/
def Traded (one other incoming incoming' : Incoming) : Prop :=
  incoming.Like one ∧ incoming'.Like other

/-- An edge that carries the one argument stands where an edge carries the other one. -/
def EdgeTraded (one other : Incoming) (edge edge' : Edge) : Prop :=
  ∃ id target, edge = edgeOf id target one ∧ edge' = edgeOf id target other

/-- The same state of the work, with other edges in the level and other warnings. -/
def withEdges (edges : OrderedMap Id Edge) (found : DiagnosticLog) (work : Work σ) : Work σ :=
  { work with level := { work.level with edges := edges }, found := found }

/-- Two builders are in the same state up to the places of warnings, but for `n` edges of arguments
that name different variables. -/
structure Alike (one other : Incoming) (n : Nat) (work work' : Work σ) : Prop where
  same : work' = work.withEdges work'.level.edges work'.found
  keys : work.level.edges.keys = work'.level.edges.keys
  edges : AlikeBut Eq (EdgeTraded one other) n work.level.edges.values work'.level.edges.values
  found : work.found.entries.map Diagnostic.unplaced = work'.found.entries.map Diagnostic.unplaced

variable {one other : Incoming} {n : Nat} {work work' : Work σ}

theorem Alike.level (alike : work.Alike one other n work') :
    work'.level = { work.level with edges := work'.level.edges } :=
  congrArg Work.level alike.same

theorem Alike.chain (alike : work.Alike one other n work') : work'.chain = work.chain := by
  rw [alike.same]
  rfl

theorem Alike.session (alike : work.Alike one other n work') : work'.session = work.session := by
  rw [alike.same]
  rfl

theorem Alike.elements (alike : work.Alike one other n work') :
    work'.level.elements = work.level.elements := by
  rw [alike.level]
  rfl

theorem Alike.producer? (alike : work.Alike one other n work') (path : QualifiedPath) :
    work'.level.producer? path = work.level.producer? path := by
  rw [alike.level]
  rfl

theorem Alike.variableStyle? (alike : work.Alike one other n work') (path : QualifiedPath) :
    work'.level.variableStyle? path = work.level.variableStyle? path := by
  rw [alike.level]
  obtain ⟨segments⟩ := path
  match segments with
  | [] => rfl
  | [_] => rfl
  | _ :: _ :: _ => rfl

theorem Alike.refl (one other : Incoming) (work : Work σ) : work.Alike one other 0 work where
  same := by
    obtain ⟨⟨_⟩, _⟩ := work
    rfl
  keys := rfl
  edges := .refl _
  found := rfl

/-- A change of both levels that has nothing to do with edges. -/
theorem Alike.onLevel (alike : work.Alike one other n work') (change : Dag → Dag)
    (apart : ∀ level edges, change { level with edges := edges } =
      { change level with edges := edges })
    (kept : (change work.level).edges = work.level.edges) :
    (work.onLevel change).Alike one other n (work'.onLevel change) := by
  have level : change work'.level = { change work.level with edges := work'.level.edges } := by
    rw [alike.level, apart]
  have edges : (change work'.level).edges = work'.level.edges := by rw [level]
  refine ⟨?_, ?_, ?_, alike.found⟩
  · show Work.mk (change work'.level) work'.found work'.chain work'.session =
      Work.mk { change work.level with edges := (change work'.level).edges } work'.found work.chain
        work.session
    rw [alike.chain, alike.session, edges, ← level]
  · show (change work.level).edges.keys = (change work'.level).edges.keys
    rw [kept, edges, alike.keys]
  · show AlikeBut _ _ _ (change work.level).edges.values (change work'.level).edges.values
    rw [kept, edges]
    exact alike.edges

/-- The same warning may be given in different places. -/
theorem Alike.report (alike : work.Alike one other n work') {warning warning' : Warning}
    (same : warning.diagnostic.unplaced = warning'.diagnostic.unplaced)
    (logged : warning.isLogged = warning'.isLogged) :
    (work.report warning).Alike one other n (work'.report warning') := by
  have message := congrArg Diagnostic.message same
  change warning.diagnostic.message = warning'.diagnostic.message at message
  refine ⟨?_, alike.keys, alike.edges, ?_⟩
  · show Work.mk work'.level _ work'.chain (if _ then _ else _) =
      Work.mk _ _ work.chain (if _ then _ else _)
    rw [alike.chain, alike.session, logged, message, alike.level]
    rfl
  · show (work.found.entries ++ [_]).map _ = (work'.found.entries ++ [_]).map _
    rw [List.map_append, List.map_append, alike.found, List.map_singleton, List.map_singleton, same]

theorem Alike.freshId (alike : work.Alike one other n work') :
    work'.freshId.1 = work.freshId.1 ∧ work.freshId.2.Alike one other n work'.freshId.2 := by
  unfold Work.freshId
  rw [alike.session]
  refine ⟨rfl, ?_, alike.keys, alike.edges, alike.found⟩
  rw [alike.chain, alike.level]
  rfl

theorem Alike.openNode (alike : work.Alike one other n work') (name : String)
    {style style' : Option StyleBlock} (agree : optionsAgree StyleBlock.agrees style style' = true) :
    (work'.openNode name style').1 = (work.openNode name style).1 ∧
      (work.openNode name style).2.Alike one other n (work'.openNode name style').2 := by
  obtain ⟨id, opened⟩ := alike.freshId
  refine ⟨id, ?_⟩
  unfold Work.openNode
  dsimp only
  rw [id, ← elementStyle_eq_of_agrees agree]
  exact opened.onLevel (fun level => level.addNode _) (fun _ _ => rfl) rfl

/-! ### Variables while arguments are gathered -/

theorem variables_connect (target : Id) (incoming : Incoming) (work : Work σ) :
    (work.connect target incoming).level.variables = work.level.variables := by
  unfold Work.connect
  dsimp only
  split
  · next added =>
      rw [(Dag.addEdge_ok added).2.2]
      rfl
  · rfl

theorem variables_connectAll (target : Id) (incoming : List Incoming) (work : Work σ) :
    (work.connectAll target incoming).level.variables = work.level.variables := by
  induction incoming generalizing work with
  | nil => rfl
  | cons argument rest step => exact (step _).trans (variables_connect target argument work)

theorem variables_lookUp (path : Spanned QualifiedPath) (work : Work σ) :
    (work.lookUp path).2.level.variables = work.level.variables := by
  unfold Work.lookUp
  split
  · rfl
  · rfl

mutual

theorem variables_gatherOne : ∀ (argument : Argument) (work : Work σ),
    (Work.gatherOne argument work).2.level.variables = work.level.variables
  | .call ⟨⟨name, arguments, style⟩, _⟩, work =>
    (variables_connectAll _ _ _).trans
      (variables_gather arguments (work.openNode name.value style).2)
  | .reference path, work => variables_lookUp path work
termination_by structural argument => argument

/-- Gathering arguments binds no variable. -/
theorem variables_gather : ∀ (arguments : List Argument) (work : Work σ),
    (Work.gather arguments work).2.level.variables = work.level.variables
  | [], _ => rfl
  | argument :: rest, work =>
    (variables_gather rest (Work.gatherOne argument work).2).trans
      (variables_gatherOne argument work)
termination_by structural arguments => arguments

end

/-! ### Edges and arguments -/

section Arguments

variable {keeps : σ → Prop} {old : List String} {start : IdSupply} {k : Nat}

/-- Arguments on their way, of which `k` name the one variable here and the other one there. -/
abbrev IncomingAlike (one other : Incoming) : (k : Nat) → List Incoming → List Incoming → Prop :=
  AlikeBut Incoming.Like (Traded one other)

/-- Arguments that were gathered: of `k` places some are among the edges that were added for nested
calls, and the others are among the arguments themselves. -/
def GatheredAlike (one other : Incoming) (n k : Nat) (result result' : List Incoming × Work σ) :
    Prop :=
  ∃ i j, i + j = k ∧ result.2.Alike one other (n + i) result'.2 ∧
    IncomingAlike one other j result.1 result'.1

theorem IncomingAlike.sources (joined : one.source = other.source)
    {incoming incoming' : List Incoming} (alike : IncomingAlike one other k incoming incoming') :
    incoming'.map Incoming.source = incoming.map Incoming.source := by
  induction alike with
  | nil => rfl
  | same here _ step => rw [List.map_cons, List.map_cons, step, here.source]
  | changed here _ step =>
      rw [List.map_cons, List.map_cons, step, here.1.source, here.2.source, joined]

theorem edgeOf_eq_of_like {incoming incoming' : Incoming} (like : incoming.Like incoming')
    (id target : Id) : edgeOf id target incoming = edgeOf id target incoming' := by
  rw [edgeOf, edgeOf, like.source, like.name, like.style]

/-- The edge of an argument is like the argument. -/
theorem IncomingAlike.edges {incoming incoming' : Incoming}
    (alike : IncomingAlike one other k [incoming] [incoming']) (id target : Id) :
    AlikeBut Eq (EdgeTraded one other) k [edgeOf id target incoming]
      [edgeOf id target incoming'] := by
  cases alike with
  | same here later =>
      cases later
      exact .same (edgeOf_eq_of_like here id target) .nil
  | changed here later =>
      cases later
      exact .changed ⟨id, target, edgeOf_eq_of_like here.1 id target,
        edgeOf_eq_of_like here.2 id target⟩ .nil

theorem Alike.connect (alike : work.Alike one other n work') (joined : one.source = other.source)
    (sound : work.Sound keeps old start) {target : Id} {incoming incoming' : Incoming}
    {rest : List Incoming} (ready : work.Ready target (incoming :: rest))
    (like : IncomingAlike one other k [incoming] [incoming']) :
    (work.connect target incoming).Alike one other (n + k) (work'.connect target incoming') := by
  have source := ready.sources _ List.mem_cons_self
  have same : incoming'.source = incoming.source := List.singleton_inj.1 (like.sources joined)
  have source' : incoming'.source ∈ work'.level.elements := by rwa [alike.elements, same]
  have into' : target ∈ work'.level.elements := by
    rw [alike.elements]
    exact ready.into
  rw [connect_eq source ready.into, connect_eq source' into']
  obtain ⟨id, fresh⟩ := alike.freshId
  have absent : work.freshId.1 ∉ work.level.edges.keys := fun held =>
    sound.freshId_unused (Dag.mem_ids_iff.2 (.inr (.inr (.inl held))))
  have absent' : work.freshId.1 ∉ work'.level.edges.keys := alike.keys ▸ absent
  rw [id]
  refine ⟨?_, ?_, ?_, alike.found⟩
  · rw [fresh.same]
    rfl
  · show (work.level.edges.insert _ _).keys = (work'.level.edges.insert _ _).keys
    rw [OrderedMap.keys_insert, OrderedMap.keys_insert, alike.keys]
  · show AlikeBut _ _ _ (work.level.edges.insert _ _).values (work'.level.edges.insert _ _).values
    rw [OrderedMap.values_insert_of_absent absent, OrderedMap.values_insert_of_absent absent']
    exact alike.edges.append (like.edges _ target)

theorem Alike.connectAll (alike : work.Alike one other n work') (joined : one.source = other.source)
    (sound : work.Sound keeps old start) {target : Id} {incoming incoming' : List Incoming}
    (ready : work.Ready target incoming) (like : IncomingAlike one other k incoming incoming') :
    (work.connectAll target incoming).Alike one other (n + k)
      (work'.connectAll target incoming') := by
  induction like generalizing n work work' with
  | nil => exact alike
  | same here later step =>
      obtain ⟨sound', ready', _⟩ := sound.connect ready
      exact step (alike.connect joined sound ready (.same here .nil)) sound' ready'
  | @changed k _ _ _ _ here later step =>
      obtain ⟨sound', ready', _⟩ := sound.connect ready
      have connected := step (alike.connect joined sound ready (.changed here .nil)) sound' ready'
      rwa [Nat.add_assoc, Nat.add_comm 1 k] at connected

theorem Alike.lookUp (alike : work.Alike one other n work') {path path' : Spanned QualifiedPath}
    (same : path.value = path'.value) :
    (work.lookUp path).2.Alike one other n (work'.lookUp path').2 ∧
      IncomingAlike one other 0 (work.lookUp path).1.toList (work'.lookUp path').1.toList := by
  obtain ⟨value, span⟩ := path
  obtain ⟨value', span'⟩ := path'
  obtain rfl : value = value' := same
  unfold Work.lookUp
  rw [alike.producer?, alike.variableStyle?]
  cases work.level.producer? value with
  | none => exact ⟨alike.report (Warning.unplaced_unresolved rfl) (by simp), .nil⟩
  | some source => exact ⟨alike, .same ⟨rfl, rfl, rfl⟩ .nil⟩

/-- If one variable may be named for another, they are the variables of the two arguments, and both
are known at the level. -/
def Knows (swap : Option (String × String)) (one other : Incoming) (level : Dag) : Prop :=
  ∀ x y, swap = some (x, y) → x = one.name ∧ y = other.name ∧ level.Supplies one ∧
    level.Supplies other

theorem knows_none (one other : Incoming) (level : Dag) : Knows none one other level :=
  fun _ _ swapped => nomatch swapped

theorem Knows.congr {swap : Option (String × String)} {level changed : Dag}
    (knows : Knows swap one other level) (same : changed.variables = level.variables) :
    Knows swap one other changed := by
  intro x y swapped
  obtain ⟨here, there, one_known, other_known⟩ := knows x y swapped
  exact ⟨here, there, one_known.congr same, other_known.congr same⟩

theorem lookUp_of_supplies {incoming : Incoming} (supplied : work.level.Supplies incoming)
    (span : Span) :
    work.lookUp ⟨.single incoming.name, span⟩ = (some { incoming with span := span }, work) := by
  obtain ⟨bound, styled⟩ := supplied
  have found : work.level.producer? (.single incoming.name) = some incoming.source := bound
  unfold Work.lookUp
  dsimp only
  rw [found, styled]
  rfl

theorem Alike.lookUp_replaced (alike : work.Alike one other n work')
    (one_known : work.level.Supplies one) (other_known : work.level.Supplies other)
    (span span' : Span) :
    (work.lookUp ⟨.single one.name, span⟩).2.Alike one other n
        (work'.lookUp ⟨.single other.name, span'⟩).2 ∧
      IncomingAlike one other 1 (work.lookUp ⟨.single one.name, span⟩).1.toList
        (work'.lookUp ⟨.single other.name, span'⟩).1.toList := by
  have other_known' : work'.level.Supplies other := by
    rw [Dag.Supplies, alike.variableStyle?, alike.level]
    exact other_known
  rw [lookUp_of_supplies one_known, lookUp_of_supplies other_known']
  exact ⟨alike, .changed ⟨⟨rfl, rfl, rfl⟩, ⟨rfl, rfl, rfl⟩⟩ .nil⟩

/-- Once the arguments of two calls have been gathered, they are finished alike. -/
theorem Alike.finishCall (alike : work.Alike one other n work') (joined : one.source = other.source)
    (sound : work.Sound keeps old start) (name : String) {style style' : Option StyleBlock}
    (styled : optionsAgree StyleBlock.agrees style style' = true)
    {arguments arguments' : List Argument}
    (gathered : GatheredAlike one other n k
      (Work.gather arguments (work.openNode name style).2)
      (Work.gather arguments' (work'.openNode name style').2)) :
    let opened := work.openNode name style
    let opened' := work'.openNode name style'
    let gathered := Work.gather arguments opened.2
    let gathered' := Work.gather arguments' opened'.2
    opened'.1 = opened.1 ∧ (gathered.2.connectAll opened.1 gathered.1).Alike one other (n + k)
      (gathered'.2.connectAll opened'.1 gathered'.1) := by
  obtain ⟨i, j, rfl, gathered, like⟩ := gathered
  have node := (alike.openNode name styled).1
  obtain ⟨sound', gathers⟩ := (sound.openNode name style).gather arguments
  refine ⟨node, ?_⟩
  rw [node, ← Nat.add_assoc]
  exact gathered.connectAll joined sound' (sound.ready_openNode gathers) like

mutual

theorem Alike.gatherOne (joined : one.source = other.source) {swap : Option (String × String)} :
    ∀ {k : Nat} {argument argument' : Argument}, Argument.Rewords swap k argument argument' →
      ∀ {n : Nat} {work work' : Work σ}, work.Alike one other n work' →
        work.Sound keeps old start → Knows swap one other work.level →
        GatheredAlike one other n k
          ((Work.gatherOne argument work).1.toList, (Work.gatherOne argument work).2)
          ((Work.gatherOne argument' work').1.toList, (Work.gatherOne argument' work').2)
  | _, _, _, .reference same, _, _, _, alike, _, _ => ⟨0, 0, rfl, alike.lookUp same⟩
  | _, _, _, .replaced swapped, _, _, _, alike, _, knows => by
      obtain ⟨rfl, rfl, one_known, other_known⟩ := knows _ _ swapped
      exact ⟨0, 1, rfl, alike.lookUp_replaced one_known other_known _ _⟩
  | k, _, _, @Argument.Rewords.call _ _ name _ _ _ style _ _ _ named inside styled, _, _, _, alike, sound, knows => by
      have opened := alike.openNode name.value styled
      have gathered := Alike.gather joined inside opened.2 (sound.openNode name.value style) knows
      obtain ⟨node, finished⟩ := alike.finishCall joined sound name.value styled gathered
      refine ⟨k, 0, rfl, ?_, ?_⟩
      · unfold Work.gatherOne
        rw [← named]
        exact finished
      · unfold Work.gatherOne
        rw [← named]
        exact .same ⟨node.symm, rfl, rfl⟩ .nil

theorem Alike.gather (joined : one.source = other.source) {swap : Option (String × String)} :
    ∀ {k : Nat} {arguments arguments' : List Argument},
      Argument.ListRewords swap k arguments arguments' →
      ∀ {n : Nat} {work work' : Work σ}, work.Alike one other n work' →
        work.Sound keeps old start → Knows swap one other work.level →
        GatheredAlike one other n k (Work.gather arguments work) (Work.gather arguments' work')
  | _, _, _, .nil, _, _, _, alike, _, _ => ⟨0, 0, rfl, alike, .nil⟩
  | _, _, _, @Argument.ListRewords.cons _ _ _ argument _ _ _ first others, n, work, _, alike, sound,
      knows => by
      obtain ⟨i, j, rfl, here, like⟩ := Alike.gatherOne joined first alike sound knows
      have knows' : Knows swap one other (Work.gatherOne argument work).2.level :=
        knows.congr (variables_gatherOne argument work)
      obtain ⟨i', j', rfl, later, likes⟩ :=
        Alike.gather joined others here (sound.gatherOne argument).1 knows'
      refine ⟨i + i', j + j', by omega, ?_, like.append likes⟩
      rw [← Nat.add_assoc]
      exact later

end

end Arguments

end Work

end RecipeGraph
