/-
# Names in graphs

Nodes, styles and keywords are named by names, and so is every segment of a tag. Levels and edges
have names as well, or none: then the name is empty. Each operation of a level keeps to this, as
long as what it is given does, and taking a copy changes no name.
-/

import RecipeGraph.Proofs.Graph.Isomorphism
import RecipeGraph.Proofs.Parser.Names

namespace RecipeGraph

open RecipeGraph.Parser

/-- A name, or nothing. -/
def IsLabel (text : String) : Prop :=
  text = "" ∨ IsName text

/-- Every tag of a style is a path of names. -/
def Style.Named (style : Style) : Prop :=
  ∀ tag ∈ style.tags, tag.Named

theorem Style.named_plain : Style.plain.Named :=
  nofun

namespace Dag

/-- Whatever has a name at a level has a proper one. -/
structure Named (dag : Dag) : Prop where
  name : IsLabel dag.name
  style : dag.style.Named
  nodes : ∀ node ∈ dag.nodes.values, IsName node.name ∧ node.style.Named
  edges : ∀ edge ∈ dag.edges.values, IsLabel edge.name ∧ edge.style.Named
  styles : ∀ name ∈ dag.styles.keys, IsName name
  bindings : ∀ entry ∈ dag.bindings.entries, IsName entry.1 ∧ ∀ tag ∈ entry.2, tag.Named
  variableStyles : ∀ style, some style ∈ dag.variableStyles.values → style.Named

/-- Whatever has a name in a graph has a proper one. -/
abbrev NamedThroughout (dag : Dag) : Prop :=
  dag.Throughout Named

variable {dag other : Dag}

namespace Named

theorem empty (id : Id) {name : String} (label : IsLabel name) : (Dag.empty id name).Named :=
  ⟨label, Style.named_plain, nofun, nofun, nofun, nofun, nofun⟩

theorem withParent (named : dag.Named) (parent : Id) : (dag.withParent parent).Named :=
  { named with }

theorem withStyle (named : dag.Named) {style : Style} (given : style.Named) :
    (dag.withStyle style).Named :=
  { named with style := given }

theorem addNode (named : dag.Named) {node : Node} (isName : IsName node.name)
    (styled : node.style.Named) : (dag.addNode node).Named := by
  refine { named with nodes := fun other held => ?_ }
  rcases OrderedMap.mem_values_insert held with rfl | old
  · exact ⟨isName, styled⟩
  · exact named.nodes other old

theorem insertEdge (named : dag.Named) {edge : Edge} (label : IsLabel edge.name)
    (styled : edge.style.Named) : Named { dag with edges := dag.edges.insert edge.id edge } := by
  refine { named with edges := fun other held => ?_ }
  rcases OrderedMap.mem_values_insert held with rfl | old
  · exact ⟨label, styled⟩
  · exact named.edges other old

theorem attach (named : dag.Named) (child : Dag) : (dag.attach child).Named :=
  { named with }

theorem setStyle (named : dag.Named) {name : String} (isName : IsName name)
    (properties : StyleProperties) : (dag.setStyle name properties).Named := by
  refine { named with styles := fun other held => ?_ }
  rcases OrderedMap.mem_keys_insert.1 held with rfl | old
  · exact isName
  · exact named.styles other old

theorem bindStyles (named : dag.Named) {keyword : String} (isName : IsName keyword)
    {tags : List QualifiedPath} (tagged : ∀ tag ∈ tags, tag.Named) :
    (dag.bindStyles keyword tags).Named := by
  refine { named with bindings := fun entry held => ?_ }
  rcases OrderedMap.mem_entries_insert held with rfl | old
  · exact ⟨isName, tagged⟩
  · exact named.bindings entry old

theorem setVariable (named : dag.Named) (name : String) (id : Id) : (dag.setVariable name id).Named :=
  { named with }

theorem setVariableStyle (named : dag.Named) (name : String) {style : Option Style}
    (styled : ∀ given ∈ style, given.Named) : (dag.setVariableStyle name style).Named := by
  refine { named with variableStyles := fun given held => ?_ }
  rcases OrderedMap.mem_values_insert held with same | old
  · exact styled given same.symm
  · exact named.variableStyles given old

theorem addImport (named : dag.Named) (location : String) : (dag.addImport location).Named :=
  { named with }

theorem reidentify (named : dag.Named) (id : Id) {name : String} (label : IsLabel name) :
    (dag.reidentify id name).Named :=
  { named with name := label }

theorem merge (named : dag.Named) (inside : other.Named) : (dag.merge other).Named := by
  rw [Dag.merge, attachAll_eq]
  refine ⟨named.name, named.style, ?_, ?_, ?_, ?_, ?_⟩
  · exact fun node held => (OrderedMap.mem_values_extend held).elim (inside.nodes node)
      (named.nodes node)
  · exact fun edge held => (OrderedMap.mem_values_extend held).elim (inside.edges edge)
      (named.edges edge)
  · exact fun name held => (OrderedMap.mem_keys_insertAll.1 held).elim (inside.styles name)
      (named.styles name)
  · exact fun entry held => (OrderedMap.mem_entries_insertAll held).elim (inside.bindings entry)
      (named.bindings entry)
  · exact fun style held => (OrderedMap.mem_values_extend held).elim (inside.variableStyles style)
      (named.variableStyles style)

theorem freshCopy (named : dag.Named) (supply : IdSupply) : (dag.freshCopy supply).1.Named := by
  rw [freshCopy_eq]
  refine { named with nodes := fun copy held => ?_, edges := fun copy held => ?_ }
  · obtain ⟨made, inside, rfl⟩ := List.mem_map.1 (OrderedMap.mem_values_ofList held)
    obtain ⟨node, old, id, rfl⟩ := OrderedMap.exists_related_of_mem (copyNodes_made _ _) inside
    exact named.nodes node old
  · have inside := OrderedMap.mem_values_ofList held
    obtain ⟨edge, old, id, rfl⟩ := OrderedMap.exists_related_of_mem (copyEdges_made _ _ _) inside
    exact named.edges edge old

end Named

namespace NamedThroughout

theorem empty (id : Id) {name : String} (label : IsLabel name) :
    (Dag.empty id name).NamedThroughout :=
  .intro (.empty id label) nofun

theorem attach (whole : dag.NamedThroughout) (inside : other.NamedThroughout) :
    (dag.attach other).NamedThroughout :=
  Throughout.attach Named.withParent whole inside (whole.root.attach other)

theorem merge (whole : dag.NamedThroughout) (inside : other.NamedThroughout) :
    (dag.merge other).NamedThroughout :=
  Throughout.merge Named.withParent whole inside (whole.root.merge inside.root)

theorem reidentify (whole : dag.NamedThroughout) (id : Id) {name : String} (label : IsLabel name) :
    (dag.reidentify id name).NamedThroughout :=
  Throughout.reidentify Named.withParent whole id name (whole.root.reidentify id label)

theorem freshCopy (whole : dag.NamedThroughout) (supply : IdSupply) :
    (dag.freshCopy supply).1.NamedThroughout :=
  Throughout.freshCopy Named.withParent (fun _ => Named.freshCopy) whole supply

end NamedThroughout

/-- A style that is found for a variable has proper tags. -/
theorem NamedThroughout.variableStyleAt? : ∀ {segments : List String} {dag : Dag} {style : Style},
    dag.NamedThroughout → Dag.variableStyleAt? segments dag = some style → style.Named
  | [], _, _, _, found => nomatch found
  | [_], _, style, whole, found =>
    whole.root.variableStyles style (OrderedMap.mem_values_of_get? (Option.join_eq_some_iff.1 found))
  | _ :: _ :: _, _, _, whole, found => by
      obtain ⟨child, selected, deeper⟩ := Option.bind_eq_some_iff.1 found
      exact NamedThroughout.variableStyleAt? (whole.child (childFor?_mem selected)) deeper
termination_by segments => segments

end Dag

end RecipeGraph
