/-
# The lines of a dump as they are written

The dump of a graph is the outline of its appearance, each line written as its indentation and its
text. Where names are names, or nothing, every line can be read back: the word before the colon says
what kind of line it is, names end at the first character that no name has, and tags and properties
end with their brackets. So graphs with proper names are dumped alike exactly if they look alike.
-/

import RecipeGraph.Proofs.Graph.Names
import RecipeGraph.Proofs.Graph.Outline
import RecipeGraph.Proofs.Graph.Relabel
import RecipeGraph.Proofs.Parser.Canonical
import RecipeGraph.Proofs.Text.Quoted

namespace RecipeGraph

open RecipeGraph.Parser

/-- As many tabs as a line is indented by. -/
def tabs (depth : Nat) : String :=
  String.ofList (List.replicate depth '\t')

theorem tabs_succ (depth : Nat) : tabs (depth + 1) = tabs depth ++ "\t" := by
  rw [tabs, tabs, List.replicate_succ', String.ofList_append]

/-- What a line says, as it is written. -/
@[simp]
def Item.text : Item → String
  | .tags paths => "StyleTags: " ++ renderTags paths
  | .properties entries => "StyleMap: " ++ entries.render
  | .node name => "Node: " ++ name
  | .edge source name target => "Edge: " ++ source ++ " -(" ++ name ++ ")-> " ++ target
  | .style name entries => "Style: " ++ name ++ " " ++ entries.render
  | .binding keyword paths => "Binding: " ++ keyword ++ " " ++ renderTags paths
  | .level name => "Dag: " ++ name

@[simp]
def Line.text (line : Line) : String :=
  tabs line.depth ++ line.item.text

/-! ### A dump is an outline -/

theorem Style.lines_tabs (style : Style) (depth : Nat) :
    style.lines (tabs depth) = (style.outline depth).map Line.text := by
  rw [lines, outline, List.map_append]
  congr 1
  · split
    · rfl
    · rw [List.map_singleton, Line.text, Item.text, tabs_succ]
      simp only [String.append_assoc]
      rfl
  · split
    · rfl
    · rw [List.map_singleton, Line.text, Item.text, tabs_succ]
      simp only [String.append_assoc]
      rfl

namespace Dag

theorem dumpLines_tabs (dag : Dag) (depth : Nat) :
    dag.dumpLines (tabs depth) = (dag.appearance.outline depth).map Line.text := by
  induction dag using Dag.rise generalizing depth with
  | step dag below =>
      have nodes : dag.nodes.values.flatMap (nodeLines (tabs depth)) =
          (dag.appearance.nodes.flatMap (Appearance.nodeOutline depth)).map Line.text := by
        rw [appearance, List.flatMap_map, List.map_flatMap]
        refine List.flatMap_congr fun node _ => ?_
        rw [nodeLines, Style.lines_tabs, String.append_assoc]
        rfl
      have edges : dag.edges.values.flatMap (dag.edgeLines (tabs depth)) =
          (dag.appearance.edges.flatMap (Appearance.edgeOutline depth)).map Line.text := by
        rw [appearance, List.flatMap_map, List.map_flatMap]
        refine List.flatMap_congr fun edge _ => ?_
        rw [edgeLines, Style.lines_tabs]
        simp only [Appearance.edgeOutline, List.map_cons, Line.text, Item.text, String.append_assoc]
      have styles : (dag.styles.entries.map fun entry =>
          tabs depth ++ "Style: " ++ entry.1 ++ " " ++ entry.2.render) =
          (dag.appearance.styles.flatMap (Appearance.styleOutline depth)).map Line.text := by
        rw [appearance, List.map_flatMap, List.map_eq_flatMap]
        refine List.flatMap_congr fun entry _ => ?_
        simp only [Appearance.styleOutline, List.map_cons, List.map_nil, Line.text, Item.text,
          String.append_assoc]
      have bindings : (dag.bindings.entries.map fun entry =>
          tabs depth ++ "Binding: " ++ entry.1 ++ " " ++ renderTags entry.2) =
          (dag.appearance.bindings.flatMap (Appearance.bindingOutline depth)).map Line.text := by
        rw [appearance, List.map_flatMap, List.map_eq_flatMap]
        refine List.flatMap_congr fun entry _ => ?_
        simp only [Appearance.bindingOutline, List.map_cons, List.map_nil, Line.text, Item.text,
          String.append_assoc]
      have levels : (dag.children.values.flatMap fun child =>
          (tabs depth ++ "Dag: " ++ child.name) :: child.style.lines (tabs depth) ++
            child.dumpLines (tabs depth ++ "\t")) =
          (dag.appearance.levels.flatMap (Appearance.levelOutline depth)).map Line.text := by
        rw [levels_appearance, List.flatMap_map, List.map_flatMap]
        refine List.flatMap_congr fun child nested => ?_
        rw [← tabs_succ, below child nested, Style.lines_tabs, String.append_assoc]
        simp only [Appearance.levelOutline, List.map_cons, List.map_append, Line.text, Item.text,
          List.cons_append]
      rw [dumpLines_eq, ownLines, nodes, edges, styles, bindings, levels, Appearance.outline_eq]
      simp only [List.map_append, List.append_assoc]

/-- A dump is an outline, every line ended by a line break. -/
theorem toList_dump (dag : Dag) :
    dag.dump.toList =
      (dag.appearance.outline 0).flatMap fun line => line.text.toList ++ ['\n'] := by
  have lines : dag.dumpLines "" = (dag.appearance.outline 0).map Line.text := dag.dumpLines_tabs 0
  rw [dump, lines, String.toList_join]
  simp only [List.map_map, List.flatMap_map, Function.comp_def, String.toList_append]
  rfl

end Dag

/-! ### Names, paths, tags and properties can be read back -/

theorem isNamePart_of_label {name : String} (label : IsLabel name) :
    ∀ c ∈ name.toList, isNamePart c = true := by
  rcases label with rfl | ⟨first, others, same, start, parts⟩
  · exact nofun
  · rw [same]
    exact List.forall_mem_cons.2 ⟨isNamePart_of_isNameStart start, parts⟩

/-- A name, or none, ends where no part of a name follows. -/
theorem readsBack_label {name : String} (label : IsLabel name) :
    ReadsBack String.toList IsLabel (Ahead (isNamePart · = false)) name :=
  ((ReadsBack.run (isNamePart_of_label label)).comap fun _ _ => String.toList_inj.1).among
    fun _ => isNamePart_of_label

/-- A name, or none, with what always stands behind it, if that begins with no part of a name. -/
theorem readsBack_closedLabel {name : String} (label : IsLabel name) {behind : List Char}
    (closes : Starts (isNamePart · = false) behind) :
    ReadsBack (fun name => name.toList ++ behind) IsLabel (fun _ => True) name :=
  (readsBack_label label).before behind fun rest => (closes.append rest).ahead

/-- What a scanner reads can be read back. -/
theorem Parser.Scanner.Reads.readsBack {α β : Type} {scanner : Scanner β} {value : β → α}
    {write : α → List Char} {fits : α → Prop} {ahead : List Char → Prop}
    (reads : ∀ item, fits item → ∀ rest, ahead rest →
      scanner.Reads (write item) rest fun found => value found = item)
    {item : α} (fit : fits item) : ReadsBack write fits ahead item := by
  intro other fit' rest rest' behind behind' same
  obtain ⟨found, here, read⟩ := reads item fit rest behind 0
  obtain ⟨found', here', read'⟩ := reads other fit' rest' behind' 0
  rw [same, read'] at read
  injection read with value stop
  injection stop with ended
  exact ⟨here.symm.trans (value ▸ here'), ended.symm⟩

theorem QualifiedPath.Named.written {path : QualifiedPath} (named : path.Named) :
    PathText path path.joined.toList := by
  rw [toList_joined]
  exact Run.of_forall named.1 rfl fun name held => ⟨named.2 name held, rfl⟩

/-- A path of names ends where neither a part of a name nor a dot follows. -/
theorem readsBack_joined {path : QualifiedPath} (named : path.Named) :
    ReadsBack (fun path => path.joined.toList) QualifiedPath.Named Apart path :=
  Scanner.Reads.readsBack (fun _ named _ apart => reads_qualifiedName named.written apart) named

theorem toList_renderTags (tags : List QualifiedPath) :
    (renderTags tags).toList =
      ['['] ++ ([',', ' '].intercalate (tags.map fun tag => tag.joined.toList) ++ [']']) := by
  simp only [renderTags, String.toList_append, String.toList_intercalate, List.map_map,
    Function.comp_def, List.append_assoc]
  rfl

/-- Tags end with their bracket. -/
theorem readsBack_renderTags {tags : List QualifiedPath} (named : ∀ tag ∈ tags, tag.Named) :
    ReadsBack (fun tags => (renderTags tags).toList) (fun tags => ∀ tag ∈ tags, tag.Named)
      (fun _ => True) tags := by
  simp only [toList_renderTags]
  refine .after ['['] (.listed (fun _ => readsBack_joined)
    (fun _ => .cons (by decide) (by decide)) (fun _ => .cons (by decide) (by decide)) (by decide)
    (fun tag named rest ended => ?_) named)
  exact absurd ((named.written.starts.append rest).ahead _ ended) (by decide)

/-- A property as it stands between the brackets. -/
def propertyText (entry : String × String) : List Char :=
  (Text.quote entry.1).toList ++ ([':', ' '] ++ (Text.quote entry.2).toList)

theorem readsBack_propertyText (entry : String × String) :
    ReadsBack propertyText (fun _ => True) (fun _ => True) entry := by
  rintro ⟨key', value'⟩ _ rest rest' _ _ same
  obtain ⟨key, value⟩ := entry
  simp only [propertyText, List.append_assoc] at same
  obtain ⟨rfl, later⟩ := Text.readsBack_quote key trivial trivial trivial same
  obtain ⟨rfl, ended⟩ :=
    Text.readsBack_quote value trivial trivial trivial (List.append_cancel_left later)
  exact ⟨rfl, ended⟩

theorem toList_render (properties : StyleProperties) :
    properties.render.toList =
      ['\x7b'] ++ ([',', ' '].intercalate (properties.entries.map propertyText) ++ ['\x7d']) := by
  simp only [StyleProperties.render, String.toList_append, String.toList_intercalate, List.map_map,
    Function.comp_def, List.append_assoc]
  rfl

/-- Properties end with their bracket, whatever their keys and values are. -/
theorem readsBack_render (properties : StyleProperties) :
    ReadsBack (fun properties : StyleProperties => properties.render.toList) (fun _ => True)
      (fun _ => True) properties := by
  have entries : ReadsBack (fun entries => [',', ' '].intercalate (entries.map propertyText) ++
      ['\x7d']) (fun entries => ∀ entry ∈ entries, True) (fun _ => True) properties.entries :=
    .listed (fun entry _ => readsBack_propertyText entry) (fun _ => trivial) (fun _ => trivial)
      (by decide) (fun entry _ rest => by simp [propertyText, Text.toList_quote])
      fun _ _ => trivial
  simp only [toList_render]
  refine .after ['\x7b'] ((entries.comap fun one other same => ?_).among fun _ _ _ _ => trivial)
  exact congrArg OrderedMap.mk same

/-! ### Lines can be read back -/

/-- The names on a line are names, or nothing. -/
def Item.Legible : Item → Prop
  | .tags paths => ∀ path ∈ paths, path.Named
  | .properties _ => True
  | .node name => IsLabel name
  | .edge source name target => IsLabel source ∧ IsLabel name ∧ IsLabel target
  | .style name _ => IsLabel name
  | .binding keyword paths => IsLabel keyword ∧ ∀ path ∈ paths, path.Named
  | .level name => IsLabel name

/-- The text of a line says what kind of line it is, and ends at the line break. -/
theorem Item.readsBack_text {item : Item} (legible : item.Legible) :
    ReadsBack (fun item => item.text.toList ++ ['\n']) Item.Legible (fun _ => True) item := by
  intro other legible' rest rest' _ _ same
  cases item with
  | tags paths =>
      cases other with
      | tags paths' =>
          have written : (renderTags paths).toList ++ ['\n'] ++ rest =
              (renderTags paths').toList ++ ['\n'] ++ rest' := by simpa using same
          obtain ⟨rfl, ended⟩ := (readsBack_renderTags legible).before ['\n'] (fun _ => trivial)
            legible' trivial trivial written
          exact ⟨rfl, ended⟩
      | _ => simp at same
  | properties entries =>
      cases other with
      | properties entries' =>
          have written : entries.render.toList ++ ['\n'] ++ rest =
              entries'.render.toList ++ ['\n'] ++ rest' := by simpa using same
          obtain ⟨rfl, ended⟩ := (readsBack_render entries).before ['\n'] (fun _ => trivial)
            trivial trivial trivial written
          exact ⟨rfl, ended⟩
      | _ => simp at same
  | node name =>
      cases other with
      | node name' =>
          have written : name.toList ++ ['\n'] ++ rest = name'.toList ++ ['\n'] ++ rest' := by
            simpa using same
          obtain ⟨rfl, ended⟩ := readsBack_closedLabel legible (.cons (by decide)) legible' trivial
            trivial written
          exact ⟨rfl, ended⟩
      | _ => simp at same
  | edge source name target =>
      cases other with
      | edge source' name' target' =>
          have written : source.toList ++ [' ', '-', '('] ++ (name.toList ++ [')', '-', '>', ' '] ++
                (target.toList ++ ['\n'] ++ rest)) =
              source'.toList ++ [' ', '-', '('] ++ (name'.toList ++ [')', '-', '>', ' '] ++
                (target'.toList ++ ['\n'] ++ rest')) := by
            simpa using same
          obtain ⟨rfl, first⟩ := readsBack_closedLabel legible.1 (.cons (by decide)) legible'.1
            trivial trivial written
          obtain ⟨rfl, second⟩ := readsBack_closedLabel legible.2.1 (.cons (by decide)) legible'.2.1
            trivial trivial first
          obtain ⟨rfl, ended⟩ := readsBack_closedLabel legible.2.2 (.cons (by decide)) legible'.2.2
            trivial trivial second
          exact ⟨rfl, ended⟩
      | _ => simp at same
  | style name entries =>
      cases other with
      | style name' entries' =>
          have written : name.toList ++ [' '] ++ (entries.render.toList ++ ['\n'] ++ rest) =
              name'.toList ++ [' '] ++ (entries'.render.toList ++ ['\n'] ++ rest') := by
            simpa using same
          obtain ⟨rfl, later⟩ := readsBack_closedLabel legible (.cons (by decide)) legible' trivial
            trivial written
          obtain ⟨rfl, ended⟩ := (readsBack_render entries).before ['\n'] (fun _ => trivial)
            trivial trivial trivial later
          exact ⟨rfl, ended⟩
      | _ => simp at same
  | binding keyword paths =>
      cases other with
      | binding keyword' paths' =>
          have written : keyword.toList ++ [' '] ++ ((renderTags paths).toList ++ ['\n'] ++ rest) =
              keyword'.toList ++ [' '] ++ ((renderTags paths').toList ++ ['\n'] ++ rest') := by
            simpa using same
          obtain ⟨rfl, later⟩ := readsBack_closedLabel legible.1 (.cons (by decide)) legible'.1
            trivial trivial written
          obtain ⟨rfl, ended⟩ := (readsBack_renderTags legible.2).before ['\n'] (fun _ => trivial)
            legible'.2 trivial trivial later
          exact ⟨rfl, ended⟩
      | _ => simp at same
  | level name =>
      cases other with
      | level name' =>
          have written : name.toList ++ ['\n'] ++ rest = name'.toList ++ ['\n'] ++ rest' := by
            simpa using same
          obtain ⟨rfl, ended⟩ := readsBack_closedLabel legible (.cons (by decide)) legible' trivial
            trivial written
          exact ⟨rfl, ended⟩
      | _ => simp at same

/-- Behind the indentation of a line there is no further tab. -/
theorem Item.untabbed_text (item : Item) (rest : List Char) :
    ∀ c ∈ (item.text.toList ++ rest).head?, (c == '\t') = false := by
  cases item <;> simp

/-- A line tells how far it is indented as well. -/
theorem Line.readsBack_text {line : Line} (legible : line.item.Legible) :
    ReadsBack (fun line => line.text.toList ++ ['\n']) (fun line => line.item.Legible)
      (fun _ => True) line := by
  intro other legible' rest rest' _ _ same
  obtain ⟨depth, item⟩ := line
  obtain ⟨depth', item'⟩ := other
  have tabbed : ∀ depth, ∀ c ∈ List.replicate depth '\t', (c == '\t') = true := by
    intro depth c held
    rw [List.eq_of_mem_replicate held, beq_self_eq_true]
  simp only [Line.text, tabs, String.toList_append, String.toList_ofList, List.append_assoc] at same
  obtain ⟨indented, later⟩ := ReadsBack.run (tabbed depth) (tabbed depth') (item.untabbed_text _)
    (item'.untabbed_text _) same
  obtain ⟨rfl, ended⟩ := Item.readsBack_text legible legible' trivial trivial
    (by simpa only [List.append_assoc] using later)
  obtain rfl : depth = depth' := by simpa using congrArg List.length indented
  exact ⟨rfl, ended⟩

/-! ### Dumps -/

theorem Style.Named.legible_outline {style : Style} (named : style.Named) (depth : Nat) :
    ∀ line ∈ style.outline depth, line.item.Legible := by
  intro line held
  rcases List.mem_append.1 held with tagged | described
  · split at tagged
    · nomatch tagged
    · rw [List.mem_singleton.1 tagged]
      exact named
  · split at described
    · nomatch described
    · rw [List.mem_singleton.1 described]
      exact trivial

namespace Dag

variable {dag other : Dag}

/-- An end of an edge has a name, or nothing stands for it. -/
theorem NamedThroughout.label_displayName (whole : dag.NamedThroughout) (id : Id) :
    IsLabel (dag.displayName id) := by
  unfold displayName elementName?
  split
  · next node found => exact .inr (whole.root.nodes node (OrderedMap.mem_values_of_get? found)).1
  · cases found : dag.children.get? id with
    | none => exact .inl rfl
    | some child => exact (whole.child (OrderedMap.mem_values_of_get? found)).root.name

/-- The names on the lines of a graph with proper names are names, or nothing. -/
theorem NamedThroughout.legible_outline (whole : dag.NamedThroughout) (depth : Nat) :
    ∀ line ∈ dag.appearance.outline depth, line.item.Legible := by
  induction dag using Dag.rise generalizing depth with
  | step dag below =>
      intro line held
      rw [Appearance.outline_eq, levels_appearance, appearance] at held
      simp only [List.mem_append, List.mem_flatMap, List.mem_map] at held
      rcases held with ⟨_, ⟨node, held, rfl⟩, inside⟩ | ⟨_, ⟨edge, held, rfl⟩, inside⟩ |
        ⟨entry, held, inside⟩ | ⟨entry, held, inside⟩ | ⟨_, ⟨child, nested, rfl⟩, inside⟩
      · obtain ⟨isName, styled⟩ := whole.root.nodes node held
        rcases List.mem_cons.1 inside with rfl | later
        · exact .inr isName
        · exact styled.legible_outline depth line later
      · obtain ⟨label, styled⟩ := whole.root.edges edge held
        rcases List.mem_cons.1 inside with rfl | later
        · exact ⟨whole.label_displayName _, label, whole.label_displayName _⟩
        · exact styled.legible_outline depth line later
      · rw [List.mem_singleton.1 inside]
        exact .inr (whole.root.styles entry.1 (List.mem_map_of_mem held))
      · obtain ⟨isName, tagged⟩ := whole.root.bindings entry held
        rw [List.mem_singleton.1 inside]
        exact ⟨.inr isName, tagged⟩
      · have inner := whole.child nested
        rcases List.mem_cons.1 inside with rfl | later
        · exact inner.root.name
        · rcases List.mem_append.1 later with styled | deeper
          · exact inner.root.style.legible_outline depth line styled
          · exact below child nested inner (depth + 1) line deeper

/-- Graphs with proper names are dumped alike exactly if they look alike. -/
theorem dump_eq_iff_appearance (whole : dag.NamedThroughout) (whole' : other.NamedThroughout) :
    dag.dump = other.dump ↔ dag.appearance = other.appearance := by
  constructor
  · intro same
    have texts := congrArg String.toList same
    rw [toList_dump, toList_dump] at texts
    have lines : ReadsBack (List.flatMap fun line : Line => line.text.toList ++ ['\n'])
        (fun lines => ∀ line ∈ lines, line.item.Legible) (· = []) (dag.appearance.outline 0) :=
      .many (fun _ _ _ => trivial) (fun _ _ => trivial) (fun _ _ _ => by simp)
        (whole.legible_outline 0)
        fun line held => Line.readsBack_text (whole.legible_outline 0 line held)
    have outlines := (lines (whole'.legible_outline 0) rfl rfl (congrArg (· ++ []) texts)).1
    exact Appearance.outline_injective 0 outlines
  · intro same
    exact String.toList_inj.1 (by rw [toList_dump, toList_dump, same])

end Dag

end RecipeGraph
