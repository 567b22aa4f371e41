/-
# What the lines of a dump say

What a dump tells of a graph is an appearance: the nodes, edges, styles, bindings and nested levels
in their order, with the names at the ends of the edges, and without identifiers. The outline of an
appearance is the list of its lines, each with the depth that it is indented to and with what it
says.

An outline can be read back as long as what comes behind it is indented less. The lines of a level
come in the order of their kinds and none is indented less than the level, so a line that is
indented less, or that is of a later kind, ends what went before. What is said about the style of an
element is of no kind that stands on its own, so these lines belong to the element before them.
-/

import RecipeGraph.Dag.Dump
import RecipeGraph.Proofs.Data.ReadsBack

namespace RecipeGraph

/-! ### Appearances -/

/-- The name of an element and what is said about its looks. -/
structure Caption where
  name : String
  style : Style

/-- An edge by the names of what it joins. -/
structure Flow where
  source : String
  name : String
  target : String
  style : Style

/-- What can be seen of a level, and of the levels nested in it. -/
structure Appearance where
  nodes : List Caption
  edges : List Flow
  styles : List (String × StyleProperties)
  bindings : List (String × List QualifiedPath)
  levels : List (Caption × Appearance)

theorem Appearance.sizeOf_lt {look : Appearance} {level : Caption × Appearance}
    (held : level ∈ look.levels) : sizeOf level.2 < sizeOf look := by
  have smaller := List.sizeOf_lt_of_mem held
  obtain ⟨_, _, _, _, levels⟩ := look
  obtain ⟨caption, inside⟩ := level
  simp only [Appearance.mk.sizeOf_spec, Prod.mk.sizeOf_spec] at *
  omega

/-- What holds of an appearance as soon as it holds of its levels holds of every appearance. -/
@[elab_as_elim]
theorem Appearance.rise {P : Appearance → Prop}
    (step : ∀ look, (∀ level ∈ look.levels, P level.2) → P look) (look : Appearance) : P look :=
  step look fun level held => have := sizeOf_lt held; rise step level.2
termination_by look

theorem Dag.sizeOf_child_lt {dag : Dag} {entry : Id × Dag} (held : entry ∈ dag.children.entries) :
    sizeOf entry.2 < sizeOf dag := by
  have smaller := List.sizeOf_lt_of_mem held
  obtain ⟨_, _, _, _, _, _, ⟨children⟩, _, _, _, _, _⟩ := dag
  obtain ⟨key, child⟩ := entry
  simp only [Dag.mk.sizeOf_spec, Prod.mk.sizeOf_spec, OrderedMap.mk.sizeOf_spec] at *
  omega

/-- What can be seen of a graph. -/
def Dag.appearance (dag : Dag) : Appearance :=
  { nodes := dag.nodes.values.map fun node => ⟨node.name, node.style⟩
    edges := dag.edges.values.map fun edge =>
      ⟨dag.displayName edge.source, edge.name, dag.displayName edge.target, edge.style⟩
    styles := dag.styles.entries
    bindings := dag.bindings.entries
    levels := dag.children.entries.map fun entry =>
      (⟨entry.2.name, entry.2.style⟩, entry.2.appearance) }
termination_by dag
decreasing_by exact Dag.sizeOf_child_lt ‹_›

theorem Dag.levels_appearance (dag : Dag) :
    dag.appearance.levels =
      dag.children.values.map fun child => (⟨child.name, child.style⟩, child.appearance) := by
  have all := List.map_map (f := Prod.snd) (l := dag.children.entries)
    (g := fun child : Dag => (Caption.mk child.name child.style, child.appearance))
  rw [appearance]
  exact all.symm

/-! ### Outlines -/

/-- What a line of a dump says. -/
inductive Item where
  | tags (tags : List QualifiedPath)
  | properties (properties : StyleProperties)
  | node (name : String)
  | edge (source name target : String)
  | style (name : String) (properties : StyleProperties)
  | binding (keyword : String) (tags : List QualifiedPath)
  | level (name : String)

/-- The kind of an item. The lines of a level come in the order of their kinds, and the first two
kinds stand behind an element whose style they tell. -/
def Item.rank : Item → Nat
  | .tags _ => 0
  | .properties _ => 1
  | .node _ => 2
  | .edge _ _ _ => 3
  | .style _ _ => 4
  | .binding _ _ => 5
  | .level _ => 6

/-- An item and how far it is indented. -/
structure Line where
  depth : Nat
  item : Item

/-- The lines that belong to an element with a style. -/
def Style.outline (style : Style) (depth : Nat) : List Line :=
  (if style.tags.isEmpty then [] else [⟨depth + 1, .tags style.tags⟩]) ++
    if style.properties.isEmpty then [] else [⟨depth + 1, .properties style.properties⟩]

namespace Appearance

def nodeOutline (depth : Nat) (node : Caption) : List Line :=
  ⟨depth, .node node.name⟩ :: node.style.outline depth

def edgeOutline (depth : Nat) (edge : Flow) : List Line :=
  ⟨depth, .edge edge.source edge.name edge.target⟩ :: edge.style.outline depth

def styleOutline (depth : Nat) (entry : String × StyleProperties) : List Line :=
  [⟨depth, .style entry.1 entry.2⟩]

def bindingOutline (depth : Nat) (entry : String × List QualifiedPath) : List Line :=
  [⟨depth, .binding entry.1 entry.2⟩]

/-- The lines of a level, and of the levels nested in it. -/
def outline (look : Appearance) (depth : Nat) : List Line :=
  look.nodes.flatMap (nodeOutline depth) ++ (look.edges.flatMap (edgeOutline depth) ++
    (look.styles.flatMap (styleOutline depth) ++ (look.bindings.flatMap (bindingOutline depth) ++
      look.levels.flatMap fun level =>
        ⟨depth, .level level.1.name⟩ ::
          (level.1.style.outline depth ++ level.2.outline (depth + 1)))))
termination_by look
decreasing_by exact sizeOf_lt ‹_›

def levelOutline (depth : Nat) (level : Caption × Appearance) : List Line :=
  ⟨depth, .level level.1.name⟩ :: (level.1.style.outline depth ++ level.2.outline (depth + 1))

theorem outline_eq (look : Appearance) (depth : Nat) :
    look.outline depth =
      look.nodes.flatMap (nodeOutline depth) ++ (look.edges.flatMap (edgeOutline depth) ++
        (look.styles.flatMap (styleOutline depth) ++
          (look.bindings.flatMap (bindingOutline depth) ++
            look.levels.flatMap (levelOutline depth)))) := by
  rw [outline]
  rfl

end Appearance

/-! ### What may come behind -/

/-- What comes next says nothing about the style of what has been before. -/
def Unstyled (rest : List Line) : Prop :=
  ∀ line ∈ rest.head?, 2 ≤ line.item.rank

/-- What comes next is indented less, or as much and of the given kind or a later one. -/
def Follows (depth rank : Nat) (rest : List Line) : Prop :=
  ∀ line ∈ rest.head?, 2 ≤ line.item.rank ∧
    (line.depth < depth ∨ line.depth = depth ∧ rank ≤ line.item.rank)

variable {α : Type} {depth rank : Nat} {rest : List Line}

theorem Follows.unstyled (follows : Follows depth rank rest) : Unstyled rest :=
  fun line next => (follows line next).1

theorem Follows.mono {sooner : Nat} (follows : Follows depth rank rest) (before : sooner ≤ rank) :
    Follows depth sooner rest := by
  intro line next
  obtain ⟨kind, less | ⟨same, later⟩⟩ := follows line next
  · exact ⟨kind, .inl less⟩
  · exact ⟨kind, .inr ⟨same, Nat.le_trans before later⟩⟩

/-- Behind the levels of a level there is only what is indented less. -/
theorem Follows.deeper (follows : Follows depth 6 rest) : Follows (depth + 1) 7 rest := by
  intro line next
  obtain ⟨kind, less | ⟨same, _⟩⟩ := follows line next
  · exact ⟨kind, .inl (by omega)⟩
  · exact ⟨kind, .inl (by omega)⟩

/-- Every item begins with a line of one kind, indented to one depth. -/
def Heads (write : α → List Line) (depth rank : Nat) : Prop :=
  2 ≤ rank ∧ ∀ item, ∃ line more, write item = line :: more ∧ line.depth = depth ∧
    line.item.rank = rank

variable {write : α → List Line}

theorem Heads.follows (heads : Heads write depth rank) (item : α) (rest : List Line) :
    Follows depth rank (write item ++ rest) := by
  obtain ⟨line, more, written, here, kind⟩ := heads.2 item
  intro next same
  rw [written] at same
  cases same
  exact ⟨kind ▸ heads.1, .inr ⟨here, Nat.le_of_eq kind.symm⟩⟩

theorem Heads.not_follows (heads : Heads write depth rank) (item : α) (rest : List Line) :
    ¬ Follows depth (rank + 1) (write item ++ rest) := by
  obtain ⟨line, more, written, here, kind⟩ := heads.2 item
  intro follows
  rw [written] at follows
  obtain ⟨_, less | ⟨_, later⟩⟩ := follows line rfl <;> omega

theorem Heads.follows_flatMap (heads : Heads write depth rank) (items : List α)
    (follows : Follows depth (rank + 1) rest) :
    Follows depth rank (items.flatMap write ++ rest) := by
  cases items with
  | nil => exact follows.mono rank.le_succ
  | cons item items =>
      rw [List.flatMap_cons, List.append_assoc]
      exact heads.follows item _

/-- Items of one kind in a row, if each one may be followed by another one or by something later. -/
theorem Heads.readsBack_flatMap (heads : Heads write depth rank) (items : List α)
    (reads : ∀ item ∈ items, ReadsBack write (fun _ => True) (Follows depth rank) item) :
    ReadsBack (List.flatMap write) (fun _ => True) (Follows depth (rank + 1)) items :=
  fun _ _ => ReadsBack.many (fun item _ => heads.follows item)
    (fun _ follows => follows.mono rank.le_succ) (fun item _ => heads.not_follows item)
    (fun _ _ => trivial) reads fun _ _ => trivial

/-! ### Outlines can be read back -/

/-- A line that is there only if there is something to say. -/
theorem readsBack_optional (absent : α → Bool) (line : α → Line)
    (silent : ∀ item other, absent item = true → absent other = true → item = other)
    (tells : Function.Injective line) (item : α) :
    ReadsBack (fun item => if absent item then [] else [line item]) (fun _ => True)
      (fun rest => ∀ other, rest.head? ≠ some (line other)) item := by
  intro other _ rest rest' behind behind' same
  cases none : absent item <;> cases none' : absent other <;>
    simp only [none, none', Bool.false_eq_true, if_false, if_true, List.nil_append,
      List.cons_append] at same
  · obtain ⟨here, later⟩ := List.cons.inj same
    exact ⟨tells here, later⟩
  · exact absurd (congrArg List.head? same.symm) (behind' item)
  · exact absurd (congrArg List.head? same) (behind other)
  · exact ⟨silent item other none none', same⟩

theorem Unstyled.head?_ne (unstyled : Unstyled rest) {line : Line} (about : line.item.rank < 2) :
    rest.head? ≠ some line :=
  fun next => absurd (unstyled line next) (by omega)

theorem Style.readsBack_outline (style : Style) (depth : Nat) :
    ReadsBack (Style.outline · depth) (fun _ => True) Unstyled style := by
  have tags := readsBack_optional List.isEmpty (fun tags => ⟨depth + 1, .tags tags⟩)
    (fun _ _ none none' => (List.isEmpty_iff.1 none).trans (List.isEmpty_iff.1 none').symm)
    (fun _ _ same => Item.tags.inj (Line.mk.inj same).2) style.tags
  have properties := readsBack_optional OrderedMap.isEmpty
    (fun properties => ⟨depth + 1, .properties properties⟩)
    (fun _ _ none none' => congrArg OrderedMap.mk
      ((List.isEmpty_iff.1 none).trans (List.isEmpty_iff.1 none').symm))
    (fun _ _ same => Item.properties.inj (Line.mk.inj same).2) style.properties
  -- behind the tags come the properties, if there are any
  have untagged : ∀ (properties : StyleProperties) rest, Unstyled rest → ∀ tags,
      ((if properties.isEmpty then [] else [(⟨depth + 1, .properties properties⟩ : Line)]) ++
        rest).head? ≠ some ⟨depth + 1, .tags tags⟩ := by
    intro properties rest unstyled tags
    split
    · exact unstyled.head?_ne Nat.zero_lt_two
    · simp
  intro other _ rest rest' behind behind' same
  simp only [outline, List.append_assoc] at same
  obtain ⟨sameTags, later⟩ := tags trivial (untagged _ rest behind) (untagged _ rest' behind') same
  obtain ⟨sameProperties, ended⟩ := properties trivial (fun _ => behind.head?_ne Nat.one_lt_two)
    (fun _ => behind'.head?_ne Nat.one_lt_two) later
  obtain ⟨_, _⟩ := style
  obtain ⟨_, _⟩ := other
  cases sameTags
  cases sameProperties
  exact ⟨rfl, ended⟩

namespace Appearance

theorem heads_nodeOutline (depth : Nat) : Heads (nodeOutline depth) depth 2 :=
  ⟨by decide, fun _ => ⟨_, _, rfl, rfl, rfl⟩⟩

theorem heads_edgeOutline (depth : Nat) : Heads (edgeOutline depth) depth 3 :=
  ⟨by decide, fun _ => ⟨_, _, rfl, rfl, rfl⟩⟩

theorem heads_styleOutline (depth : Nat) : Heads (styleOutline depth) depth 4 :=
  ⟨by decide, fun _ => ⟨_, _, rfl, rfl, rfl⟩⟩

theorem heads_bindingOutline (depth : Nat) : Heads (bindingOutline depth) depth 5 :=
  ⟨by decide, fun _ => ⟨_, _, rfl, rfl, rfl⟩⟩

theorem heads_levelOutline (depth : Nat) : Heads (levelOutline depth) depth 6 :=
  ⟨by decide, fun _ => ⟨_, _, rfl, rfl, rfl⟩⟩

variable (look : Appearance)

theorem follows_levels (follows : Follows depth 7 rest) :
    Follows depth 6 (look.levels.flatMap (levelOutline depth) ++ rest) :=
  (heads_levelOutline depth).follows_flatMap look.levels follows

theorem follows_bindings (follows : Follows depth 7 rest) :
    Follows depth 5 (look.bindings.flatMap (bindingOutline depth) ++
      (look.levels.flatMap (levelOutline depth) ++ rest)) :=
  (heads_bindingOutline depth).follows_flatMap look.bindings (look.follows_levels follows)

theorem follows_styles (follows : Follows depth 7 rest) :
    Follows depth 4 (look.styles.flatMap (styleOutline depth) ++
      (look.bindings.flatMap (bindingOutline depth) ++
        (look.levels.flatMap (levelOutline depth) ++ rest))) :=
  (heads_styleOutline depth).follows_flatMap look.styles (look.follows_bindings follows)

theorem follows_edges (follows : Follows depth 7 rest) :
    Follows depth 3 (look.edges.flatMap (edgeOutline depth) ++
      (look.styles.flatMap (styleOutline depth) ++ (look.bindings.flatMap (bindingOutline depth) ++
        (look.levels.flatMap (levelOutline depth) ++ rest)))) :=
  (heads_edgeOutline depth).follows_flatMap look.edges (look.follows_styles follows)

theorem follows_outline (follows : Follows depth 7 rest) :
    Follows depth 2 (look.outline depth ++ rest) := by
  simp only [outline_eq, List.append_assoc]
  exact (heads_nodeOutline depth).follows_flatMap look.nodes (look.follows_edges follows)

/-- An element and what belongs to it. -/
theorem readsBack_styled (head : α → Line) (style : α → Style)
    (tells : ∀ item other, head item = head other → style item = style other → item = other)
    (item : α) :
    ReadsBack (fun item => head item :: (style item).outline depth) (fun _ => True) Unstyled
      item := by
  intro other _ rest rest' behind behind' same
  obtain ⟨first, later⟩ := List.cons.inj same
  obtain ⟨styled, ended⟩ := (style item).readsBack_outline depth trivial behind behind' later
  exact ⟨tells item other first styled, ended⟩

theorem readsBack_nodeOutline (depth : Nat) (node : Caption) :
    ReadsBack (nodeOutline depth) (fun _ => True) Unstyled node := by
  refine readsBack_styled (fun node : Caption => ⟨depth, .node node.name⟩) Caption.style
    (fun item other first styled => ?_) node
  obtain ⟨_, _⟩ := item
  obtain ⟨_, _⟩ := other
  cases first
  cases styled
  rfl

theorem readsBack_edgeOutline (depth : Nat) (edge : Flow) :
    ReadsBack (edgeOutline depth) (fun _ => True) Unstyled edge := by
  refine readsBack_styled
    (fun edge : Flow => ⟨depth, .edge edge.source edge.name edge.target⟩) Flow.style
    (fun item other first styled => ?_) edge
  obtain ⟨_, _, _, _⟩ := item
  obtain ⟨_, _, _, _⟩ := other
  cases first
  cases styled
  rfl

theorem readsBack_styleOutline (depth : Nat) (entry : String × StyleProperties) :
    ReadsBack (styleOutline depth) (fun _ => True) Unstyled entry := by
  rintro ⟨_, _⟩ _ rest rest' _ _ same
  obtain ⟨first, ended⟩ := List.cons.inj same
  cases first
  exact ⟨rfl, ended⟩

theorem readsBack_bindingOutline (depth : Nat) (entry : String × List QualifiedPath) :
    ReadsBack (bindingOutline depth) (fun _ => True) Unstyled entry := by
  rintro ⟨_, _⟩ _ rest rest' _ _ same
  obtain ⟨first, ended⟩ := List.cons.inj same
  cases first
  exact ⟨rfl, ended⟩

theorem readsBack_levelOutline {level : Caption × Appearance}
    (inside : ReadsBack (outline · (depth + 1)) (fun _ => True) (Follows (depth + 1) 7) level.2) :
    ReadsBack (levelOutline depth) (fun _ => True) (Follows depth 6) level := by
  rintro ⟨⟨_, style'⟩, look'⟩ _ rest rest' behind behind' same
  obtain ⟨⟨_, style⟩, look⟩ := level
  simp only [levelOutline, List.cons_append, List.append_assoc] at same
  obtain ⟨first, later⟩ := List.cons.inj same
  have plain := (look.follows_outline behind.deeper).unstyled
  have plain' := (look'.follows_outline behind'.deeper).unstyled
  obtain ⟨rfl, deeper⟩ := style.readsBack_outline depth trivial plain plain' later
  obtain ⟨rfl, ended⟩ := inside trivial behind.deeper behind'.deeper deeper
  cases first
  exact ⟨rfl, ended⟩

/-- The lines of a level tell what can be seen of it, and where they end, if what comes behind them
is indented less. -/
theorem readsBack_outline (depth : Nat) :
    ReadsBack (outline · depth) (fun _ => True) (Follows depth 7) look := by
  induction look using Appearance.rise generalizing depth with
  | step look below =>
      have nodes := (heads_nodeOutline depth).readsBack_flatMap look.nodes
        fun node _ => (readsBack_nodeOutline depth node).mono fun _ => Follows.unstyled
      have edges := (heads_edgeOutline depth).readsBack_flatMap look.edges
        fun edge _ => (readsBack_edgeOutline depth edge).mono fun _ => Follows.unstyled
      have styles := (heads_styleOutline depth).readsBack_flatMap look.styles
        fun entry _ => (readsBack_styleOutline depth entry).mono fun _ => Follows.unstyled
      have bindings := (heads_bindingOutline depth).readsBack_flatMap look.bindings
        fun entry _ => (readsBack_bindingOutline depth entry).mono fun _ => Follows.unstyled
      have levels := (heads_levelOutline depth).readsBack_flatMap look.levels
        fun level held => readsBack_levelOutline (below level held (depth + 1))
      intro other _ rest rest' behind behind' same
      simp only [outline_eq, List.append_assoc] at same
      obtain ⟨sameNodes, same⟩ :=
        nodes trivial (look.follows_edges behind) (other.follows_edges behind') same
      obtain ⟨sameEdges, same⟩ :=
        edges trivial (look.follows_styles behind) (other.follows_styles behind') same
      obtain ⟨sameStyles, same⟩ :=
        styles trivial (look.follows_bindings behind) (other.follows_bindings behind') same
      obtain ⟨sameBindings, same⟩ :=
        bindings trivial (look.follows_levels behind) (other.follows_levels behind') same
      obtain ⟨sameLevels, ended⟩ := levels trivial behind behind' same
      obtain ⟨_, _, _, _, _⟩ := look
      obtain ⟨_, _, _, _, _⟩ := other
      cases sameNodes
      cases sameEdges
      cases sameStyles
      cases sameBindings
      cases sameLevels
      exact ⟨rfl, ended⟩

/-- Two appearances with the same lines are the same. -/
theorem outline_injective (depth : Nat) : Function.Injective (outline · depth) := by
  intro look other same
  have ended : Follows depth 7 [] := nofun
  exact (look.readsBack_outline depth trivial ended ended (congrArg (· ++ []) same)).1

end Appearance

end RecipeGraph
