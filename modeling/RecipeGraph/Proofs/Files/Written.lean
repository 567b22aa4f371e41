/-
# What a written file changes

Writing a file puts an entry where its path leads, or does nothing. The entry that is written was no
directory before and is none afterwards, and paths only ever lead through directories. So every path
leads where it led before, provided that it led anywhere, and reading it finds what it found before,
unless it leads to the file that was written.
-/

import RecipeGraph.FileTree

namespace RecipeGraph.FileTree

variable {tree after : FileTree} {path content : String}

/-- Following a path ends at a place, where nothing has to be yet. -/
def LeadsTo (tree : FileTree) (path : String) (place : Place) : Prop :=
  refusal? path = none ∧ tree.follow (origin path) (parts path) = .ok place

/-- What a path leads to is what stands at the place where it ends. -/
theorem view_eq_ok_iff {entry : FileEntry} :
    tree.view path = .ok entry ↔
      ∃ place, tree.LeadsTo path place ∧ tree.entryAt? place = some entry := by
  unfold view LeadsTo
  cases refusal? path with
  | some failure => simp
  | none =>
      cases tree.follow (origin path) (parts path) with
      | error failure => simp
      | ok place => cases found : tree.entryAt? place <;> simp [found]

theorem read_eq_ok_iff {text : String} :
    tree.view.read path = .ok text ↔ tree.view path = .ok (.file text) := by
  unfold FileView.read
  split <;> simp_all

/-! ### Following paths -/

/-- A path leads to the same place in a tree that has all the directories. -/
theorem follow_of_directories (kept : ∀ place, tree.entryAt? place = some .directory →
    after.entryAt? place = some .directory) {place target : Place} {parts : List String}
    (leads : tree.follow place parts = .ok target) : after.follow place parts = .ok target := by
  induction parts generalizing place with
  | nil => exact leads
  | cons part rest step =>
      rw [follow] at leads ⊢
      cases here : tree.entryAt? place with
      | none => simp [here] at leads
      | some entry =>
          cases entry with
          | file text => simp [here] at leads
          | unreadable fault => simp [here] at leads
          | directory =>
              simp only [here, kept place here] at leads ⊢
              split at leads
              · next blank =>
                  rw [if_pos blank]
                  exact step leads
              · next solid =>
                  rw [if_neg solid]
                  split at leads
                  · next up =>
                      rw [if_pos up]
                      exact step leads
                  · next down =>
                      rw [if_neg down]
                      split at leads
                      · cases leads
                      · next short =>
                          rw [if_neg short]
                          cases inner : place.down? part with
                          | none => simp [inner] at leads
                          | some next =>
                              simp only [inner] at leads ⊢
                              exact step leads

theorem LeadsTo.of_directories {place : Place} (leads : tree.LeadsTo path place)
    (kept : ∀ place, tree.entryAt? place = some .directory →
      after.entryAt? place = some .directory) : after.LeadsTo path place :=
  ⟨leads.1, follow_of_directories kept leads.2⟩

theorem follow_append (tree : FileTree) (place : Place) (first second : List String) :
    tree.follow place (first ++ second) =
      (tree.follow place first).bind fun middle => tree.follow middle second := by
  induction first generalizing place with
  | nil => rfl
  | cons part rest step =>
      rw [List.cons_append, follow, follow]
      cases tree.entryAt? place with
      | none => rfl
      | some entry =>
          cases entry with
          | file text => rfl
          | unreadable fault => rfl
          | directory =>
              dsimp only
              split
              · exact step place
              · split
                · exact step place.up
                · split
                  · rfl
                  · cases place.down? part with
                    | none => rfl
                    | some inner => exact step inner

theorem parts_ne_nil (path : String) : parts path ≠ [] := by
  unfold parts FilePath.pieces
  simpa using Text.pieces_ne_nil '/' path.toList

/-! ### Writing -/

/-- Where a path can be written: below a directory, at a place that is no directory itself. -/
structure CanWrite (tree : FileTree) (path : String) (names : List String) : Prop where
  leads : tree.LeadsTo path (.inside names)
  free : tree.entryAt? (.inside names) ≠ some .directory

/-- The tree with a file at a place. -/
def withFile (tree : FileTree) (names : List String) (content : String) : FileTree :=
  ⟨tree.entries.insert names (.file content)⟩

theorem entryAt?_withFile_of_ne {names : List String} {place : Place}
    (other : place ≠ .inside names) :
    (tree.withFile names content).entryAt? place = tree.entryAt? place := by
  cases place with
  | outside => rfl
  | inside inner =>
      cases inner with
      | nil => rfl
      | cons name rest =>
          have apart : names ≠ name :: rest := fun same => other (by rw [same])
          exact (OrderedMap.get?_insert ..).trans (if_neg apart)

/-- What can be written is below the working directory, so that it is found there. -/
theorem CanWrite.entryAt?_withFile {names : List String} (able : tree.CanWrite path names) :
    (tree.withFile names content).entryAt? (.inside names) = some (.file content) := by
  cases names with
  | nil => exact (able.free rfl).elim
  | cons name rest => exact OrderedMap.get?_insert_self ..

/-- The same directories are there after a file is written. -/
theorem CanWrite.directories {names : List String} (able : tree.CanWrite path names)
    (place : Place) : (tree.withFile names content).entryAt? place = some .directory ↔
      tree.entryAt? place = some .directory := by
  by_cases same : place = .inside names
  · subst same
    rw [able.entryAt?_withFile]
    simp [able.free]
  · rw [entryAt?_withFile_of_ne same]

/-- After a file is written every path leads where it led before. -/
theorem CanWrite.leadsTo_iff {names : List String} (able : tree.CanWrite path names)
    {other : String} {place : Place} :
    (tree.withFile names content).LeadsTo other place ↔ tree.LeadsTo other place :=
  ⟨fun leads => leads.of_directories fun place => (able.directories place).1,
    fun leads => leads.of_directories fun place => (able.directories place).2⟩

/-- What it takes to write into a directory. -/
theorem writeAt_ok {place : Place} {name : String}
    (wrote : tree.writeAt place name content = .ok after) :
    ∃ names, place.down? name = some (.inside names) ∧
      tree.entryAt? place = some .directory ∧ ¬ maxNameSize < name.utf8ByteSize ∧
      tree.entryAt? (.inside names) ≠ some .directory ∧ after = tree.withFile names content := by
  unfold writeAt at wrote
  split at wrote
  · cases wrote
  · cases wrote
  · next names there inner =>
      split at wrote
      · cases wrote
      · next short =>
          split at wrote
          · cases wrote
          · cases wrote
          · next free _ =>
              cases wrote
              exact ⟨names, inner, there, short, free, rfl⟩
  · cases wrote

/-- A proper name leads down into a directory. -/
theorem follow_name {place inner : Place} {name : String}
    (named : ¬(name = "" ∨ name = "." ∨ name = "..")) (down : place.down? name = some inner)
    (there : tree.entryAt? place = some .directory) (short : ¬ maxNameSize < name.utf8ByteSize) :
    tree.follow place [name] = .ok inner := by
  obtain ⟨blank, here, above⟩ : name ≠ "" ∧ name ≠ "." ∧ name ≠ ".." := by simpa using named
  rw [follow, there]
  simp only [blank, here, above, short, down, or_self, if_false, follow]

/-- A file is written at a place to which its path leads. -/
theorem write_ok (wrote : tree.write path content = .ok after) :
    ∃ names, tree.CanWrite path names ∧ after = tree.withFile names content := by
  unfold write at wrote
  cases refused : refusal? path with
  | some failure => simp [refused] at wrote
  | none =>
      cases above : tree.follow (origin path) (parts path).dropLast with
      | error failure => simp [refused, above] at wrote
      | ok place =>
          simp only [refused, above] at wrote
          split at wrote
          · split at wrote <;> cases wrote
          · next named =>
              obtain ⟨names, inner, there, short, free, same⟩ := writeAt_ok wrote
              have split : (parts path).dropLast ++ [(parts path).getLastD ""] = parts path := by
                rw [List.getLastD_eq_getLast?, List.getLast?_eq_some_getLast (parts_ne_nil path)]
                exact List.dropLast_concat_getLast _
              have leads : tree.follow (origin path) (parts path) = .ok (.inside names) := by
                rw [← split, follow_append, above]
                exact follow_name named inner there short
              exact ⟨names, ⟨⟨refused, leads⟩, free⟩, same⟩

end FileTree

/-- What writing a file changes: it can be read, and every path that does not lead to the same file
finds what it found before. Which paths lead to one file is up to the file system. -/
structure FileSystem.WroteOnly {σ : Type} (disk : FileSystem σ) (together : σ → String → String → Prop)
    (before after : σ) (path content : String) : Prop where
  content : (disk.view after).read path = .ok content
  elsewhere : ∀ other, ¬ together after path other →
    ∀ entry, disk.view after other = .ok entry ↔ disk.view before other = .ok entry

/-- A file system writes exactly if writing a file, where it succeeds, changes that file only. -/
def FileSystem.WritesExactly {σ : Type} (disk : FileSystem σ)
    (together : σ → String → String → Prop) : Prop :=
  ∀ before after path content, disk.write before path content = .ok after →
    disk.WroteOnly together before after path content

namespace FileTree

/-- Paths lead to one file if they end at one place. -/
def Together (tree : FileTree) (path other : String) : Prop :=
  ∃ place, tree.LeadsTo path place ∧ tree.LeadsTo other place

theorem CanWrite.wroteOnly {names : List String} (able : tree.CanWrite path names)
    (content : String) :
    fileSystem.WroteOnly Together tree (tree.withFile names content) path content where
  content := read_eq_ok_iff.2 (view_eq_ok_iff.2
    ⟨_, able.leadsTo_iff.2 able.leads, able.entryAt?_withFile⟩)
  elsewhere other apart entry := by
    change view _ other = _ ↔ view _ other = _
    rw [view_eq_ok_iff, view_eq_ok_iff]
    refine exists_congr fun place => ?_
    rw [able.leadsTo_iff]
    refine and_congr_right fun leads => ?_
    have ne : place ≠ .inside names := fun same =>
      apart ⟨place, able.leadsTo_iff.2 (same ▸ able.leads), able.leadsTo_iff.2 leads⟩
    rw [entryAt?_withFile_of_ne ne]

/-- Trees of files write exactly. -/
theorem fileSystem_writesExactly : fileSystem.WritesExactly Together := by
  intro before after path content wrote
  obtain ⟨names, able, same⟩ := write_ok wrote
  rw [same]
  exact able.wroteOnly content

end FileTree

end RecipeGraph
