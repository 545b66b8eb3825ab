/-
**File trees are a lawful store.**

A path is walked from directory to directory, and a file can only stand at its end.  Writing makes
or replaces one file, in a directory that is already there and never in the place of a directory.
So every walk that led somewhere before still does, and to the same thing, unless it led to the file
that was written.  A walk to a file ends with the last component of its place, so no file has two
names.

Main definitions:

* `FileTree.Walks` — **a walk that leads somewhere**, step by step;
* `FileTree.Node.rewrite` — what a walk finds once a file has been written;
* `FileTree.Opens` — **a path that can be written**, with the directory it leads through.

Main results:

* `FileTree.walks_of_walk`, `FileTree.walk_of_walks` — walks are what the walking function finds;
* `FileTree.Walks.put` — walks lead to the same thing as before;
* `FileTree.opens_of_target` — what the target of a path says about the path;
* `FileTree.wrote_put` — writing to a path puts the content there and keeps every other file;
* `FileTree.lawful_store`, `FileTree.singleNamed_store` — **file trees are a lawful store**, and a
  file has one name only.
-/

import TableAssembler.File.Tree
import TableAssembler.Proofs.File.Path
import TableAssembler.Proofs.Outcome

set_option relaxedAutoImplicit false
set_option autoImplicit false

namespace TableAssembler

namespace FileTree

/-! ### One file in the place of another -/

@[simp] theorem file?_put_self (tree : FileTree) (place : List Text) (content : Text) :
    (tree.put place content).file? place = some content := by
  have hnone : (tree.files.filter fun entry => entry.1 ≠ place).find?
      (fun entry => entry.1 = place) = none := by
    rw [List.find?_eq_none]
    intro entry hentry
    have hne := (List.mem_filter.1 hentry).2
    simpa using hne
  rw [file?, put, List.find?_append, hnone]
  simp

theorem file?_put_of_ne (tree : FileTree) {place other : List Text} (h : other ≠ place)
    (content : Text) : (tree.put place content).file? other = tree.file? other := by
  have hlast : [(place, content)].find? (fun entry => entry.1 = other) = none := by
    simp [h.symm]
  have hfilter : (tree.files.filter fun entry => entry.1 ≠ place).find?
      (fun entry => entry.1 = other) = tree.files.find? fun entry => entry.1 = other := by
    rw [List.find?_filter]
    congr 1
    funext entry
    by_cases heq : entry.1 = other
    · simp [heq, h]
    · simp [heq]
  rw [file?, file?, put, List.find?_append, hlast, hfilter, Option.or_none]

/-- Directories stay directories. -/
theorem isDirectory_put {tree : FileTree} {dir : List Text} (h : tree.isDirectory dir = true)
    (place : List Text) (content : Text) : (tree.put place content).isDirectory dir = true := by
  simp only [isDirectory, Bool.or_eq_true] at h ⊢
  refine h.imp id fun hbelow => ?_
  rw [List.any_eq_true] at hbelow ⊢
  obtain ⟨entry, hentry, hbelow⟩ := hbelow
  by_cases hplace : entry.1 = place
  · exact ⟨(place, content), by simp [put], hplace ▸ hbelow⟩
  · exact ⟨entry, by simp [put, hentry, hplace], hbelow⟩

/-! ### Walks -/

/-- A name that a file can have: no step to the same directory or above, and not too long. -/
structure IsFileName (name : Text) : Prop where
  ne_nil : name ≠ []
  ne_here : name ≠ Path.here
  ne_above : name ≠ Path.above
  length_le : name.length ≤ 255

/-- **A walk that leads somewhere**, step by step. -/
inductive Walks (tree : FileTree) : List Text → List Text → Node → Prop
  | stop (start : List Text) : Walks tree start [] (.directory start)
  | stay {start rest : List Text} {part : Text} {node : Node} (h : part = [] ∨ part = Path.here)
      (hrest : Walks tree start rest node) : Walks tree start (part :: rest) node
  | up {start rest : List Text} {node : Node} (hrest : Walks tree start.dropLast rest node) :
      Walks tree start (Path.above :: rest) node
  | find {start : List Text} {name content : Text} (hname : IsFileName name)
      (hfile : tree.file? (start ++ [name]) = some content) :
      Walks tree start [name] (.file (start ++ [name]) content)
  | enter {start rest : List Text} {name : Text} {node : Node} (hname : IsFileName name)
      (hfile : tree.file? (start ++ [name]) = none)
      (hdirectory : tree.isDirectory (start ++ [name]) = true)
      (hrest : Walks tree (start ++ [name]) rest node) : Walks tree start (name :: rest) node

theorem walks_of_walk {tree : FileTree} {start parts : List Text} {node : Node}
    (h : tree.walk start parts = .ok node) : Walks tree start parts node := by
  induction parts generalizing start with
  | nil =>
      cases h
      exact .stop start
  | cons part rest ih =>
      rw [walk] at h
      split at h
      · rename_i hstay
        exact .stay hstay (ih h)
      · rename_i hstay
        rw [not_or] at hstay
        split at h
        · rename_i habove
          subst habove
          exact .up (ih h)
        · rename_i habove
          split at h
          · cases h
          · rename_i hlength
            have hname : IsFileName part := ⟨hstay.1, hstay.2, habove, by omega⟩
            split at h
            · rename_i content hfile
              split at h
              · rename_i hrest
                subst hrest
                cases h
                exact .find hname hfile
              · cases h
            · rename_i hfile
              split at h
              · rename_i hdirectory
                exact .enter hname hfile hdirectory (ih h)
              · cases h

theorem walk_of_walks {tree : FileTree} {start parts : List Text} {node : Node}
    (h : Walks tree start parts node) : tree.walk start parts = .ok node := by
  induction h with
  | stop start => rfl
  | stay hstay _ ih => rw [walk, if_pos hstay, ih]
  | up _ ih => rw [walk, if_neg (by decide), if_pos rfl, ih]
  | find hname hfile =>
      have hlength := hname.length_le
      rw [walk, if_neg (by simp [hname.ne_nil, hname.ne_here]), if_neg hname.ne_above,
        if_neg (by omega), hfile]
      rfl
  | enter hname hfile hdirectory _ ih =>
      have hlength := hname.length_le
      simp only [walk, if_neg (not_or.2 ⟨hname.ne_nil, hname.ne_here⟩), if_neg hname.ne_above,
        if_neg (Nat.not_lt.2 hlength), hfile, if_pos hdirectory, ih]

/-- What a walk finds once `content` is written at `place`. -/
def Node.rewrite (place : List Text) (content : Text) : Node → Node
  | .file found old => .file found (if found = place then content else old)
  | node => node

/-- **Walks lead to the same thing as before** once a file is written, if that is in the place of no
directory. -/
theorem Walks.put {tree : FileTree} {place : List Text} (hplace : tree.isDirectory place = false)
    (content : Text) {start parts : List Text} {node : Node} (h : Walks tree start parts node) :
    Walks (tree.put place content) start parts (node.rewrite place content) := by
  induction h with
  | stop start => exact .stop start
  | stay hstay _ ih => exact .stay hstay ih
  | up _ ih => exact .up ih
  | @find start name old hname hfile =>
      -- the file that was written, or one that was not touched
      refine .find hname ?_
      by_cases hhere : start ++ [name] = place
      · rw [if_pos hhere, hhere, file?_put_self]
      · rw [if_neg hhere, file?_put_of_ne tree hhere, hfile]
  | @enter start rest name node hname hfile hdirectory _ ih =>
      -- the walk goes on through a directory, so this is not where the file was written
      have hhere : start ++ [name] ≠ place := by
        intro heq
        rw [heq, hplace] at hdirectory
        cases hdirectory
      have hfile' : (tree.put place content).file? (start ++ [name]) = none := by
        rw [file?_put_of_ne tree hhere, hfile]
      exact .enter hname hfile' (isDirectory_put hdirectory place content) ih

/-- A walk to a directory goes on to a file in it. -/
theorem Walks.concat {tree : FileTree} {start parts dir : List Text} {name content : Text}
    (h : Walks tree start parts (.directory dir)) (hname : IsFileName name)
    (hfile : tree.file? (dir ++ [name]) = some content) :
    Walks tree start (parts ++ [name]) (.file (dir ++ [name]) content) := by
  -- on the walk: nothing changes but its end, where it stops in `dir`
  generalize hnode : Node.directory dir = node at h
  induction h with
  | stop start =>
      cases hnode
      exact .find hname hfile
  | stay hstay _ ih => exact .stay hstay (ih hnode)
  | up _ ih => exact .up (ih hnode)
  | find _ _ => cases hnode
  | enter hpart hnone hdirectory _ ih => exact .enter hpart hnone hdirectory (ih hnode)

/-- A walk to a file ends with the name of the file. -/
theorem Walks.exists_name {tree : FileTree} {start parts place : List Text} {content : Text}
    (h : Walks tree start parts (.file place content)) :
    ∃ parents dir name, parts = parents ++ [name] ∧ place = dir ++ [name] := by
  generalize hnode : Node.file place content = node at h
  induction h with
  | stop start => cases hnode
  | stay _ _ ih =>
      obtain ⟨parents, dir, name, rfl, rfl⟩ := ih hnode
      exact ⟨_ :: parents, dir, name, rfl, rfl⟩
  | up _ ih =>
      obtain ⟨parents, dir, name, rfl, rfl⟩ := ih hnode
      exact ⟨_ :: parents, dir, name, rfl, rfl⟩
  | @find start name _ _ _ =>
      cases hnode
      exact ⟨[], start, name, rfl, rfl⟩
  | enter _ _ _ _ ih =>
      obtain ⟨parents, dir, name, rfl, rfl⟩ := ih hnode
      exact ⟨_ :: parents, dir, name, rfl, rfl⟩

/-- A walk to a file finds what the file holds. -/
theorem Walks.file?_eq {tree : FileTree} {start parts place : List Text} {content : Text}
    (h : Walks tree start parts (.file place content)) : tree.file? place = some content := by
  generalize hnode : Node.file place content = node at h
  induction h with
  | stop start => cases hnode
  | stay _ _ ih => exact ih hnode
  | up _ ih => exact ih hnode
  | find _ hfile =>
      cases hnode
      exact hfile
  | enter _ _ _ _ ih => exact ih hnode

/-! ### Paths -/

/-- **A path that can be written**: it leads through a directory of the tree to a name in it, which
is the name of no directory. -/
structure Opens (tree : FileTree) (path : Text) (parents dir : List Text) : Prop where
  sound : pathFault? path = none
  components : Path.components path = parents ++ [Path.afterLastSlash path]
  walk : tree.walk (tree.origin path) parents = .ok (.directory dir)
  name : IsFileName (Path.afterLastSlash path)
  notDirectory : tree.isDirectory (dir ++ [Path.afterLastSlash path]) = false

theorem targetIn_eq_ok {tree : FileTree} {name : Text} {node : Node} {place : List Text}
    (h : tree.targetIn name node = .ok place) :
    ∃ dir, node = .directory dir ∧ place = dir ++ [name] ∧ name ≠ Path.here ∧ name ≠ Path.above ∧
      name.length ≤ 255 ∧ tree.isDirectory place = false := by
  cases node with
  | file found old => cases h
  | directory dir =>
      rw [targetIn] at h
      split at h
      · cases h
      · rename_i hname
        split at h
        · cases h
        · rename_i hlength
          split at h
          · cases h
          · rename_i hdirectory
            cases h
            rw [not_or] at hname
            exact ⟨dir, rfl, rfl, hname.1, hname.2, by omega, by simpa using hdirectory⟩

/-- The components of a path without a slash at its end, backwards. -/
theorem dropWhile_components {path : Text} {parents : List Text}
    (hcomponents : Path.components path = parents ++ [Path.afterLastSlash path])
    (hne : Path.afterLastSlash path ≠ []) :
    ((Path.components path).reverse.dropWhile fun part => part = []) =
      Path.afterLastSlash path :: parents.reverse := by
  rw [hcomponents, List.reverse_append, List.reverse_singleton, List.singleton_append,
    List.dropWhile_cons_of_neg (by simpa using hne)]

/-- **What the target of a path says about the path.** -/
theorem opens_of_target {tree : FileTree} {path : Text} {place : List Text}
    (h : tree.target path = .ok place) :
    ∃ parents dir, Opens tree path parents dir ∧ place = dir ++ [Path.afterLastSlash path] := by
  unfold target at h
  cases hfault : pathFault? path with
  | some fault =>
      rw [hfault] at h
      cases h
  | none =>
      simp only [hfault] at h
      have hpath : path ≠ [] := by
        rintro rfl
        cases hfault
      obtain ⟨node, hnode, htarget⟩ := Outcome.bind_eq_ok.1 h
      obtain ⟨dir, rfl, rfl, hhere, habove, hlength, hdirectory⟩ := targetIn_eq_ok htarget
      by_cases hslash : path.getLast? = some Path.slash
      · -- a slash at the end asks for a directory
        rw [if_pos hslash] at hhere
        exact absurd rfl hhere
      · obtain ⟨parents, hcomponents⟩ := Path.exists_components path
        have hname := Path.afterLastSlash_ne_nil hpath hslash
        rw [if_neg hslash, dropWhile_components hcomponents hname, List.head?_cons,
          Option.getD_some] at hhere habove hlength hdirectory ⊢
        rw [dropWhile_components hcomponents hname, List.tail_cons, List.reverse_reverse] at hnode
        exact ⟨parents, dir, ⟨hfault, hcomponents, hnode, ⟨hname, hhere, habove, hlength⟩,
          hdirectory⟩, rfl⟩

/-- A path leads to what the walk over its components finds. -/
theorem locate_eq_ok_iff {tree : FileTree} {path : Text} {node : Node} :
    tree.locate path = .ok node ↔
      pathFault? path = none ∧ Walks tree (tree.origin path) (Path.components path) node := by
  unfold locate
  cases pathFault? path with
  | some fault => simp
  | none => exact ⟨fun h => ⟨rfl, walks_of_walk h⟩, fun h => walk_of_walks h.2⟩

theorem locate_put {tree : FileTree} {place : List Text} (hplace : tree.isDirectory place = false)
    (content : Text) {path : Text} {node : Node} (h : tree.locate path = .ok node) :
    (tree.put place content).locate path = .ok (node.rewrite place content) := by
  obtain ⟨hsound, hwalk⟩ := locate_eq_ok_iff.1 h
  exact locate_eq_ok_iff.2 ⟨hsound, hwalk.put hplace content⟩

theorem place?_eq_some_iff {tree : FileTree} {path : Text} {place : List Text} :
    tree.place? path = some place ↔ ∃ content, tree.locate path = .ok (.file place content) := by
  unfold place?
  split
  · rename_i found content hlocate
    simp [hlocate]
  · rename_i hnone
    simp only [reduceCtorEq, false_iff, not_exists]
    intro content hlocate
    exact hnone place content hlocate

/-- A path that leads to a file names it behind its last slash. -/
theorem getLast?_of_place? {tree : FileTree} {path : Text} {place : List Text}
    (h : tree.place? path = some place) : place.getLast? = some (Path.afterLastSlash path) := by
  obtain ⟨content, hlocate⟩ := place?_eq_some_iff.1 h
  obtain ⟨-, hwalk⟩ := locate_eq_ok_iff.1 hlocate
  obtain ⟨parents, dir, name, hname, rfl⟩ := hwalk.exists_name
  obtain ⟨others, hcomponents⟩ := Path.exists_components path
  have hlast := List.append_inj_right' (hname.symm.trans hcomponents) rfl
  rw [List.getLast?_concat, List.singleton_injective hlast]

/-! ### The store -/

/-- Reading gives what the file holds that the path leads to. -/
theorem read_eq_ok_iff {tree : FileTree} {path shown text : Text} :
    tree.read path shown = .ok text ↔
      ∃ place, tree.place? path = some place ∧ tree.file? place = some text := by
  unfold read
  constructor
  · intro h
    split at h
    · cases h
    · rename_i place content hlocate
      cases h
      exact ⟨place, place?_eq_some_iff.2 ⟨_, hlocate⟩, (locate_eq_ok_iff.1 hlocate).2.file?_eq⟩
    · cases h
  · rintro ⟨place, hplace, hfile⟩
    obtain ⟨content, hlocate⟩ := place?_eq_some_iff.1 hplace
    have hcontent := (locate_eq_ok_iff.1 hlocate).2.file?_eq
    rw [hfile, Option.some.injEq] at hcontent
    rw [hlocate, hcontent]

/-- **Writing to a path puts the content there and keeps every other file.** -/
theorem wrote_put {tree : FileTree} {path : Text} {place : List Text}
    (h : tree.target path = .ok place) (content : Text) :
    store.Wrote tree path place content (tree.put place content) := by
  obtain ⟨parents, dir, hopens, rfl⟩ := opens_of_target h
  -- the walk to the directory is as before, and goes on to the file that is there now
  have hwalk := (walks_of_walk hopens.walk).put hopens.notDirectory content
  have hfound := hwalk.concat hopens.name (file?_put_self tree _ content)
  rw [← hopens.components] at hfound
  refine ⟨place?_eq_some_iff.2 ⟨content, locate_eq_ok_iff.2 ⟨hopens.sound, hfound⟩⟩,
    file?_put_self tree _ content, fun other hne => file?_put_of_ne tree hne content,
    fun other found hother => ?_⟩
  obtain ⟨old, hlocate⟩ := place?_eq_some_iff.1 hother
  exact place?_eq_some_iff.2 ⟨_, locate_put hopens.notDirectory content hlocate⟩

/-- **File trees are a lawful store.** -/
theorem lawful_store : store.Lawful where
  read_eq_ok_iff := read_eq_ok_iff
  exists_wrote := by
    intro tree after path content h
    change tree.write path content = .ok after at h
    unfold write at h
    split at h
    · cases h
    · rename_i place htarget
      cases h
      exact ⟨place, wrote_put htarget content⟩

/-- A file of a tree has one name only: the last component of its place. -/
theorem singleNamed_store : store.SingleNamed := by
  intro tree path other place hpath hother
  have hlast := getLast?_of_place? hpath
  rw [getLast?_of_place? hother, Option.some.injEq] at hlast
  exact hlast.symm

end FileTree

end TableAssembler
