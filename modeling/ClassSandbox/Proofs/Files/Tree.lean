import ClassSandbox.Files.Access
import ClassSandbox.Proofs.Files.Path

/-!
# What saving a file changes

Where a path leads is a matter of its components alone (`follow`), whatever is in the tree: looking it up finds that
location or fails. Saving a file at a path creates directories on the way there, and puts the file at its end. Nothing
else in the tree changes (`writesOnly_save`).
-/

namespace ClassSandbox.FileTree

open ClassSandbox.Path (Component components)

variable {tree tree' tree'' : FileTree} {here location : List String} {node : FileNode}

/-! ## Locations -/

/-- The location to which components lead from one, whatever there is on the way. The root is outside of the tree, and so
is what lies above it. -/
def follow (here : List String) : List Component → Option (List String)
  | [] => some here
  | .root :: _ => none
  | .here :: rest => follow here rest
  | .above :: rest => if here = [] then none else follow here.dropLast rest
  | .normal name :: rest => follow (here ++ [name]) rest

theorem follow_append (here : List String) (front back : List Component) :
    follow here (front ++ back) = (follow here front).bind fun location => follow location back := by
  fun_induction follow here front with
  | case1 => rfl
  | case2 => rfl
  | case3 here rest ih => exact ih
  | case4 rest => rfl
  | case5 here rest hne ih => rw [List.cons_append, follow, if_neg hne, ih]
  | case6 here name rest ih => exact ih

theorem follow_names (here names : List String) : follow here (names.map .normal) = some (here ++ names) := by
  induction names generalizing here with
  | nil => simp [follow]
  | cons name names ih => simp [follow, ih]

theorem filterMap_ofPart?_cons (part : String) (rest : List String) :
    (part :: rest).filterMap Component.ofPart? =
      if Path.isHere part then rest.filterMap Component.ofPart?
      else (if part = ".." then .above else .normal part) :: rest.filterMap Component.ofPart? := by
  by_cases hhere : Path.isHere part
  · rw [if_pos hhere]
    exact List.filterMap_cons_none (if_pos hhere)
  · rw [if_neg hhere]
    refine List.filterMap_cons_some ((if_neg hhere).trans ?_)
    split <;> rfl

/-- What is found is where the parts lead. -/
theorem follow_of_descend {parts : List String} (h : tree.descend here parts = .ok location) :
    follow here (parts.filterMap Component.ofPart?) = some location := by
  fun_induction descend tree here parts with
  | case1 here =>
    cases h
    rfl
  | case2 => cases h
  | case3 here part rest _ hhere ih =>
    rw [filterMap_ofPart?_cons, if_pos hhere]
    exact ih h
  | case4 => cases h
  | case5 here rest _ hne hhere ih =>
    rw [filterMap_ofPart?_cons, if_neg hhere, if_pos rfl, follow, if_neg hne]
    exact ih h
  | case6 => cases h
  | case7 => cases h
  | case8 here part rest _ hhere habove _ _ ih =>
    rw [filterMap_ofPart?_cons, if_neg hhere, if_neg habove, follow]
    exact ih h

/-! ## Changes -/

theorem node?_put (hne : location ≠ []) (node : FileNode) (other : List String) :
    (tree.put location node).node? other = if other = location then some node else tree.node? other := by
  rw [node?, node?, put]
  by_cases hother : other = location
  · subst hother
    simp [hne]
  · have hlookup : ∀ nodes : List (List String × FileNode),
        (nodes.filter fun entry => entry.1 != location).lookup other = nodes.lookup other := by
      intro nodes
      induction nodes with
      | nil => rfl
      | cons entry nodes ih =>
        by_cases hentry : entry.1 = location
        · have hskip : (other == entry.1) = false := by simpa [hentry] using hother
          rw [List.filter_cons_of_neg (by simp [hentry]), List.lookup_cons, hskip, ih]
        · rw [List.filter_cons_of_pos (by simp [hentry]), List.lookup_cons, List.lookup_cons, ih]
    have hskip : (other == location) = false := beq_eq_false_iff_ne.2 hother
    simp only [if_neg hother, List.lookup_cons, hskip, hlookup]

/-- Files are written only in some places, and never over a directory. Directories are created only in some places, and
never over anything. -/
def WritesOnly (files directories : List String → Prop) (tree tree' : FileTree) : Prop :=
  ∀ location, tree'.node? location = tree.node? location ∨
    (directories location ∧ tree.node? location = none ∧ tree'.node? location = some .directory) ∨
    (files location ∧ tree.node? location ≠ some .directory ∧ ∃ contents, tree'.node? location = some (.file contents))

variable {files directories files' directories' : List String → Prop}

theorem WritesOnly.refl (tree : FileTree) : WritesOnly files directories tree tree := fun _ => .inl rfl

theorem WritesOnly.trans (h : WritesOnly files directories tree tree') (h' : WritesOnly files directories tree' tree'') :
    WritesOnly files directories tree tree'' := by
  intro location
  rcases h' location with hsame' | ⟨hplace', hnone', hnew'⟩ | ⟨hplace', hnot', contents', hnew'⟩
  · rw [hsame']
    exact h location
  · rcases h location with hsame | ⟨-, -, hnew⟩ | ⟨-, -, contents, hnew⟩
    · exact .inr (.inl ⟨hplace', hsame ▸ hnone', hnew'⟩)
    · rw [hnew] at hnone'
      cases hnone'
    · rw [hnew] at hnone'
      cases hnone'
  · -- A file may be written twice. What counts then is that no directory was there at first.
    rcases h location with hsame | ⟨-, -, hnew⟩ | ⟨hplace, hnot, -⟩
    · exact .inr (.inr ⟨hplace', hsame ▸ hnot', contents', hnew'⟩)
    · exact absurd hnew hnot'
    · exact .inr (.inr ⟨hplace, hnot, contents', hnew'⟩)

theorem WritesOnly.mono (hfiles : ∀ location, files location → files' location)
    (hdirectories : ∀ location, directories location → directories' location)
    (h : WritesOnly files directories tree tree') : WritesOnly files' directories' tree tree' := fun location =>
  (h location).imp_right (Or.imp (And.imp_left (hdirectories location)) (And.imp_left (hfiles location)))

theorem writesOnly_put_directory (hne : location ≠ []) (hplace : directories location)
    (hnone : tree.node? location = none) : WritesOnly files directories tree (tree.put location .directory) := by
  intro other
  rw [node?_put hne]
  split
  · next heq => exact .inr (.inl (heq ▸ ⟨hplace, hnone, rfl⟩))
  · exact .inl rfl

theorem writesOnly_put_file (hne : location ≠ []) (hplace : files location)
    (hnot : tree.node? location ≠ some .directory) (contents : Bytes) :
    WritesOnly files directories tree (tree.put location (.file contents)) := by
  intro other
  rw [node?_put hne]
  split
  · next heq => exact .inr (.inr (heq ▸ ⟨hplace, hnot, contents, rfl⟩))
  · exact .inl rfl

/-- A location on the way along some components. -/
def OnWay (here : List String) (route : List Component) (location : List String) : Prop :=
  ∃ front, front <+: route ∧ follow here front = some location

theorem onWay_of_step {step : Component} {route : List Component} {there : List String}
    (hstep : ∀ rest, follow here (step :: rest) = follow there rest) (h : OnWay there route location) :
    OnWay here (step :: route) location := by
  obtain ⟨front, hfront, hfollow⟩ := h
  exact ⟨step :: front, List.prefix_cons_inj step |>.2 hfront, (hstep front).trans hfollow⟩

/-- Going up and down again passes through places on the way, and what is created there was missing. -/
theorem writesOnly_extend {parts : List String} (hparts : ∀ part ∈ parts, Path.isHere part = false) :
    WritesOnly files (OnWay here (parts.filterMap Component.ofPart?)) tree (tree.extend here parts).2 := by
  fun_induction extend tree here parts with
  | case1 => exact .refl _
  | case2 => exact .refl _
  | case3 tree here rest hne ih =>
    rw [List.forall_mem_cons] at hparts
    rw [filterMap_ofPart?_cons, if_neg (by simp [hparts.1]), if_pos rfl]
    exact (ih hparts.2).mono (fun _ h => h) fun _ => onWay_of_step fun _ => if_neg hne
  | case4 => exact .refl _
  | case5 tree here part rest habove _ next _ ih =>
    rw [List.forall_mem_cons] at hparts
    rw [filterMap_ofPart?_cons, if_neg (by simp [hparts.1]), if_neg habove]
    exact (ih hparts.2).mono (fun _ h => h) fun _ => onWay_of_step fun _ => rfl
  | case6 => exact .refl _
  | case7 tree here part rest habove _ next hnone ih =>
    rw [List.forall_mem_cons] at hparts
    rw [filterMap_ofPart?_cons, if_neg (by simp [hparts.1]), if_neg habove]
    have hnext : OnWay here (.normal part :: rest.filterMap Component.ofPart?) next :=
      ⟨[.normal part], ⟨_, rfl⟩, rfl⟩
    refine (writesOnly_put_directory (by simp [next]) hnext hnone).trans ?_
    exact (ih hparts.2).mono (fun _ h => h) fun _ => onWay_of_step fun _ => rfl

/-- The start of a path that is not refused leads nowhere else. -/
theorem follow_components {path : String} (hrelative : path.toList.head? ≠ some '/') (route : List Component) :
    follow [] (Component.start (Path.parts path) ++ route) = follow [] route := by
  obtain ⟨first, rest, hparts⟩ := List.exists_cons_of_ne_nil (Path.parts_ne_nil path)
  have hroot : ¬ (first = "" ∧ rest ≠ []) := fun h => hrelative
    (Path.head?_eq_slash_iff.2 ⟨rest, h.2, h.1 ▸ hparts⟩)
  rw [hparts, Component.start, if_neg hroot]
  split <;> rfl

theorem relative_of_pathFault? {path : String} (h : pathFault? path = none) : path.toList.head? ≠ some '/' := by
  intro hslash
  unfold pathFault? at h
  split at h
  · cases h
  · split at h
    · cases h
    · rw [if_pos (.inr hslash)] at h
      cases h

theorem filterMap_ofPart?_filter (parts : List String) :
    (parts.filter fun part => !Path.isHere part).filterMap Component.ofPart? = parts.filterMap Component.ofPart? := by
  induction parts with
  | nil => rfl
  | cons part rest ih =>
    by_cases hhere : Path.isHere part
    · rw [List.filter_cons_of_neg (by simp [hhere]), filterMap_ofPart?_cons, if_pos hhere, ih]
    · rw [List.filter_cons_of_pos (by simp [hhere]), filterMap_ofPart?_cons, filterMap_ofPart?_cons, if_neg hhere,
        if_neg hhere, ih]

theorem writesOnly_createDirectories (tree : FileTree) (path : String) :
    WritesOnly files (OnWay [] (components path)) tree (tree.createDirectories path).2 := by
  unfold createDirectories
  split
  · exact .refl _
  · split
    · exact .refl _
    · next hfault =>
      have hrelative := relative_of_pathFault? hfault
      refine (writesOnly_extend (by simp)).mono (fun _ h => h) fun location ⟨front, hfront, hfollow⟩ => ?_
      rw [filterMap_ofPart?_filter] at hfront
      exact ⟨Component.start (Path.parts path) ++ front, (List.prefix_append_right_inj _).2 hfront,
        (follow_components hrelative front).trans hfollow⟩

/-- The directory that a path leads to is where its components lead. -/
theorem follow_of_locate {path : String} (hrelative : path.toList.head? ≠ some '/')
    (h : tree.descend [] (Path.parts path) = .ok location) : follow [] (components path) = some location :=
  (follow_components hrelative _).trans (follow_of_descend h)

/-- A file is created, or replaces one, where its directory leads and then its name. -/
theorem writesOnly_writeFile {directory name : String} (hrelative : directory.toList.head? ≠ some '/')
    (contents : Bytes) :
    WritesOnly (fun location => ∃ here, follow [] (components directory) = some here ∧ location = here ++ [name])
      directories tree (tree.writeFile directory name contents).2 := by
  unfold writeFile
  split
  · exact .refl _
  · split
    · exact .refl _
    · next here hhere =>
      split
      · exact .refl _
      · split
        · exact .refl _
        · next hnot =>
          exact writesOnly_put_file (by simp) ⟨here, follow_of_locate hrelative hhere, rfl⟩ hnot contents

theorem relative_of_createDirectories {path : String} (h : tree.createDirectories path = (.ok (), tree')) :
    path.toList.head? ≠ some '/' := by
  unfold createDirectories at h
  split at h
  · next hempty =>
    subst hempty
    exact nofun
  · split at h
    · cases h
    · next hfault => exact relative_of_pathFault? hfault

/-- Saving a file changes what is where the path leads, and makes directories on the way to its parent. -/
theorem writesOnly_save {path : String}
    (hname : Component.ofPart? (Path.fileName path) = some (.normal (Path.fileName path))) (contents : Bytes)
    (tree : FileTree) :
    WritesOnly (fun location => follow [] (components path) = some location)
      (OnWay [] (components (Path.parent path))) tree
      (save (Path.parent path) (Path.fileName path) contents tree).2 := by
  have hcreate : WritesOnly (fun location => follow [] (components path) = some location)
      (OnWay [] (components (Path.parent path))) tree (tree.createDirectories (Path.parent path)).2 :=
    writesOnly_createDirectories tree (Path.parent path)
  unfold save
  split
  · next hcreated =>
    rw [hcreated] at hcreate
    exact hcreate
  · next hcreated =>
    rw [hcreated] at hcreate
    have hrelative := relative_of_createDirectories hcreated
    refine hcreate.trans ((writesOnly_writeFile hrelative contents).mono ?_ fun _ h => h)
    rintro location ⟨here, hhere, rfl⟩
    rw [Path.components_parent hname, follow_append, hhere]
    rfl

/-! ## Computations -/

/-- Whatever files there are, the computation writes only in some places. -/
def OnlyWrites {α : Type} (files directories : List String → Prop) (action : StateM FileTree α) : Prop :=
  ∀ tree, WritesOnly files directories tree (action.run tree).2

namespace OnlyWrites

variable {α β : Type} {action : StateM FileTree α} {next : α → StateM FileTree β}

theorem pure (a : α) : OnlyWrites files directories (Pure.pure a) := fun tree => .refl tree

theorem bind (h : OnlyWrites files directories action) (hnext : ∀ a, OnlyWrites files directories (next a)) :
    OnlyWrites files directories (action >>= next) := fun tree => (h tree).trans (hnext _ _)

theorem mapM (hnext : ∀ a, OnlyWrites files directories (next a)) (items : List α) :
    OnlyWrites files directories (items.mapM next) := by
  induction items with
  | nil => exact .pure _
  | cons item items ih =>
    rw [List.mapM_cons]
    exact (hnext item).bind fun _ => ih.bind fun _ => .pure _

theorem readFile (path : String) : OnlyWrites files directories (FileAccess.readFile path) := fun tree => .refl tree

theorem isDirectory (path : String) : OnlyWrites files directories (FileAccess.isDirectory path) := fun tree =>
  .refl tree

theorem classFiles (path : String) : OnlyWrites files directories (FileAccess.classFiles path) := fun tree =>
  .refl tree

theorem readText (path : String) : OnlyWrites files directories (readText path) := by
  refine (readFile path).bind fun read => ?_
  cases read with
  | error error => exact .pure _
  | ok contents =>
    dsimp only
    split <;> exact .pure _

end OnlyWrites

end ClassSandbox.FileTree
