import ClassSandbox.Command
import ClassSandbox.Proofs.Files.Tree
import ClassSandbox.Proofs.Name

/-!
# Where confined classes are saved

A class with a valid name is saved where the output directory is, at the segments of its name with the suffix of class
files behind the last of them (`components_outputPath`). Two names lead to two places. A class with any other name is not
saved at all. So confining class files writes below the output directory only, whatever their names and whatever the
files (`onlyWrites_confine`). `StaysBelow` puts this together.
-/

namespace ClassSandbox

open ClassSandbox.Path (Component components)

namespace ClassPath

/-- The parts of the path of the file for a class. -/
def fileParts (name : String) : List String :=
  let segments := (BinaryName.segments name).map String.ofList
  segments.dropLast ++ [segments.getLastD "" ++ suffix]

theorem parts_fileName (name : String) : Path.parts (fileName name) = fileParts name :=
  Path.parts_append_of_not_mem (by decide) name

theorem fileParts_injective {name name' : String} (h : fileParts name = fileParts name') : name = name' := by
  have hfile : fileName name = fileName name' := Path.parts_injective (by rw [parts_fileName, parts_fileName, h])
  rw [← String.toList_inj] at hfile ⊢
  simpa [fileName] using hfile

variable {name : String}

/-- No part of a valid name goes up or stays: a segment has a character and no dot. -/
theorem ofPart?_of_isValid (hvalid : BinaryName.IsValid name) :
    ∀ part ∈ Path.parts (fileName name), Component.ofPart? part = some (.normal part) := by
  intro part hpart
  rw [parts_fileName] at hpart
  rcases List.mem_append.1 hpart with hfront | hlast
  · obtain ⟨segment, hsegment, rfl⟩ := List.mem_map.1 (List.dropLast_subset _ hfront)
    obtain ⟨hne, hmarks⟩ := BinaryName.isValid_iff.1 hvalid segment hsegment
    obtain ⟨c, rest, rfl⟩ := List.exists_cons_of_ne_nil hne
    refine Path.ofPart?_of_mem (c := c) (by simp) ?_
    rintro rfl
    exact absurd (hmarks '.' List.mem_cons_self) (by decide)
  · rw [List.mem_singleton.1 hlast]
    exact Path.ofPart?_of_mem (c := 'c') (by simp [suffix]) (by decide)

theorem components_fileName (hvalid : BinaryName.IsValid name) :
    components (fileName name) = (fileParts name).map .normal := by
  rw [Path.components_of_names (ofPart?_of_isValid hvalid), parts_fileName]

end ClassPath

namespace Command

open FileTree (follow OnWay OnlyWrites)

variable {output name path : String}

/-! ## The path of a class -/

theorem outputPath_of_isValid (hvalid : BinaryName.IsValid name) (output : String) :
    outputPath output name = .ok (Path.join output (ClassPath.fileName name)) := by
  refine if_pos ⟨hvalid, ?_⟩
  rw [ClassPath.components_fileName hvalid]
  simp [Component.isNormal]

theorem outputPath_of_not_isValid (hinvalid : ¬ BinaryName.IsValid name) (output : String) :
    outputPath output name = .error (.unsafeName name) := if_neg fun h => hinvalid h.1

/-- The check of the components refuses nothing that the check of the name lets through. -/
theorem outputPath_eq_ok_iff :
    outputPath output name = .ok path ↔
      BinaryName.IsValid name ∧ path = Path.join output (ClassPath.fileName name) := by
  by_cases hvalid : BinaryName.IsValid name
  · rw [outputPath_of_isValid hvalid, Except.ok.injEq]
    exact ⟨fun h => ⟨hvalid, h.symm⟩, fun h => h.2.symm⟩
  · rw [outputPath_of_not_isValid hvalid]
    exact ⟨nofun, fun h => absurd h.1 hvalid⟩

theorem components_outputPath (h : outputPath output name = .ok path) :
    components path = components output ++ (ClassPath.fileParts name).map .normal := by
  obtain ⟨hvalid, rfl⟩ := outputPath_eq_ok_iff.1 h
  have hnames := ClassPath.ofPart?_of_isValid hvalid
  rw [Path.components_join (Path.start_of_names hnames), ClassPath.components_fileName hvalid]

/-- The path is found in its parent by its last part, which is a name. -/
theorem ofPart?_fileName_outputPath (h : outputPath output name = .ok path) :
    Component.ofPart? (Path.fileName path) = some (.normal (Path.fileName path)) := by
  obtain ⟨hvalid, rfl⟩ := outputPath_eq_ok_iff.1 h
  rw [Path.fileName_join]
  refine ClassPath.ofPart?_of_isValid hvalid _ ?_
  rw [Path.fileName_eq_getLastD, List.getLastD_eq_getLast?, List.getLast?_eq_some_getLast (Path.parts_ne_nil _)]
  exact List.getLast_mem _

theorem components_parent_outputPath (h : outputPath output name = .ok path) :
    components (Path.parent path) = components output ++ (ClassPath.fileParts name).dropLast.map .normal := by
  have hparent := Path.components_parent (ofPart?_fileName_outputPath h)
  have hdrop := congrArg List.dropLast (hparent.symm.trans (components_outputPath h))
  rw [List.dropLast_concat, List.dropLast_append_of_ne_nil] at hdrop
  · rw [hdrop, List.map_dropLast]
  · simp [ClassPath.fileParts]

/-! ## Confining -/

/-- The location of the file for a class with a valid name, from where the output directory is. -/
def ClassLocation (output : String) (location : List String) : Prop :=
  ∃ base name, follow [] (components output) = some base ∧ BinaryName.IsValid name ∧
    location = base ++ ClassPath.fileParts name

/-- A directory on the way to the output directory, or from there to the file for a class with a valid name. -/
def OnWayToClass (output : String) (location : List String) : Prop :=
  ∃ name, BinaryName.IsValid name ∧
    OnWay [] (components output ++ (ClassPath.fileParts name).dropLast.map .normal) location

theorem onlyWrites_save (h : outputPath output name = .ok path) (contents : Bytes) :
    OnlyWrites (ClassLocation output) (OnWayToClass output) (FileAccess.save path contents) := by
  have hvalid := (outputPath_eq_ok_iff.1 h).1
  refine fun tree => (FileTree.writesOnly_save (ofPart?_fileName_outputPath h) contents tree).mono ?_ ?_
  · intro location hfollow
    rw [components_outputPath h, FileTree.follow_append] at hfollow
    obtain ⟨base, hbase, hlocation⟩ := Option.bind_eq_some_iff.1 hfollow
    rw [FileTree.follow_names, Option.some.injEq] at hlocation
    exact ⟨base, name, hbase, hvalid, hlocation.symm⟩
  · intro location hway
    exact ⟨name, hvalid, components_parent_outputPath h ▸ hway⟩

variable {files directories : List String → Prop}

theorem onlyWrites_readLines (file : String) : OnlyWrites files directories (Policy.readLines file) := by
  refine (OnlyWrites.readText file).bind fun read => ?_
  cases read <;> exact .pure _

theorem onlyWrites_load (directory : String) : OnlyWrites files directories (Policy.load directory) := by
  refine (onlyWrites_readLines _).bind fun allowed => ?_
  cases allowed with
  | error fault => exact .pure _
  | ok allowed =>
    refine (onlyWrites_readLines _).bind fun disallowed => ?_
    cases disallowed <;> exact .pure _

theorem onlyWrites_resolver (request : SandboxRequest) (mode : ViolationMode) (silenced : Bool) :
    OnlyWrites files directories (resolver request mode silenced) := by
  unfold resolver
  split
  · exact .pure _
  · refine (onlyWrites_load _).bind fun policy => ?_
    cases policy <;> exact .pure _

theorem onlyWrites_inputFiles (inputs : List String) : OnlyWrites files directories (inputFiles inputs) := by
  refine (OnlyWrites.mapM (fun input => ?_) inputs).bind fun _ => .pure _
  refine (OnlyWrites.isDirectory input).bind fun isDirectory => ?_
  cases isDirectory
  · exact .pure _
  · exact .classFiles input

/-- A class is saved if it has a path, and otherwise nothing is written. -/
theorem onlyWrites_confineFile (r : Resolver) (output file : String) :
    OnlyWrites (ClassLocation output) (OnWayToClass output) (confineFile r output file) := by
  unfold confineFile
  refine (OnlyWrites.readFile file).bind fun read => ?_
  cases read with
  | error error => exact .pure _
  | ok bytes =>
    dsimp only
    cases ClassFile.parse bytes with
    | error fault => exact .pure _
    | ok parsed =>
      dsimp only
      obtain ⟨result, findings⟩ := (r.confine parsed).run.run .none
      dsimp only
      cases result with
      | error fault => exact .pure _
      | ok confined =>
        dsimp only
        cases confined.thisName with
        | error fault => exact .pure _
        | ok name =>
          dsimp only
          split
          · exact .pure _
          · exact .pure _
          · next hpath _ =>
            refine (onlyWrites_save hpath _).bind fun saved => ?_
            cases saved <;> exact .pure _

theorem onlyWrites_confine (request : ConfineRequest) :
    OnlyWrites (ClassLocation request.output) (OnWayToClass request.output) (confine request) := by
  unfold confine
  refine (onlyWrites_resolver _ _ _).bind fun result => ?_
  cases result with
  | error fault => exact .pure _
  | ok r =>
    refine (onlyWrites_inputFiles _).bind fun files => ?_
    split
    · exact .pure _
    · refine (OnlyWrites.mapM (fun share => ?_) _).bind fun work => .pure _
      exact .mapM (fun file => (onlyWrites_confineFile r request.output file).bind fun _ => .pure _) share

/-- Classes are saved below the output directory only. -/
structure StaysBelow (output : String) : Prop where
  /-- The classes with a path are those with a valid name. -/
  accepted : ∀ name, (∃ path, outputPath output name = .ok path) ↔ BinaryName.IsValid name
  refused : ∀ name, ¬ BinaryName.IsValid name → outputPath output name = .error (.unsafeName name)
  /-- Behind the output directory, the path has the segments of the name and nothing else. -/
  below : ∀ name path, outputPath output name = .ok path →
    components path = components output ++ (ClassPath.fileParts name).map .normal
  /-- Paths are told apart by their components. -/
  distinct : ∀ name name' path path', outputPath output name = .ok path → outputPath output name' = .ok path' →
    name ≠ name' → components path ≠ components path'
  /-- Nothing else in the tree of files is written. -/
  written : ∀ request : ConfineRequest, request.output = output →
    OnlyWrites (ClassLocation output) (OnWayToClass output) (confine request)

theorem staysBelow (output : String) : StaysBelow output where
  accepted name := ⟨fun ⟨_, h⟩ => (outputPath_eq_ok_iff.1 h).1, fun h => ⟨_, outputPath_of_isValid h output⟩⟩
  refused name hinvalid := outputPath_of_not_isValid hinvalid output
  below name path := components_outputPath
  distinct := by
    intro name name' path path' h h' hne heq
    rw [components_outputPath h, components_outputPath h', List.append_right_inj] at heq
    exact hne (ClassPath.fileParts_injective ((List.map_inj_right fun _ _ => Component.normal.inj).1 heq))
  written request := by
    rintro rfl
    exact onlyWrites_confine request

/-- A nested class is saved behind all of the output directory. A name that goes up three times is refused. -/
theorem staysBelow_nested :
    StaysBelow "out/a/b" ∧
      components "out/a/b/team1/Player$Inner.class" =
        [.normal "out", .normal "a", .normal "b", .normal "team1", .normal "Player$Inner.class"] ∧
      outputPath "out/a/b" "team1/../../../escaped" = .error (.unsafeName "team1/../../../escaped") := by
  have h := staysBelow "out/a/b"
  have hpath : outputPath "out/a/b" "team1/Player$Inner" = .ok "out/a/b/team1/Player$Inner.class" := by decide
  exact ⟨h, (h.below _ _ hpath).trans (by decide), h.refused _ (by decide)⟩

end Command

end ClassSandbox
