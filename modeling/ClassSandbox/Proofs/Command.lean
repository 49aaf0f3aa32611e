import ClassSandbox.Command

/-!
# Shares of the work

The files to confine are cut into shares, one for each worker. The size of a share is computed in machine words, and
the one sum in it does not fit if the number of jobs is close to the end of their range (`shareSize?_eq`). Then the
program breaks off before it has confined anything.

Whatever size the shares have, they are the files in their order (`flatten_shares`), and workers that take their shares
in turn do what one worker does (`mapM_shares`). So a command that does not break off confines one file after another,
with any number of jobs (`confine_eq`). `SharesWork` puts this together.
-/

namespace ClassSandbox.Command

variable {α β : Type} {size : Nat}

/-! ## The size of a share -/

theorem workers_pos (jobs : Nat) : 0 < workers jobs := Nat.lt_of_lt_of_le Nat.one_pos (Nat.le_max_right _ _)

/-- The computation gives the quotient, rounded up, unless its sum does not fit. -/
theorem shareSize?_eq (files jobs : Nat) :
    shareSize? files jobs =
      if files + workers jobs < UInt64.size then some (max ((files + workers jobs - 1) / workers jobs) 1) else none := by
  have hpos := workers_pos jobs
  rw [shareSize?, wordSum?]
  by_cases hfits : files + workers jobs < UInt64.size
  · have hle : 1 ≤ files + workers jobs := Nat.le_trans hpos (Nat.le_add_left _ _)
    rw [if_pos hfits, if_pos hfits, Option.bind_eq_bind, Option.bind_some, wordDifference?, if_pos hle]
    rfl
  · rw [if_neg hfits, if_neg hfits]
    rfl

/-! ## Shares -/

/-- Shares that are large enough are not too many. -/
theorem length_shares_le {count : Nat} {items : List α} (hpos : 0 < size) (h : items.length ≤ size * count) :
    (shares size items).length ≤ count := by
  fun_induction shares size items generalizing count with
  | case1 => exact Nat.zero_le _
  | case2 item rest ih =>
    cases count with
    | zero => cases h
    | succ count =>
      refine Nat.succ_le_succ (ih ?_)
      rw [List.length_cons, Nat.mul_succ] at h
      rw [List.length_drop]
      omega

/-- No worker is without work, and none has more than its share. -/
theorem length_of_mem_shares {items share : List α} (hpos : 0 < size) (h : share ∈ shares size items) :
    0 < share.length ∧ share.length ≤ size := by
  fun_induction shares size items with
  | case1 => cases h
  | case2 item rest ih =>
    rcases List.mem_cons.1 h with rfl | h
    · rw [List.length_cons, List.length_take]
      omega
    · exact ih h

theorem length_shares_le_workers {files : List α} {jobs : Nat} (h : shareSize? files.length jobs = some size) :
    1 ≤ size ∧ (shares size files).length ≤ workers jobs := by
  have hpos := workers_pos jobs
  rw [shareSize?_eq] at h
  split at h
  · obtain rfl := Option.some.inj h
    refine ⟨Nat.le_max_right _ _, length_shares_le (by omega) ?_⟩
    have hquotient := Nat.div_add_mod (files.length + workers jobs - 1) (workers jobs)
    have hrest := Nat.mod_lt (files.length + workers jobs - 1) hpos
    have hmax := Nat.mul_le_mul_left (workers jobs) (Nat.le_max_left
      ((files.length + workers jobs - 1) / workers jobs) 1)
    rw [Nat.mul_comm]
    omega
  · cases h

/-! ## Confining in turn -/

section InTurn

variable {m : Type → Type} [Monad m] [LawfulMonad m]

theorem flatten_mapM (f : α → m β) (lists : List (List α)) :
    List.flatten <$> lists.mapM (fun list => list.mapM f) = lists.flatten.mapM f := by
  induction lists with
  | nil => simp
  | cons list lists ih => simp [List.mapM_append, ← ih]

/-- Workers that take their shares in turn do what one worker does. -/
theorem mapM_shares (f : α → m β) (size : Nat) (items : List α) :
    List.flatten <$> (shares size items).mapM (fun share => share.mapM f) = items.mapM f := by
  rw [flatten_mapM, flatten_shares]

/-- There is one result for each file, and they come in the order of the files. -/
theorem map_fst_mapM_confineEntry [Host m] (r : Resolver) (output : String) (files : List String) :
    List.map Prod.fst <$> files.mapM (confineEntry r output : String → m _) =
      (fun _ => files) <$> files.mapM (confineEntry r output : String → m _) := by
  induction files with
  | nil => simp
  | cons file files ih =>
    have hrest := congrArg (List.cons file <$> ·) ih
    simp only [Functor.map_map] at hrest
    simp only [List.mapM_cons, confineEntry, bind_assoc, pure_bind, map_bind, map_pure, List.map_cons]
    refine bind_congr fun result => ?_
    simpa only [bind_pure_comp, Functor.map_map] using hrest

/-- Confines one file after another, unless the size of a share cannot be computed. -/
def confineInTurn [Host m] (request : ConfineRequest) : m Outcome := do
  let mode := if request.lazy then ViolationMode.lazy else ViolationMode.strict
  match ← resolver request.toSandboxRequest mode request.silent with
  | .error fault => return startupFailure fault.message
  | .ok r =>
    let files ← inputFiles request.inputs
    if files.length + workers request.jobCount < UInt64.size then
      let results ← files.mapM (confineEntry r request.output)
      return summary files.length results
    else
      return brokenOff

/-- The number of jobs makes no difference to what is done, if anything is done. -/
theorem confine_eq [Host m] (request : ConfineRequest) : (confine request : m Outcome) = confineInTurn request := by
  unfold confine confineInTurn
  refine bind_congr fun result => ?_
  cases result with
  | error fault => rfl
  | ok r =>
    refine bind_congr fun files => ?_
    rw [shareSize?_eq]
    by_cases hfits : files.length + workers request.jobCount < UInt64.size
    · rw [if_pos hfits, if_pos hfits, ← mapM_shares (confineEntry r request.output), bind_map_left]
    · rw [if_neg hfits, if_neg hfits]

end InTurn

/-! ## Work -/

/-- What the shares are that a command is cut into, and what it comes to with them. -/
structure SharesWork (request : ConfineRequest) : Prop where
  /-- The size of a share is the quotient, rounded up, or one. There is none just if the sum does not fit into a word. -/
  size (files : Nat) : shareSize? files request.jobCount =
    if files + workers request.jobCount < UInt64.size then
      some (max ((files + workers request.jobCount - 1) / workers request.jobCount) 1)
    else none
  /-- No more workers are needed than there are jobs, each of them has work, and together they have all the files. -/
  shares {files : List String} {size : Nat} : shareSize? files.length request.jobCount = some size →
    1 ≤ size ∧ (shares size files).length ≤ workers request.jobCount ∧ (shares size files).flatten = files ∧
      ∀ share ∈ shares size files, 0 < share.length ∧ share.length ≤ size
  /-- The results of the workers, put together, are one for each file, in the order of the files. -/
  results {m : Type → Type} [Monad m] [LawfulMonad m] [Host m] (r : Resolver) (size : Nat) (files : List String) :
    (fun work => work.flatten.map Prod.fst) <$>
        (Command.shares size files).mapM (fun share => share.mapM (confineEntry r request.output : String → m _)) =
      (fun _ => files) <$> files.mapM (confineEntry r request.output : String → m _)
  /-- What is done, and what is reported, is that each file is confined in its turn, or that the program breaks off
  before the first of them. -/
  inTurn {m : Type → Type} [Monad m] [LawfulMonad m] [Host m] : (confine request : m Outcome) = confineInTurn request

theorem sharesWork (request : ConfineRequest) : SharesWork request where
  size files := shareSize?_eq files request.jobCount
  shares hsize := by
    obtain ⟨hpos, hfew⟩ := length_shares_le_workers hsize
    exact ⟨hpos, hfew, flatten_shares _ _, fun share => length_of_mem_shares hpos⟩
  results r size files := by
    rw [← map_fst_mapM_confineEntry r request.output files, ← mapM_shares _ size files, Functor.map_map]
  inTurn := confine_eq request

/-- A request for the largest number of jobs. -/
def manyJobsRequest : ConfineRequest :=
  ⟨⟨"team1", "p", false⟩, false, false, some 18446744073709551615, "out", ["A.class"]⟩

/-- A file to confine, and a policy that allows nothing. -/
def manyJobsTree : FileTree :=
  ⟨[(["A.class"], .file []), (["p"], .directory), (["p", Policy.allowedFile], .file []),
    (["p", Policy.disallowedFile], .file [])]⟩

/-- With two jobs for three files there are two shares, and with the largest number of jobs there is none even for
one file. -/
theorem sharesWork_twoJobs :
    shareSize? 3 2 = some 2 ∧ shares 2 ["A.class", "B.class", "C.class"] = [["A.class", "B.class"], ["C.class"]] ∧
      (shares 2 ["A.class", "B.class", "C.class"]).length ≤ workers 2 ∧
      (confine manyJobsRequest : StateM FileTree Outcome) = confineInTurn manyJobsRequest ∧
      shareSize? 1 manyJobsRequest.jobCount = none := by
  have hsize : shareSize? ["A.class", "B.class", "C.class"].length 2 = some 2 := by decide
  have hshares := (sharesWork { manyJobsRequest with jobs := some 2 }).shares hsize
  refine ⟨hsize, by simp [shares], hshares.2.1, (sharesWork manyJobsRequest).inTurn, ?_⟩
  rw [(sharesWork manyJobsRequest).size]
  decide

/-- Not every sum fits. Then the program breaks off, although there is a file that it could confine. -/
theorem confine_breaksOff :
    shareSize? 1 manyJobsRequest.jobCount = none ∧
      (inputFiles manyJobsRequest.inputs : StateM FileTree (List String)).run manyJobsTree =
        (["A.class"], manyJobsTree) ∧
      (confine manyJobsRequest : StateM FileTree Outcome).run manyJobsTree = (brokenOff, manyJobsTree) :=
  ⟨by decide, by with_unfolding_all rfl, by with_unfolding_all rfl⟩

end ClassSandbox.Command
