import DistributedCompute.TaskIds

/-! Submitting a job, exactly: which tasks `build_map_job` and `build_reduce_job`
leave behind when they raise. Tasks are submitted one by one and nothing is taken
back, so a turn of the loop that raises after the first leaves the tasks before it:
its task_id is taken, or its key is an integer that cannot be formatted. A key with a
`__format__` of its own that raises is not covered. -/
namespace DistributedCompute
open Py Raising

/-- The tasks in `s'` are those in `s`, as they were, and then `tasks`. -/
def Appended (s s' : Scheduler) (tasks : List (TaskId × Task)) : Prop :=
  s'.tasks.entries = s.tasks.entries ++ tasks ∧ s'.workers = s.workers

/-- The task_id that a turn of the loop comes to, if it does not raise before. -/
def requestedId (request : Except PyError Submission) : Option TaskId := request.toOption.map Submission.taskId

/-- The first turn has a free task_id, and a later one has none or a taken one, or one
occurs twice. -/
def LateClash (s : Scheduler) (ids : List (Option TaskId)) : Prop :=
  ∃ first rest, ids = some first :: rest ∧ s.tasks.get? first = none ∧
    ((∃ id ∈ rest, ∀ t, id = some t → s.tasks.get? t ≠ none) ∨ ¬ ids.Nodup)

/-- The tasks that a list of submissions asks for. -/
def tasksOf (submissions : List Submission) : List (TaskId × Task) :=
  submissions.map (fun next => (next.taskId, next.task))

/-- Either every task was submitted or, after a raise, the scheduler is as it was. -/
def AllOrNothing {α : Type} (s : Scheduler) (requests : List (Except PyError Submission))
    (result : Except PyError α × Scheduler) : Prop :=
  (result.1.isOk = true → ∃ done, requests = done.map .ok ∧ Appended s result.2 (tasksOf done)) ∧
  (result.1.isOk = false → result.2 = s)

/-- The tasks before the turn that raised, which was not the first. -/
def Leftover {α : Type} (s : Scheduler) (requests : List (Except PyError Submission))
    (result : Except PyError α × Scheduler) : Prop :=
  result.1.isOk = false ∧ ∃ done request later, requests = done.map .ok ++ request :: later ∧ done ≠ [] ∧
    Appended s result.2 (tasksOf done)

/-- A late clash is what breaks all-or-nothing, and leaves tasks behind. -/
def SubmittedExactly {α : Type} (s : Scheduler) (requests : List (Except PyError Submission))
    (result : Except PyError α × Scheduler) : Prop :=
  (AllOrNothing s requests result ↔ ¬ LateClash s (requests.map requestedId)) ∧
  (LateClash s (requests.map requestedId) → Leftover s requests result)

variable {s s' : Scheduler}

theorem Appended.eq (appended : Appended s s' []) : s' = s := by
  obtain ⟨entries, workers⟩ := appended
  obtain ⟨workers', tasks'⟩ := s'
  have tasks : tasks' = s.tasks := Dict.ext (by simpa using entries)
  rw [tasks, show workers' = s.workers from workers]

theorem Appended.nodup {tasks : List (TaskId × Task)} (appended : Appended s s' tasks) :
    (s.tasks.keys ++ tasks.map Prod.fst).Nodup := by
  have once := s'.tasks.nodup
  rwa [appended.1, List.map_append] at once

theorem submitTask_taken {t taskType : String} {payload : List (Key × Val)} (named : t ≠ "") (typed : taskType ≠ "")
    (held : s.tasks.get? t ≠ none) :
    s.submitTask t taskType payload = (.error (.valueError s!"Task already exists: {t}"), s) := by
  simp [Scheduler.submitTask, named, typed, Dict.contains, Option.isSome_iff_ne_none.mpr held]

section
variable {s : Scheduler} {requests : List (Except PyError Submission)}

/-- The turns up to the first one that raises. -/
theorem submitEach_exact (named : ∀ next, .ok next ∈ requests → next.taskId ≠ "" ∧ next.taskType ≠ "") :
    ∃ done, Appended s (submitEach s requests).2 (tasksOf done) ∧
      ((requests = done.map .ok ∧ (submitEach s requests).1 = .ok (tasksOf done)) ∨
        ∃ request later e, requests = done.map .ok ++ request :: later ∧ (submitEach s requests).1 = .error e ∧
          ∀ t, requestedId request = some t → t ∈ s.tasks.keys ++ done.map Submission.taskId) := by
  induction requests generalizing s with
  | nil => exact ⟨[], ⟨by simp [submitEach, tasksOf], rfl⟩, .inl ⟨rfl, rfl⟩⟩
  | cons request rest ih =>
    cases request with
    | error e =>
      exact ⟨[], ⟨by simp [submitEach, tasksOf], rfl⟩, .inr ⟨_, rest, e, rfl, rfl, fun _ none => by cases none⟩⟩
    | ok first =>
      obtain ⟨nonempty, typed⟩ := named first List.mem_cons_self
      by_cases absent : s.tasks.get? first.taskId = none
      · obtain ⟨done, ⟨entries, workers⟩, outcome⟩ := ih
          (s := { s with tasks := s.tasks.insert first.taskId first.task })
          (fun next member => named next (List.mem_cons_of_mem _ member))
        have inserted : (s.tasks.insert first.taskId first.task).entries =
            s.tasks.entries ++ [(first.taskId, first.task)] := if_neg (Dict.get?_eq_none.mp absent)
        have unfolded : submitEach s (.ok first :: rest) =
            ((submitEach { s with tasks := s.tasks.insert first.taskId first.task } rest).1.map
              ((first.taskId, first.task) :: ·),
            (submitEach { s with tasks := s.tasks.insert first.taskId first.task } rest).2) := by
          rw [submitEach, submitTask_fresh nonempty typed absent]
          rfl
        rw [unfolded]
        refine ⟨first :: done, ⟨by rw [entries, inserted]; simp [tasksOf], workers⟩, ?_⟩
        rcases outcome with ⟨rfl, all⟩ | ⟨request, later, e, rfl, raised, taken⟩
        · exact .inl ⟨rfl, by rw [all]; rfl⟩
        · refine .inr ⟨request, later, e, rfl, by rw [raised]; rfl, fun t asked => ?_⟩
          have known := taken t asked
          rw [Dict.insert_keys_of_absent _ absent] at known
          simpa using known
      · have refused : submitEach s (.ok first :: rest) =
            (.error (.valueError s!"Task already exists: {first.taskId}"), s) := by
          rw [submitEach, submitTask_taken nonempty typed absent]
          rfl
        rw [refused]
        refine ⟨[], ⟨by simp [tasksOf], rfl⟩, .inr ⟨.ok first, rest, _, rfl, rfl, ?_⟩⟩
        rintro t ⟨⟩
        simpa [Dict.get?_eq_none] using absent

theorem fst_tasksOf (submissions : List Submission) :
    (tasksOf submissions).map Prod.fst = submissions.map Submission.taskId := by
  rw [tasksOf, List.map_map]
  rfl

theorem requestedId_ok (done : List Submission) :
    (done.map Except.ok).map requestedId = (done.map Submission.taskId).map some := by
  rw [List.map_map, List.map_map]
  rfl

theorem submitEach_leftover (named : ∀ next, .ok next ∈ requests → next.taskId ≠ "" ∧ next.taskType ≠ "")
    (clash : LateClash s (requests.map requestedId)) : Leftover s requests (submitEach s requests) := by
  obtain ⟨first, rest, ids, free, late⟩ := clash
  obtain ⟨done, appended, ⟨rfl, -⟩ | ⟨request, later, e, rfl, raised, taken⟩⟩ := submitEach_exact (s := s) named
  · -- had all been accepted, no task_id would be missing, taken or there twice
    have once := appended.nodup
    rw [fst_tasksOf, List.nodup_append] at once
    rw [requestedId_ok] at ids late
    rcases late with ⟨id, later, held⟩ | twice
    · obtain ⟨t, member, rfl⟩ := List.mem_map.mp (ids ▸ List.mem_cons_of_mem _ later : id ∈ _)
      have known : t ∈ s.tasks.keys := by
        by_contra unknown
        exact held t rfl (Dict.get?_eq_none.mpr unknown)
      exact absurd rfl (once.2.2 t known t member)
    · exact absurd (once.2.1.map (Option.some_injective _)) twice
  · refine ⟨by rw [raised]; rfl, done, request, later, rfl, ?_, appended⟩
    rintro rfl
    have known := taken first (List.cons.inj ids).1
    rw [List.map_nil, List.append_nil] at known
    exact Dict.get?_eq_none.mp free known

/-- A turn that raises after the first is a late clash. -/
theorem lateClash_of_raise {asked : List TaskId} {id : Option TaskId} {later : List (Option TaskId)}
    (nonempty : asked ≠ []) (once : (s.tasks.keys ++ asked).Nodup)
    (taken : ∀ t, id = some t → t ∈ s.tasks.keys ++ asked) : LateClash s (asked.map some ++ id :: later) := by
  cases asked with
  | nil => exact absurd rfl nonempty
  | cons first others =>
    refine ⟨first, others.map some ++ id :: later, rfl, Dict.get?_eq_none.mpr fun known => ?_, ?_⟩
    · exact absurd rfl ((List.nodup_append.mp once).2.2 first known first List.mem_cons_self)
    · by_cases repeated : ∃ t ∈ first :: others, id = some t
      · obtain ⟨t, member, rfl⟩ := repeated
        refine .inr fun different => ?_
        exact absurd rfl ((List.nodup_append.mp different).2.2 _ (List.mem_map_of_mem member) _ List.mem_cons_self)
      · refine .inl ⟨id, by simp, fun t same free => ?_⟩
        rcases List.mem_append.mp (taken t same) with known | inside
        · exact Dict.get?_eq_none.mp free known
        · exact repeated ⟨t, inside, same⟩

theorem submitEach_allOrNothing (named : ∀ next, .ok next ∈ requests → next.taskId ≠ "" ∧ next.taskType ≠ "") :
    AllOrNothing s requests (submitEach s requests) ↔ ¬ LateClash s (requests.map requestedId) := by
  constructor
  · rintro ⟨-, nothing⟩ clash
    obtain ⟨raised, done, _, _, _, nonempty, entries, -⟩ := submitEach_leftover named clash
    rw [nothing raised] at entries
    exact nonempty (List.map_eq_nil_iff.mp (List.self_eq_append_right.mp entries))
  · intro smooth
    obtain ⟨done, appended, ⟨rfl, all⟩ | ⟨request, later, e, rfl, raised, taken⟩⟩ := submitEach_exact (s := s) named
    · refine ⟨fun _ => ⟨done, rfl, appended⟩, ?_⟩
      intro failed
      rw [all] at failed
      cases failed
    · refine ⟨?_, fun _ => ?_⟩
      · intro returned
        rw [raised] at returned
        cases returned
      · by_cases first : done = []
        · subst first
          exact appended.eq
        · refine absurd ?_ smooth
          have once := appended.nodup
          rw [fst_tasksOf] at once
          rw [List.map_append, requestedId_ok, List.map_cons]
          exact lateClash_of_raise (by simpa using first) once taken

end

/-! ### The two kinds of jobs -/

/-- What `build_map_job` submits: nothing when the operation or the partitioning raises. -/
def mapJob (rt : Runtime) (jobId : String) (operation : ExecutionSpec) (data : List Val) (numPartitions : Int) :
    List Submission :=
  match operationFields rt operation, partition data numPartitions with
  | .ok fields, .ok chunks => mapSubmissions jobId fields chunks
  | _, _ => []

/-- What the loop of `build_reduce_job` goes over. -/
def reduceJob (rt : Runtime) (jobId : String) (grouped : ObjectDict (List Val)) (operation : ExecutionSpec) :
    List (Except PyError Submission) :=
  match operationFields rt operation with
  | .ok fields => grouped.items.map (reduceRequest rt jobId fields)
  | .error _ => []

section
variable {rt : Runtime} {s : Scheduler} {jobId : String} {operation : ExecutionSpec}
variable {fields : List (Key × Val)} {next : Submission} {requests : List (Except PyError Submission)}

theorem named_mapSubmissions {chunks : List (List Val)} (member : next ∈ mapSubmissions jobId fields chunks) :
    next.taskId ≠ "" ∧ next.taskType ≠ "" := by
  obtain ⟨i, _, rfl⟩ := List.mem_mapIdx.mp member
  exact ⟨mapTaskId_ne_empty jobId i, by simp⟩

theorem named_reduceRequest {items : List (Key × List Val)}
    (member : .ok next ∈ items.map (reduceRequest rt jobId fields)) : next.taskId ≠ "" ∧ next.taskType ≠ "" := by
  obtain ⟨item, _, made⟩ := List.mem_map.mp member
  unfold reduceRequest at made
  split at made
  · cases made
  · cases made
    exact ⟨reduceTaskId_ne_empty rt jobId item.1, by simp [reduceSubmission]⟩

theorem submittedExactly_submitEach (named : ∀ next, .ok next ∈ requests → next.taskId ≠ "" ∧ next.taskType ≠ "") :
    SubmittedExactly s requests (submitEach s requests) :=
  ⟨submitEach_allOrNothing named, submitEach_leftover named⟩

theorem submittedExactly_refused {α : Type} (e : PyError) :
    SubmittedExactly s [] ((.error e, s) : Except PyError α × Scheduler) := by
  have smooth : ¬ LateClash s [] := by
    rintro ⟨first, rest, empty, -⟩
    cases empty
  refine ⟨⟨fun _ => smooth, fun _ => ⟨?_, fun _ => rfl⟩⟩, fun clash => absurd clash smooth⟩
  intro returned
  cases returned

/-- What is returned does not matter. -/
theorem SubmittedExactly.map {α β : Type} {result : Except PyError α × Scheduler}
    (before : SubmittedExactly s requests result) (f : α → β) :
    SubmittedExactly s requests (result.1.map f, result.2) := by
  have same : (result.1.map f).isOk = result.1.isOk := by cases result.1 <;> rfl
  simpa only [SubmittedExactly, AllOrNothing, Leftover, same] using before

theorem buildMapJob_exactly (data : List Val) (numPartitions : Int) :
    SubmittedExactly s ((mapJob rt jobId operation data numPartitions).map .ok)
      (buildMapJob rt s jobId operation data numPartitions) := by
  unfold mapJob buildMapJob
  cases chosen : operationFields rt operation with
  | error e => exact submittedExactly_refused e
  | ok fields =>
    cases cut : partition data numPartitions with
    | error e => exact submittedExactly_refused e
    | ok chunks =>
      have exactly : SubmittedExactly s ((mapSubmissions jobId fields chunks).map .ok)
          (submitEach s ((mapSubmissions jobId fields chunks).map .ok)) := by
        refine submittedExactly_submitEach fun next member => ?_
        obtain ⟨_, listed, ⟨⟩⟩ := List.mem_map.mp member
        exact named_mapSubmissions listed
      rwa [submitEach_ok] at exactly

theorem buildReduceJob_exactly (grouped : ObjectDict (List Val)) :
    SubmittedExactly s (reduceJob rt jobId grouped operation) (buildReduceJob rt s jobId grouped operation) := by
  unfold reduceJob buildReduceJob
  cases chosen : operationFields rt operation with
  | error e => exact submittedExactly_refused e
  | ok fields => exact (submittedExactly_submitEach fun _ => named_reduceRequest).map _

end

/-- A worker that is idle, beside a completed task named as the second one of the job. -/
def secondTaken : Scheduler where
  workers := (∅ : WorkerManager).insert "w" ⟨"h", 1, .idle, some 0, 1⟩
  tasks := (∅ : Dict TaskId Task).insert "j-map-1" ⟨"ADD", [], .completed, some "w", 1⟩

end DistributedCompute
