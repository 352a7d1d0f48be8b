import Mathlib.Algebra.BigOperators.Group.Multiset.Basic
import ServerDiscovery.Discovery.FanOut
import ServerDiscovery.Proofs.Discovery.Collection

/-! # The tasks of a discovery

A discovery spawns a task for each directory, and the task of a directory one for each server on its
list.  Tasks run at the same time, hold a sink each, and are waited for by the one that spawned
them; the discovery waits for the set when no directory is left.  What the tasks will find is fixed
in the reports that they start from, but not when they find it (`Search.Step`).

What matters of a task to all others is its `Load`: the sinks that it holds, the records that it has
yet to insert and the steps that it can yet make.  Loads add up, and `Moves` says what a step does
to the load of its task and to the collection, whatever the other tasks are (`Moves.frame`).  So
each kind of task is looked at by itself.  The invariant `Search.Sound` and the two halves of
termination, `Search.wellFounded_step` and `Search.Sound.exists_step`, are put together from these.
-/

namespace ServerDiscovery

open Discovery

/-! ## 1. Tasks -/

/-- The task that asks a server for its record. -/
inductive ServerTask where
  /-- It waits for the outcome of its query. -/
  | asking (server : SocketAddress) (outcome : Except Error ServerInfo)
  /-- It waits for room in the channel. -/
  | inserting (info : ServerInfo)
  /-- It has not dropped its sink yet. -/
  | done

/-- A step of the task of a server. -/
inductive ServerTask.Step : ServerTask → Collection → ServerTask → Collection → Prop
  | answered {server : SocketAddress} {info : ServerInfo} {c : Collection} :
      Step (.asking server (.ok info)) c (.inserting info) c
  | unanswered {server : SocketAddress} {e : Error} {c : Collection} :
      Step (.asking server (.error e)) c .done c
  | insert {info : ServerInfo} {c next : Collection} (inserted : c.Insert info next) :
      Step (.inserting info) c .done next

/-- The task that asks a directory for its list, and then waits for the tasks of the servers. -/
inductive DirectoryTask where
  /-- It waits for what comes of its query, and will come of the servers that it lists. -/
  | asking (report : DirectoryReport)
  /-- It spawns the tasks of the servers one by one, and waits for those that it spawned. -/
  | joining (unspawned : List (SocketAddress × Except Error ServerInfo))
      (servers : Multiset ServerTask)

/-- The servers of a report.  A directory that failed lists none, so its task has nothing to wait
for. -/
def listedIn : DirectoryReport → List (SocketAddress × Except Error ServerInfo)
  | .ok listed => listed
  | .error _ => []

/-- A step of the task of a directory, or of one that it spawned. -/
inductive DirectoryTask.Step : DirectoryTask → Collection → DirectoryTask → Collection → Prop
  | answered {report : DirectoryReport} {c : Collection} :
      Step (.asking report) c (.joining (listedIn report) 0) c
  | spawn {server : SocketAddress} {outcome : Except Error ServerInfo}
      {unspawned : List (SocketAddress × Except Error ServerInfo)} {servers : Multiset ServerTask}
      {c : Collection} :
      Step (.joining ((server, outcome) :: unspawned) servers) c
        (.joining unspawned (.asking server outcome ::ₘ servers)) c.share
  | server {unspawned : List (SocketAddress × Except Error ServerInfo)}
      {servers : Multiset ServerTask} {task next : ServerTask} {c d : Collection}
      (step : task.Step c next d) :
      Step (.joining unspawned (task ::ₘ servers)) c (.joining unspawned (next ::ₘ servers)) d
  | join {unspawned : List (SocketAddress × Except Error ServerInfo)}
      {servers : Multiset ServerTask} {c : Collection} :
      Step (.joining unspawned (.done ::ₘ servers)) c (.joining unspawned servers) c.release

/-- There are no tasks, or there is one among others. -/
theorem eq_zero_or_exists_cons {α : Type*} (tasks : Multiset α) :
    tasks = 0 ∨ ∃ task others, tasks = task ::ₘ others :=
  tasks.empty_or_exists_mem.imp_right fun ⟨task, h⟩ => ⟨task, Multiset.exists_cons_of_mem h⟩

/-- The task of a directory is done, or it can go on while the channel is open and empty. -/
theorem DirectoryTask.exists_step {c : Collection} (task : DirectoryTask)
    (opened : c.closed = false) (empty : c.collector.channel = []) :
    task = .joining [] 0 ∨ ∃ next d, task.Step c next d := by
  rcases task with report | ⟨_ | ⟨⟨server, outcome⟩, unspawned⟩, servers⟩
  · exact .inr ⟨_, _, .answered⟩
  · obtain rfl | ⟨task, others, rfl⟩ := eq_zero_or_exists_cons servers
    · exact .inl rfl
    · have hroom := Collector.hasRoom_of_channel_eq_nil empty
      rcases task with ⟨server, e | info⟩ | info | _
      · exact .inr ⟨_, _, .server .unanswered⟩
      · exact .inr ⟨_, _, .server .answered⟩
      · exact .inr ⟨_, _, .server (.insert (.enter opened hroom))⟩
      · exact .inr ⟨_, _, .join⟩
  · exact .inr ⟨_, _, .spawn⟩

/-- A discovery with its tasks. -/
structure Search where
  /-- What will come of the directories without a task. -/
  unspawned : List DirectoryReport
  directories : Multiset DirectoryTask
  collection : Collection

/-- No directory has a task. -/
def Search.start (reports : List DirectoryReport) : Search := ⟨reports, 0, .start⟩

/-- A step of a discovery, of one of its tasks or of the collector. -/
inductive Search.Step : Search → Search → Prop
  | spawn {report : DirectoryReport} {unspawned : List DirectoryReport}
      {directories : Multiset DirectoryTask} {c : Collection} :
      Step ⟨report :: unspawned, directories, c⟩
        ⟨unspawned, .asking report ::ₘ directories, c.share⟩
  | directory {unspawned : List DirectoryReport} {directories : Multiset DirectoryTask}
      {task next : DirectoryTask} {c d : Collection} (step : task.Step c next d) :
      Step ⟨unspawned, task ::ₘ directories, c⟩ ⟨unspawned, next ::ₘ directories, d⟩
  | join {unspawned : List DirectoryReport} {directories : Multiset DirectoryTask}
      {c : Collection} :
      Step ⟨unspawned, .joining [] 0 ::ₘ directories, c⟩ ⟨unspawned, directories, c.release⟩
  | finish {c : Collection} (first : c.finishing = false) : Step ⟨[], 0, c⟩ ⟨[], 0, c.finish⟩
  | collect {unspawned : List DirectoryReport} {directories : Multiset DirectoryTask}
      {c d : Collection} (step : c.Step d) :
      Step ⟨unspawned, directories, c⟩ ⟨unspawned, directories, d⟩

/-- The steps in any order. -/
abbrev Search.Reaches : Search → Search → Prop := Relation.ReflTransGen Search.Step

/-! ## 2. Loads -/

/-- What tasks can yet do to a collection. -/
@[ext]
structure Load where
  /-- The number of sinks that they hold. -/
  holders : ℕ
  /-- The records that they will insert. -/
  records : Multiset ServerInfo
  /-- A bound on the number of their steps, and of those that the collector makes for them. -/
  work : ℕ

namespace Load

instance : Zero Load := ⟨⟨0, 0, 0⟩⟩

instance : Add Load := ⟨fun l m => ⟨l.holders + m.holders, l.records + m.records, l.work + m.work⟩⟩

@[simp] theorem holders_zero : (0 : Load).holders = 0 := rfl
@[simp] theorem records_zero : (0 : Load).records = 0 := rfl
@[simp] theorem work_zero : (0 : Load).work = 0 := rfl

variable (l m : Load)

@[simp] theorem holders_add : (l + m).holders = l.holders + m.holders := rfl
@[simp] theorem records_add : (l + m).records = l.records + m.records := rfl
@[simp] theorem work_add : (l + m).work = l.work + m.work := rfl

instance : AddCommMonoid Load where
  add_assoc l m k := by ext1 <;> simp [add_assoc]
  zero_add l := by ext1 <;> simp
  add_zero l := by ext1 <;> simp
  add_comm l m := by ext1 <;> simp [add_comm]
  nsmul := nsmulRec

end Load

/-- An insertion is work for the collector, too. -/
def ServerTask.load : ServerTask → Load
  | .asking server outcome => ⟨1, recordsOf (server, outcome), 4⟩
  | .inserting info => ⟨1, {info}, 3⟩
  | .done => ⟨1, 0, 1⟩

/-- The load of servers without a task. -/
def unspawnedLoad (servers : List (SocketAddress × Except Error ServerInfo)) : Load :=
  (servers.map fun server => ⟨0, recordsOf server, 5⟩).sum

theorem unspawnedLoad_cons (server : SocketAddress × Except Error ServerInfo)
    (servers : List (SocketAddress × Except Error ServerInfo)) :
    unspawnedLoad (server :: servers) = ⟨0, recordsOf server, 5⟩ + unspawnedLoad servers := by
  rw [unspawnedLoad, List.map_cons, List.sum_cons, unspawnedLoad]

/-- The task of a directory answers for the servers on its list, spawned or not. -/
def DirectoryTask.load : DirectoryTask → Load
  | .asking report => ⟨1, 0, 2⟩ + unspawnedLoad (listedIn report)
  | .joining unspawned servers =>
    ⟨1, 0, 1⟩ + unspawnedLoad unspawned + (servers.map ServerTask.load).sum

/-- The load of directories without a task. -/
def reportsLoad (reports : List DirectoryReport) : Load :=
  (reports.map fun report => ⟨0, 0, 3⟩ + unspawnedLoad (listedIn report)).sum

theorem reportsLoad_cons (report : DirectoryReport) (reports : List DirectoryReport) :
    reportsLoad (report :: reports) =
      ⟨0, 0, 3⟩ + unspawnedLoad (listedIn report) + reportsLoad reports := by
  rw [reportsLoad, List.map_cons, List.sum_cons, reportsLoad]

/-- The load of all tasks. -/
def Search.load (s : Search) : Load :=
  reportsLoad s.unspawned + (s.directories.map DirectoryTask.load).sum

/-- What a step of tasks does to their load and to the collection, whatever else there is. -/
structure Moves (before after : Load) (c next : Collection) : Prop where
  -- No record is lost: one that is not to be inserted any more has entered.
  sound : ∀ others, c.Sound (before.holders + others) →
    next.Sound (after.holders + others) ∧
      after.records + next.entered = before.records + (c.entered : Multiset ServerInfo)
  finishing_eq : next.finishing = c.finishing
  work_lt : after.work + next.work < before.work + c.work

variable {before after : Load} {c next : Collection}

/-- Other tasks make no difference. -/
theorem Moves.frame (h : Moves before after c next) (others : Load) :
    Moves (before + others) (after + others) c next where
  sound more hs := by
    rw [Load.holders_add, Nat.add_assoc] at hs
    obtain ⟨hsound, hrecords⟩ := h.sound _ hs
    rw [Load.holders_add, Nat.add_assoc, Load.records_add, Load.records_add, add_right_comm,
      hrecords, add_right_comm]
    exact ⟨hsound, rfl⟩
  finishing_eq := h.finishing_eq
  work_lt := by
    have := h.work_lt
    rw [Load.work_add, Load.work_add]
    omega

/-- A step without a part in the collection. -/
theorem Moves.of_eq (hholders : after.holders = before.holders)
    (hrecords : after.records = before.records) (hwork : after.work < before.work) :
    Moves before after c c where
  sound others hs := by rw [hholders, hrecords]; exact ⟨hs, rfl⟩
  finishing_eq := rfl
  work_lt := Nat.add_lt_add_right hwork _

/-- A task with a sink inserts a record. -/
theorem Moves.insert {info : ServerInfo} (h : c.Insert info next) :
    Moves ⟨1, {info}, 3⟩ ⟨1, 0, 1⟩ c next where
  sound others hs := by
    obtain ⟨rfl, hsound⟩ := hs.insert (Nat.add_pos_left Nat.one_pos _) h
    refine ⟨hsound, ?_⟩
    rw [zero_add, add_comm]
    rfl
  finishing_eq := by cases h <;> rfl
  work_lt := by
    have := h.work_le
    show 1 + next.work < 3 + c.work
    omega

/-- A task with a sink copies it for a new task. -/
theorem Moves.share (records : Multiset ServerInfo) (work : ℕ) :
    Moves (⟨1, 0, 1⟩ + ⟨0, records, work + 1⟩) (⟨1, 0, 1⟩ + ⟨1, records, work⟩) c c.share where
  sound others hs := by
    refine ⟨?_, rfl⟩
    have hs : c.Sound (1 + others) := hs
    show c.share.Sound (1 + 1 + others)
    rw [Nat.add_right_comm]
    exact hs.share (hs.sinks_pos (Nat.add_pos_left Nat.one_pos _))
  finishing_eq := rfl
  work_lt := by
    show 1 + work + c.work < 1 + (work + 1) + c.work
    omega

/-- A task that is done drops its sink. -/
theorem Moves.release : Moves ⟨1, 0, 1⟩ 0 c c.release where
  sound others hs := by
    refine ⟨?_, rfl⟩
    have hs : c.Sound (1 + others) := hs
    rw [Nat.add_comm] at hs
    show c.release.Sound (0 + others)
    rw [Nat.zero_add]
    exact hs.release
  finishing_eq := rfl
  work_lt := by
    show 0 + c.work < 1 + c.work
    omega

/-- The task of a server moves. -/
theorem ServerTask.Step.moves {task after : ServerTask} (h : task.Step c after next) :
    Moves task.load after.load c next := by
  cases h with
  | answered => exact .of_eq rfl rfl (Nat.lt_succ_self 3)
  | unanswered => exact .of_eq rfl rfl (Nat.lt_add_of_pos_left (by decide))
  | insert inserted => exact .insert inserted

/-- The task of a directory, or one that it spawned, moves. -/
theorem DirectoryTask.Step.moves {task after : DirectoryTask} (h : task.Step c after next) :
    Moves task.load after.load c next := by
  cases h with
  | @answered report =>
    have hmoves : Moves ⟨1, 0, 2⟩ ⟨1, 0, 1⟩ c c := .of_eq rfl rfl (Nat.lt_succ_self 1)
    simpa [DirectoryTask.load] using hmoves.frame (unspawnedLoad (listedIn report))
  | @spawn server outcome unspawned servers =>
    have hmoves := (Moves.share (c := c) (recordsOf (server, outcome)) 4).frame
      (unspawnedLoad unspawned + (servers.map ServerTask.load).sum)
    simp only [DirectoryTask.load, unspawnedLoad_cons, Multiset.map_cons, Multiset.sum_cons]
    rw [add_add_add_comm]
    simp only [add_assoc] at hmoves ⊢
    exact hmoves
  | @server unspawned servers _ _ _ _ step =>
    have hmoves := step.moves.frame
      (⟨1, 0, 1⟩ + unspawnedLoad unspawned + (servers.map ServerTask.load).sum)
    simp only [DirectoryTask.load, Multiset.map_cons, Multiset.sum_cons]
    rwa [add_left_comm, add_left_comm _ (ServerTask.load _)]
  | @join unspawned servers =>
    have hmoves := (Moves.release (c := c)).frame
      (⟨1, 0, 1⟩ + unspawnedLoad unspawned + (servers.map ServerTask.load).sum)
    simp only [DirectoryTask.load, Multiset.map_cons, Multiset.sum_cons]
    rw [zero_add] at hmoves
    rwa [add_left_comm]

/-! ## 3. The invariant -/

/-- The records that servers answer with. -/
def answers (reports : List DirectoryReport) : List ServerInfo :=
  (reports.flatMap writersOf).flatten

theorem answers_cons (report : DirectoryReport) (reports : List DirectoryReport) :
    answers (report :: reports) = (writersOf report).flatten ++ answers reports := by
  rw [answers, List.flatMap_cons, List.flatten_append, answers]

theorem writersOf_eq (report : DirectoryReport) :
    writersOf report = (listedIn report).map recordsOf := by
  cases report <;> rfl

theorem unspawnedLoad_eq (servers : List (SocketAddress × Except Error ServerInfo)) :
    (unspawnedLoad servers).holders = 0 ∧
      (unspawnedLoad servers).records = ↑(servers.map recordsOf).flatten := by
  induction servers with
  | nil => exact ⟨rfl, rfl⟩
  | cons server servers ih => simp [unspawnedLoad_cons, ih]

theorem reportsLoad_eq (reports : List DirectoryReport) :
    (reportsLoad reports).holders = 0 ∧ (reportsLoad reports).records = ↑(answers reports) := by
  induction reports with
  | nil => exact ⟨rfl, rfl⟩
  | cons report reports ih =>
    simp [reportsLoad_cons, unspawnedLoad_eq, ih, answers_cons, writersOf_eq]

namespace Search

variable {s next : Search} {reports unspawned : List DirectoryReport} {report : DirectoryReport}
  {directories : Multiset DirectoryTask} {c d : Collection}

/-- The load of a discovery has that of each task in it, and does not depend on the collection. -/
theorem load_cons (task : DirectoryTask) (d : Collection) :
    load ⟨unspawned, task ::ₘ directories, c⟩ = task.load + load ⟨unspawned, directories, d⟩ := by
  simp only [load, Multiset.map_cons, Multiset.sum_cons]
  exact add_left_comm ..

/-- A directory that is spawned keeps its servers, and gets a sink. -/
theorem exists_load_spawn (report : DirectoryReport) (unspawned : List DirectoryReport)
    (directories : Multiset DirectoryTask) (c d : Collection) :
    ∃ others, load ⟨report :: unspawned, directories, c⟩ = ⟨0, 0, 3⟩ + others ∧
      load ⟨unspawned, .asking report ::ₘ directories, d⟩ = ⟨1, 0, 2⟩ + others := by
  refine ⟨unspawnedLoad (listedIn report) + load ⟨unspawned, directories, c⟩, ?_, ?_⟩
  · simp only [load, reportsLoad_cons, add_assoc]
  · rw [load_cons _ c, DirectoryTask.load, add_assoc]

theorem load_start (reports : List DirectoryReport) :
    (start reports).load = reportsLoad reports := by
  rw [load, start, Multiset.map_zero, Multiset.sum_zero, add_zero]

/-- The load of a task at the end of its work is a sink. -/
theorem load_join (d : Collection) :
    load ⟨unspawned, .joining [] 0 ::ₘ directories, c⟩ =
      ⟨1, 0, 1⟩ + load ⟨unspawned, directories, d⟩ := by
  rw [load_cons _ d]
  rfl

/-- What holds at all times. -/
structure Sound (reports : List DirectoryReport) (s : Search) : Prop where
  collection : s.collection.Sound s.load.holders
  records_eq : s.load.records + s.collection.entered = (answers reports : Multiset ServerInfo)
  of_finishing : s.collection.finishing = true → s.unspawned = [] ∧ s.directories = 0

theorem sound_start (reports : List DirectoryReport) : (start reports).Sound reports where
  collection := by
    rw [load_start, (reportsLoad_eq reports).1]
    exact Collection.sound_start
  records_eq := by
    rw [load_start, (reportsLoad_eq reports).2]
    exact add_zero _
  of_finishing h := nomatch h

/-- A step of a task keeps the invariant. -/
theorem Sound.of_moves {rest : Load} {directories' : Multiset DirectoryTask}
    (hs : Sound reports ⟨unspawned, directories, c⟩) (h : Moves before after c d)
    (hbefore : load ⟨unspawned, directories, c⟩ = before + rest)
    (hafter : load ⟨unspawned, directories', d⟩ = after + rest) (hne : directories ≠ 0) :
    Sound reports ⟨unspawned, directories', d⟩ := by
  obtain ⟨hcollection, hrecords, hfinishing⟩ := hs
  rw [hbefore] at hcollection hrecords
  obtain ⟨hsound, heq⟩ := (h.frame rest).sound 0 hcollection
  refine ⟨?_, ?_, fun hover => ?_⟩
  · rw [hafter]
    exact hsound
  · rw [hafter]
    exact heq.trans hrecords
  · rw [h.finishing_eq] at hover
    exact absurd (hfinishing hover).2 hne

/-- There is nothing to spawn any more when the first sink is dropped. -/
theorem Sound.first (hs : Sound reports ⟨report :: unspawned, directories, c⟩) :
    c.finishing = false := by
  rw [← Bool.not_eq_true]
  exact fun hover => List.cons_ne_nil _ _ (hs.of_finishing hover).1

theorem Step.sound (h : s.Step next) (hs : s.Sound reports) : next.Sound reports := by
  cases h with
  | @spawn report unspawned directories c =>
    obtain ⟨others, hbefore, hafter⟩ := exists_load_spawn report unspawned directories c c.share
    have hfirst := hs.first
    obtain ⟨hcollection, hrecords, -⟩ := hs
    -- No task needs to hold a sink here: it is the first one that is copied.
    rw [hbefore] at hcollection hrecords
    have hsinks : 0 < c.collector.sinks := by
      rw [hcollection.sinks_eq, hfirst]
      exact Nat.succ_pos _
    refine ⟨?_, ?_, fun hover => absurd hover (by simp [hfirst])⟩
    · have hshare := hcollection.share hsinks
      simp only [Load.holders_add, Nat.zero_add] at hshare
      simpa only [hafter, Load.holders_add, Nat.add_comm] using hshare
    · rw [hafter]
      exact hrecords
  | @directory unspawned directories task after c d step =>
    exact hs.of_moves step.moves (load_cons task c) (load_cons after c) (Multiset.cons_ne_zero)
  | @join unspawned directories c =>
    exact hs.of_moves .release (load_join c) (zero_add _).symm (Multiset.cons_ne_zero)
  | finish first => exact ⟨hs.collection.finish first, hs.records_eq, fun _ => ⟨rfl, rfl⟩⟩
  | collect step =>
    obtain ⟨hentered, -, hfinishing⟩ := step.frame
    exact ⟨hs.collection.step step, hentered ▸ hs.records_eq, hfinishing ▸ hs.of_finishing⟩

/-- **Every schedule keeps the invariant.** -/
theorem Reaches.sound (h : Reaches (start reports) s) : s.Sound reports := by
  induction h with
  | refl => exact sound_start reports
  | tail _ hstep ih => exact hstep.sound ih

/-- When the set is handed out, every answer is in it. -/
theorem Sound.barrier (hs : s.Sound reports) {set : ServerSet}
    (h : s.collection.returned = some set) :
    s.collection.entered.Perm (answers reports) ∧ set = (kept s.collection.entered).servers := by
  obtain ⟨-, hfinishing, -, -, hset, -⟩ := hs.collection.barrier h
  obtain ⟨hunspawned, hdirectories⟩ := hs.of_finishing hfinishing
  have hload : s.load = 0 := by
    rw [load, hunspawned, hdirectories]
    rfl
  have hrecords := hs.records_eq
  rw [hload, Load.records_zero, zero_add] at hrecords
  exact ⟨Multiset.coe_eq_coe.mp hrecords, hset⟩

/-! ## 4. Termination -/

/-- The work that is left. -/
def work (s : Search) : ℕ := s.load.work + s.collection.work

/-- A step of a task is work done. -/
theorem work_lt_of_moves {rest : Load} {directories' : Multiset DirectoryTask}
    (h : Moves before after c d)
    (hbefore : load ⟨unspawned, directories, c⟩ = before + rest)
    (hafter : load ⟨unspawned, directories', d⟩ = after + rest) :
    work ⟨unspawned, directories', d⟩ < work ⟨unspawned, directories, c⟩ := by
  have hlt := (h.frame rest).work_lt
  rwa [← hbefore, ← hafter] at hlt

theorem Step.work_lt (h : s.Step next) : next.work < s.work := by
  cases h with
  | @spawn report unspawned directories c =>
    obtain ⟨others, hbefore, hafter⟩ := exists_load_spawn report unspawned directories c c.share
    simp only [work, hbefore, hafter, Load.work_add, Collection.work_share]
    omega
  | @directory unspawned directories task after c d step =>
    exact work_lt_of_moves step.moves (load_cons task c) (load_cons after c)
  | @join unspawned directories c =>
    exact work_lt_of_moves .release (load_join c) (zero_add _).symm
  | finish first => exact Nat.add_lt_add_left (Collection.work_finish_lt first) _
  | collect step => exact Nat.add_lt_add_left step.work_lt _

/-- **No schedule goes on for ever.** -/
theorem wellFounded_step : WellFounded fun next s : Search => s.Step next :=
  Subrelation.wf (fun h => Step.work_lt h) (measure work).wf

/-- The discovery can go on, or the set has been handed out. -/
theorem Sound.exists_step (hs : s.Sound reports) (h : s.collection.returned = none) :
    ∃ next, s.Step next := by
  obtain ⟨unspawned, directories, c⟩ := s
  obtain ⟨d, hstep⟩ | ⟨opened, empty, hfirst⟩ := hs.collection.exists_step h
  · exact ⟨_, .collect hstep⟩
  · cases unspawned with
    | cons report unspawned => exact ⟨_, .spawn⟩
    | nil =>
      obtain rfl | ⟨task, others, rfl⟩ := eq_zero_or_exists_cons directories
      · exact ⟨_, .finish (hfirst rfl)⟩
      · obtain rfl | ⟨after, d, hstep⟩ := task.exists_step opened empty
        · exact ⟨_, .join⟩
        · exact ⟨_, .directory hstep⟩

/-- When the set has been handed out, nothing is left to do. -/
theorem Sound.not_step (hs : s.Sound reports) {set : ServerSet}
    (h : s.collection.returned = some set) : ¬ s.Step next := by
  obtain ⟨hclosed, hfinishing, -⟩ := hs.collection.of_returned set h
  obtain ⟨hunspawned, hdirectories⟩ := hs.of_finishing hfinishing
  intro hstep
  cases hstep with
  | spawn => exact List.cons_ne_nil _ _ hunspawned
  | directory => exact Multiset.cons_ne_zero hdirectories
  | join => exact Multiset.cons_ne_zero hdirectories
  | finish first => exact Bool.false_ne_true (first.symm.trans hfinishing)
  | collect step =>
    cases step with
    | receive opened => exact Bool.false_ne_true (opened.symm.trans hclosed)
    | close opened => exact Bool.false_ne_true (opened.symm.trans hclosed)
    | «return» _ _ waiting => exact Option.some_ne_none _ (h.symm.trans waiting)

/-! ## 5. One task after the other -/

/-- A server can be asked alone. -/
theorem exists_reaches_server (hi : c.Idle) (unspawned : List DirectoryReport)
    (directories : Multiset DirectoryTask) (server : SocketAddress)
    (outcome : Except Error ServerInfo) (listed : List (SocketAddress × Except Error ServerInfo)) :
    ∃ d, Reaches ⟨unspawned, .joining ((server, outcome) :: listed) 0 ::ₘ directories, c⟩
        ⟨unspawned, .joining listed 0 ::ₘ directories, d⟩ ∧
      d.Idle ∧ d.entered = c.entered ++ recordsOf (server, outcome) := by
  have hspawn : Step ⟨unspawned, .joining ((server, outcome) :: listed) 0 ::ₘ directories, c⟩
      ⟨unspawned, .joining listed (.asking server outcome ::ₘ 0) ::ₘ directories, c.share⟩ :=
    .directory .spawn
  cases outcome with
  | error e =>
    have hfail := (Relation.ReflTransGen.single hspawn).tail (.directory (.server .unanswered))
    exact ⟨_, hfail.tail (.directory .join), hi.share.release, (List.append_nil _).symm⟩
  | ok info =>
    obtain ⟨mid, d, hinsert, hreceive, hidle, hentered⟩ := hi.share.exists_insert info
    have hanswer := (Relation.ReflTransGen.single hspawn).tail (.directory (.server .answered))
    have henter := hanswer.tail (.directory (.server (.insert hinsert)))
    have hcollect := henter.tail (.collect hreceive)
    exact ⟨_, hcollect.tail (.directory .join), hidle.release, hentered⟩

/-- The servers on a list can be asked in their order. -/
theorem exists_reaches_servers (hi : c.Idle) (unspawned : List DirectoryReport)
    (directories : Multiset DirectoryTask)
    (listed : List (SocketAddress × Except Error ServerInfo)) :
    ∃ d, Reaches ⟨unspawned, .joining listed 0 ::ₘ directories, c⟩
        ⟨unspawned, .joining [] 0 ::ₘ directories, d⟩ ∧
      d.Idle ∧ d.entered = c.entered ++ (listed.map recordsOf).flatten := by
  induction listed generalizing c with
  | nil => exact ⟨c, .refl, hi, (List.append_nil _).symm⟩
  | cons server listed ih =>
    obtain ⟨mid, hmid, hidle, hentered⟩ :=
      exists_reaches_server hi unspawned directories server.1 server.2 listed
    obtain ⟨d, hrest, hidle', hentered'⟩ := ih hidle
    refine ⟨d, hmid.trans hrest, hidle', ?_⟩
    rw [hentered', hentered, List.map_cons, List.flatten_cons, List.append_assoc]

/-- The directories can be asked in their order. -/
theorem exists_reaches_directories (hi : c.Idle) (reports : List DirectoryReport) :
    ∃ d, Reaches ⟨reports, 0, c⟩ ⟨[], 0, d⟩ ∧ d.Idle ∧
      d.entered = c.entered ++ answers reports := by
  induction reports generalizing c with
  | nil => exact ⟨c, .refl, hi, (List.append_nil _).symm⟩
  | cons report reports ih =>
    have hspawn : Step ⟨report :: reports, 0, c⟩ ⟨reports, .asking report ::ₘ 0, c.share⟩ := .spawn
    have hanswer := (Relation.ReflTransGen.single hspawn).tail (.directory .answered)
    obtain ⟨mid, hmid, hidle, hentered⟩ :=
      exists_reaches_servers hi.share reports 0 (listedIn report)
    obtain ⟨d, hrest, hidle', hentered'⟩ := ih hidle.release
    refine ⟨d, ((hanswer.trans hmid).tail .join).trans hrest, hidle', ?_⟩
    have hshare : c.share.entered = c.entered := rfl
    rw [hentered', answers_cons, writersOf_eq, ← List.append_assoc, ← hshare, ← hentered]
    rfl

/-- **One schedule hands out what is collected from the servers in turn.** -/
theorem exists_returned (reports : List DirectoryReport) :
    ∃ s, Reaches (start reports) s ∧ s.collection.returned = some (ofReports reports).servers := by
  obtain ⟨c, hreaches, hidle, hentered⟩ := exists_reaches_directories Collection.idle_start reports
  obtain ⟨closed, last, hclose, hreturn, -, hset⟩ := hidle.exists_returned hreaches.sound.collection
  refine ⟨⟨[], 0, last⟩, ?_, ?_⟩
  · exact ((hreaches.tail (.finish hidle.first)).tail (.collect hclose)).tail (.collect hreturn)
  · rw [hset, hentered]
    exact congrArg some (Collector.collect_eq_kept _).1.symm

end Search

end ServerDiscovery
