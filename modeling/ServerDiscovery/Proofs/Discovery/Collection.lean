import ServerDiscovery.Proofs.Discovery.Latest

/-! # A collector at work

Whoever holds a sink acts at the same time as the collector.  A `Collection` is a collector with a
record of what went through it, and the operations here are the steps that change it, one at a time.
An insertion waits for room in the channel, and is refused if the channel is closed
(`Collection.Insert`).  The collector takes records out, closes the channel when there is nothing to
wait for, and then hands out the set (`Collection.Step`).

The invariant is `Collection.Sound`, for a number of sinks that are held by others.  It is stated
for that number only, and not for who holds them, so that it serves any system of writers.  It says
that the channel is not closed before its time.  So as long as a sink is held nothing is refused
(`Collection.Sound.insert`), and a set that is handed out is the one of all that was inserted
(`Collection.Sound.barrier`).
-/

namespace ServerDiscovery

/-- A collector, and what went through it. -/
structure Collection where
  collector : Collector
  /-- The records that entered the channel, in order. -/
  entered : List ServerInfo
  /-- The records that found the channel closed. -/
  refused : List ServerInfo
  /-- Whether the collector has stopped to wait for records. -/
  closed : Bool
  /-- Whether the first sink was given up to wait for the set. -/
  finishing : Bool
  /-- The set that was waited for. -/
  returned : Option ServerSet

namespace Collection

/-! ## 1. Steps -/

/-- Nothing was inserted yet. -/
def start : Collection := ⟨.start, [], [], false, false, none⟩

/-- A sink is copied. -/
def share (c : Collection) : Collection := { c with collector := c.collector.addSink }

/-- A sink is dropped. -/
def release (c : Collection) : Collection := { c with collector := c.collector.dropSink }

/-- A record enters the channel. -/
def enter (c : Collection) (info : ServerInfo) : Collection :=
  { c with collector := c.collector.send info, entered := c.entered ++ [info] }

/-- A record is dropped because the channel is closed. -/
def refuse (c : Collection) (info : ServerInfo) : Collection :=
  { c with refused := c.refused ++ [info] }

/-- The first sink is dropped, and its holder waits for the set. -/
def finish (c : Collection) : Collection := { c.release with finishing := true }

/-- What an insertion does. -/
inductive Insert (c : Collection) (info : ServerInfo) : Collection → Prop
  | enter (opened : c.closed = false) (room : c.collector.hasRoom = true) :
      Insert c info (c.enter info)
  | refuse (closed : c.closed = true) : Insert c info (c.refuse info)

/-- What the collector does by itself. -/
inductive Step (c : Collection) : Collection → Prop
  | receive (opened : c.closed = false) (pending : c.collector.channel ≠ []) :
      Step c { c with collector := c.collector.receive }
  | close (opened : c.closed = false) (empty : c.collector.channel = [])
      (unheld : c.collector.sinks = 0) : Step c { c with closed := true }
  | «return» (closed : c.closed = true) (finishing : c.finishing = true)
      (waiting : c.returned = none) : Step c { c with returned := some c.collector.servers }

variable {c next : Collection} {holders : Nat} {info : ServerInfo} {set : ServerSet}

section Fields

variable (c : Collection) (info : ServerInfo)

@[simp] theorem sinks_share : c.share.collector.sinks = c.collector.sinks + 1 := rfl
@[simp] theorem sinks_release : c.release.collector.sinks = c.collector.sinks - 1 := rfl
@[simp] theorem sinks_finish : c.finish.collector.sinks = c.collector.sinks - 1 := rfl
@[simp] theorem finishing_share : c.share.finishing = c.finishing := rfl
@[simp] theorem finishing_release : c.release.finishing = c.finishing := rfl
@[simp] theorem finishing_finish : c.finish.finishing = true := rfl
@[simp] theorem closed_enter : (c.enter info).closed = c.closed := rfl

end Fields

theorem channel_enter (room : c.collector.hasRoom = true) :
    (c.enter info).collector.channel = c.collector.channel ++ [info] := by
  rw [enter, Collector.send_of_hasRoom room]

theorem sinks_enter (room : c.collector.hasRoom = true) :
    (c.enter info).collector.sinks = c.collector.sinks := by
  rw [enter, Collector.send_of_hasRoom room]

/-- The collector leaves all but itself, the channel and the set alone. -/
theorem Step.frame (h : c.Step next) :
    next.entered = c.entered ∧ next.refused = c.refused ∧ next.finishing = c.finishing := by
  cases h <;> exact ⟨rfl, rfl, rfl⟩

/-! ## 2. The invariant -/

/-- What holds at all times, with `holders` sinks besides the first. -/
structure Sound (c : Collection) (holders : Nat) : Prop where
  sinks_eq : c.collector.sinks = holders + if c.finishing then 0 else 1
  holds : c.collector.Holds c.entered
  length_le : c.collector.channel.length ≤ collectorCapacity
  refused_eq : c.refused = []
  of_closed : c.closed = true → c.collector.sinks = 0 ∧ c.collector.channel = []
  of_returned : ∀ set, c.returned = some set →
    c.closed = true ∧ c.finishing = true ∧ set = c.collector.servers

theorem sound_start : start.Sound 0 where
  sinks_eq := rfl
  holds := Collector.holds_start
  length_le := Nat.zero_le _
  refused_eq := rfl
  of_closed h := nomatch h
  of_returned _ h := nomatch h

/-- **The channel is open as long as a sink is held.** -/
theorem Sound.closed_eq_false (hs : c.Sound holders) (h : 0 < c.collector.sinks) :
    c.closed = false := by
  rw [← Bool.not_eq_true]
  exact fun hclosed => h.ne' (hs.of_closed hclosed).1

theorem Sound.sinks_pos (hs : c.Sound holders) (h : 0 < holders) : 0 < c.collector.sinks := by
  rw [hs.sinks_eq]
  omega

theorem Sound.share (hs : c.Sound holders) (h : 0 < c.collector.sinks) :
    c.share.Sound (holders + 1) where
  sinks_eq := by
    rw [sinks_share, finishing_share, hs.sinks_eq, Nat.add_right_comm]
  holds := hs.holds.addSink
  length_le := hs.length_le
  refused_eq := hs.refused_eq
  of_closed hclosed := absurd (hs.of_closed hclosed).1 h.ne'
  of_returned := hs.of_returned

theorem Sound.release (hs : c.Sound (holders + 1)) : c.release.Sound holders where
  sinks_eq := by
    rw [sinks_release, finishing_release, hs.sinks_eq]
    omega
  holds := hs.holds.dropSink
  length_le := hs.length_le
  refused_eq := hs.refused_eq
  of_closed hclosed := absurd (hs.of_closed hclosed).1 (hs.sinks_pos (Nat.succ_pos _)).ne'
  of_returned := hs.of_returned

theorem Sound.finish (hs : c.Sound holders) (h : c.finishing = false) : c.finish.Sound holders where
  sinks_eq := by
    have hsinks := hs.sinks_eq
    rw [h] at hsinks
    simp [hsinks]
  holds := hs.holds.dropSink
  length_le := hs.length_le
  refused_eq := hs.refused_eq
  of_closed hclosed := by
    obtain ⟨hsinks, hchannel⟩ := hs.of_closed hclosed
    exact ⟨by simp [hsinks], hchannel⟩
  of_returned set hset :=
    have ⟨hclosed, _, heq⟩ := hs.of_returned set hset
    ⟨hclosed, rfl, heq⟩

/-- **What is inserted through a sink enters the channel.** -/
theorem Sound.insert (hs : c.Sound holders) (h : 0 < holders) (hi : c.Insert info next) :
    next = c.enter info ∧ next.Sound holders := by
  have hopen := hs.closed_eq_false (hs.sinks_pos h)
  cases hi with
  | refuse closed => exact absurd closed (by simp [hopen])
  | enter _ room =>
    refine ⟨rfl, ?_, hs.holds.send info, ?_, hs.refused_eq, ?_, ?_⟩
    · rw [sinks_enter room]
      exact hs.sinks_eq
    · rw [channel_enter room, List.length_append]
      exact of_decide_eq_true room
    · exact fun hclosed => absurd hclosed (by simp [hopen])
    · exact fun set hset => absurd (hs.of_returned set hset).1 (by simp [hopen])

theorem Sound.step (hs : c.Sound holders) (h : c.Step next) : next.Sound holders := by
  have hwaiting : c.closed = false → ∀ set, c.returned ≠ some set := fun hopen set hset => by
    simp [(hs.of_returned set hset).1] at hopen
  cases h with
  | receive opened pending =>
    obtain ⟨info, rest, hchannel⟩ := List.exists_cons_of_ne_nil pending
    have hreceive := Collector.receive_of_cons hchannel
    refine ⟨?_, hs.holds.receive, ?_, hs.refused_eq, ?_, ?_⟩
    · rw [hreceive]
      exact hs.sinks_eq
    · have hlength := hs.length_le
      rw [hchannel] at hlength
      rw [hreceive]
      exact Nat.le_of_succ_le hlength
    · exact fun hclosed => absurd hclosed (by simp [opened])
    · exact fun set hset => absurd hset (hwaiting opened set)
  | close opened empty unheld =>
    exact ⟨hs.sinks_eq, hs.holds, hs.length_le, hs.refused_eq, fun _ => ⟨unheld, empty⟩,
      fun set hset => absurd hset (hwaiting opened set)⟩
  | «return» closed finishing waiting =>
    exact ⟨hs.sinks_eq, hs.holds, hs.length_le, hs.refused_eq, hs.of_closed,
      fun set hset => ⟨closed, finishing, (Option.some_inj.mp hset).symm⟩⟩

/-- **The set is handed out when no sink is left and all that was inserted is in it.** -/
theorem Sound.barrier (hs : c.Sound holders) (h : c.returned = some set) :
    holders = 0 ∧ c.finishing = true ∧ c.collector.sinks = 0 ∧ c.collector.channel = [] ∧
      set = (kept c.entered).servers ∧ c.collector.counts = (kept c.entered).counts := by
  obtain ⟨hclosed, hfinishing, rfl⟩ := hs.of_returned set h
  obtain ⟨hsinks, hchannel⟩ := hs.of_closed hclosed
  obtain ⟨hservers, hcounts⟩ := hs.holds.of_channel_eq_nil hchannel
  have hholders := hs.sinks_eq
  rw [hsinks] at hholders
  exact ⟨by omega, hfinishing, hsinks, hchannel, hservers, hcounts⟩

/-! ## 3. Progress -/

/-- The collector can go on, or it waits for an insertion or for a sink to be dropped. -/
theorem Sound.exists_step (hs : c.Sound holders) (h : c.returned = none) :
    (∃ next, c.Step next) ∨
      c.closed = false ∧ c.collector.channel = [] ∧ (holders = 0 → c.finishing = false) := by
  cases hclosed : c.closed with
  | true =>
    have hsinks := hs.sinks_eq
    rw [(hs.of_closed hclosed).1] at hsinks
    have hfinishing : c.finishing = true := by
      by_contra hfirst
      simp [hfirst] at hsinks
    exact .inl ⟨_, .return hclosed hfinishing h⟩
  | false =>
    by_cases hchannel : c.collector.channel = []
    · by_cases hsinks : c.collector.sinks = 0
      · exact .inl ⟨_, .close hclosed hchannel hsinks⟩
      · refine .inr ⟨rfl, hchannel, fun hholders => ?_⟩
        by_contra hfinishing
        simp [hs.sinks_eq, hholders, hfinishing] at hsinks
    · exact .inl ⟨_, .receive hclosed hchannel⟩

/-- The number of steps that the collector and the one who waits for it can still make. -/
def work (c : Collection) : Nat :=
  (if c.finishing then 0 else 1) + (if c.closed then 0 else 1)
    + (if c.returned.isNone then 1 else 0) + c.collector.channel.length

@[simp] theorem work_share (c : Collection) : c.share.work = c.work := rfl

theorem work_enter (room : c.collector.hasRoom = true) : (c.enter info).work = c.work + 1 := by
  rw [work, channel_enter room, List.length_append]
  rfl

theorem Insert.work_le (h : c.Insert info next) : next.work ≤ c.work + 1 := by
  cases h with
  | enter opened room => exact (work_enter room).le
  | refuse closed => exact Nat.le_succ _

theorem work_finish_lt (h : c.finishing = false) : c.finish.work < c.work := by
  simp [work, finish, release, Collector.dropSink, h]

theorem Step.work_lt (h : c.Step next) : next.work < c.work := by
  cases h with
  | receive opened pending =>
    obtain ⟨info, rest, hchannel⟩ := List.exists_cons_of_ne_nil pending
    have hreceive : c.collector.receive.channel = rest := by
      rw [Collector.receive_of_cons hchannel]
      rfl
    simp only [work, hreceive, hchannel, List.length_cons]
    omega
  | close opened empty unheld => simp [work, opened]
  | «return» closed finishing waiting => simp [work, waiting]

/-! ## 4. Records one after the other -/

/-- The collector has nothing to do, and can have. -/
structure Idle (c : Collection) : Prop where
  opened : c.closed = false
  empty : c.collector.channel = []
  first : c.finishing = false
  waiting : c.returned = none

theorem idle_start : start.Idle := ⟨rfl, rfl, rfl, rfl⟩

theorem Idle.share (hi : c.Idle) : c.share.Idle := ⟨hi.opened, hi.empty, hi.first, hi.waiting⟩

theorem Idle.release (hi : c.Idle) : c.release.Idle :=
  ⟨hi.opened, hi.empty, hi.first, hi.waiting⟩

/-- An idle collector takes a record in. -/
theorem Idle.exists_insert (hi : c.Idle) (info : ServerInfo) :
    ∃ mid next, c.Insert info mid ∧ mid.Step next ∧ next.Idle ∧
      next.entered = c.entered ++ [info] := by
  have hroom := Collector.hasRoom_of_channel_eq_nil hi.empty
  have hchannel : (c.enter info).collector.channel = [info] := by
    rw [channel_enter hroom, hi.empty, List.nil_append]
  refine ⟨_, _, .enter hi.opened hroom, .receive hi.opened (by simp [hchannel]), ?_, rfl⟩
  refine ⟨hi.opened, ?_, hi.first, hi.waiting⟩
  simp only [Collector.receive_of_cons hchannel]
  rfl

/-- An idle collector hands out its set when the first sink is the only one. -/
theorem Idle.exists_returned (hi : c.Idle) (hs : c.Sound 0) :
    ∃ closed next, c.finish.Step closed ∧ closed.Step next ∧ next.entered = c.entered ∧
      next.returned = some (kept c.entered).servers := by
  have hsinks : c.finish.collector.sinks = 0 := by simp [hs.sinks_eq, hi.first]
  have hservers : c.collector.servers = (kept c.entered).servers :=
    (hs.holds.of_channel_eq_nil hi.empty).1
  exact ⟨_, _, .close hi.opened hi.empty hsinks, .return rfl rfl hi.waiting, rfl,
    congrArg some hservers⟩

end Collection

end ServerDiscovery
