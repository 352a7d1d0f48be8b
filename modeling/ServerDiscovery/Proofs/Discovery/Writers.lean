import Mathlib.Algebra.BigOperators.Fin
import ServerDiscovery.Proofs.Discovery.Collection

/-! # Many writers

Any number of writers insert records into one collection at the same time, and each of them takes,
uses and drops sinks as it likes (`Writing.Step`).  A sink is always the copy of another, so none
can be had any more when the last is gone.

`Writing.Reaches.sound` is the invariant.  What entered the channel is what the writers sent, in
some order; and for an address of a single writer it is what this writer sent, in its order
(`Writing.Sound.of_own`).  The main statement is `Writing.collects_all`: nothing is lost, the set is
handed out when every writer is done, and it is settled by what was sent as far as no two writers
share an address.
-/

namespace ServerDiscovery

/-! ## 1. Writers at work -/

/-- A collection, and what its writers have and did. -/
structure Writing (n : Nat) where
  collection : Collection
  /-- The number of sinks that each writer holds. -/
  held : Fin n → Nat
  /-- The records that each writer inserted, in order. -/
  sent : Fin n → List ServerInfo

variable {n : Nat} {state next : Writing n} {a : SocketAddress} {set : ServerSet}

namespace Writing

/-- No writer has a sink. -/
def start : Writing n := ⟨.start, fun _ => 0, fun _ => []⟩

/-- A step of one of the writers, or of the collector. -/
inductive Step (state : Writing n) : Writing n → Prop
  | share (i : Fin n) (source : 0 < state.collection.collector.sinks) :
      Step state
        ⟨state.collection.share, Function.update state.held i (state.held i + 1), state.sent⟩
  | insert (i : Fin n) (held : 0 < state.held i) {info : ServerInfo} {collection : Collection}
      (inserted : state.collection.Insert info collection) :
      Step state ⟨collection, state.held, Function.update state.sent i (state.sent i ++ [info])⟩
  | release (i : Fin n) (held : 0 < state.held i) :
      Step state
        ⟨state.collection.release, Function.update state.held i (state.held i - 1), state.sent⟩
  | finish (first : state.collection.finishing = false) :
      Step state ⟨state.collection.finish, state.held, state.sent⟩
  | collect {collection : Collection} (step : state.collection.Step collection) :
      Step state ⟨collection, state.held, state.sent⟩

/-- The steps in any order. -/
abbrev Reaches : Writing n → Writing n → Prop := Relation.ReflTransGen Step

/-! ## 2. The invariant -/

/-- No other writer sent a record of the address. -/
def Own (sent : Fin n → List ServerInfo) (i : Fin n) (a : SocketAddress) : Prop :=
  ∀ j, j ≠ i → ∀ info ∈ sent j, info.address ≠ a

/-- What holds at all times. -/
structure Sound (state : Writing n) : Prop where
  collection : state.collection.Sound (∑ i, state.held i)
  -- This alone says nothing of the order in which the records of an address entered.
  entered_eq : (state.collection.entered : Multiset ServerInfo) = ∑ i, ↑(state.sent i)
  of_own : ∀ i a, Own state.sent i a →
    state.collection.entered.filter (·.address = a) = (state.sent i).filter (·.address = a)

/-- A writer that has a sink to drop is counted among the holders. -/
theorem sum_release (held : Fin n → Nat) {i : Fin n} (h : 0 < held i) :
    ∑ j, held j = ∑ j, Function.update held i (held i - 1) j + 1 := by
  have hupdate := sum_update_add (Function.update held i (held i - 1)) i 1
  rw [← hupdate]
  simp [Nat.sub_add_cancel h]

/-- A record that is sent enters at the end, and does no harm to the addresses of others. -/
theorem filter_insert_of_own {sent : Fin n → List ServerInfo} {entered : List ServerInfo}
    {i k : Fin n} {info : ServerInfo}
    (h : ∀ i a, Own sent i a →
      entered.filter (·.address = a) = (sent i).filter (·.address = a))
    (hown : Own (Function.update sent i (sent i ++ [info])) k a) :
    (entered ++ [info]).filter (·.address = a) =
      (Function.update sent i (sent i ++ [info]) k).filter (·.address = a) := by
  have hbefore : Own sent k a := by
    intro j hj other hother
    refine hown j hj other ?_
    by_cases hji : j = i
    · subst hji
      simp [hother]
    · simpa [hji] using hother
  by_cases hki : k = i
  · subst hki
    simp [h k a hbefore]
  -- The record is one of another writer, so its address is another.
  · have hforeign : info.address ≠ a := hown i (Ne.symm hki) info (by simp)
    simp [hki, hforeign, h k a hbefore]

theorem Step.sound (h : state.Step next) (hs : state.Sound) : next.Sound := by
  cases h with
  | share i source =>
    refine ⟨?_, hs.entered_eq, hs.of_own⟩
    rw [sum_update_add]
    exact hs.collection.share source
  | insert i held inserted =>
    have hpos : 0 < ∑ j, state.held j := by
      rw [sum_release state.held held]
      exact Nat.succ_pos _
    obtain ⟨rfl, hcollection⟩ := hs.collection.insert hpos inserted
    refine ⟨hcollection, ?_, fun k a hown => ?_⟩
    · simp only [Function.apply_update fun _ => ((↑) : List ServerInfo → Multiset ServerInfo),
        ← Multiset.coe_add, sum_update_add, ← hs.entered_eq]
      rfl
    · exact filter_insert_of_own hs.of_own hown
  | release i held =>
    refine ⟨?_, hs.entered_eq, hs.of_own⟩
    have hsum := hs.collection
    rw [sum_release state.held held] at hsum
    exact hsum.release
  | finish first => exact ⟨hs.collection.finish first, hs.entered_eq, hs.of_own⟩
  | collect step =>
    obtain ⟨hentered, -⟩ := step.frame
    exact ⟨hs.collection.step step, hentered ▸ hs.entered_eq, hentered ▸ hs.of_own⟩

theorem sound_start : (start : Writing n).Sound where
  collection := by simpa [start] using Collection.sound_start
  entered_eq := by simp [start, Collection.start]
  of_own _ _ _ := rfl

/-- **Every interleaving keeps the invariant.** -/
theorem Reaches.sound (h : Reaches start state) : state.Sound := by
  induction h with
  | refl => exact sound_start
  | tail _ hstep ih => exact hstep.sound ih

/-- What entered the channel is what was sent, in some order. -/
theorem Sound.perm (hs : state.Sound) :
    state.collection.entered.Perm (List.ofFn state.sent).flatten := by
  have hflatten : ∑ i, (state.sent i : Multiset ServerInfo) = ↑(List.ofFn state.sent).flatten := by
    rw [← List.sum_ofFn, ← Multiset.sum_coe, ← Multiset.coe_join, List.map_ofFn]
    rfl
  rw [← Multiset.coe_eq_coe, hs.entered_eq, hflatten]

/-- The latest record of an address of a single writer is its latest. -/
theorem Sound.latest?_of_own (hs : state.Sound) {i : Fin n} (h : Own state.sent i a) :
    latest? a state.collection.entered = latest? a (state.sent i) := by
  rw [latest?, latest?, hs.of_own i a h]

/-! ## 3. Writers in turn -/

/-- A writer with a sink can insert a record. -/
theorem exists_reaches_insert {i : Fin n} (hi : state.collection.Idle) (held : 0 < state.held i)
    (info : ServerInfo) :
    ∃ next, Reaches state next ∧ next.collection.Idle ∧ next.held = state.held ∧
      next.sent = Function.update state.sent i (state.sent i ++ [info]) := by
  obtain ⟨mid, collection, hinsert, hreceive, hidle, -⟩ := hi.exists_insert info
  exact ⟨⟨collection, state.held, _⟩, .tail (.single (.insert i held hinsert)) (.collect hreceive),
    hidle, rfl, rfl⟩

/-- A writer with a sink can insert several records in a row. -/
theorem exists_reaches_inserts {i : Fin n} (hi : state.collection.Idle) (held : 0 < state.held i)
    (records : List ServerInfo) :
    ∃ next, Reaches state next ∧ next.collection.Idle ∧ next.held = state.held ∧
      next.sent = Function.update state.sent i (state.sent i ++ records) := by
  induction records generalizing state with
  | nil => exact ⟨state, .refl, hi, rfl, by simp⟩
  | cons info records ih =>
    obtain ⟨mid, hmid, hidle, hheld, hsent⟩ := exists_reaches_insert hi held info
    obtain ⟨next, hnext, hidle', hheld', hsent'⟩ := ih hidle (hheld ▸ held)
    exact ⟨next, hmid.trans hnext, hidle', hheld'.trans hheld, by simp [hsent', hsent]⟩

/-- A writer can come, insert its records and go. -/
theorem exists_reaches_write (h : Reaches start state) (hi : state.collection.Idle) (i : Fin n)
    (records : List ServerInfo) :
    ∃ next, Reaches start next ∧ next.collection.Idle ∧ next.held = state.held ∧
      next.sent = Function.update state.sent i (state.sent i ++ records) := by
  have hsource : 0 < state.collection.collector.sinks := by
    rw [h.sound.collection.sinks_eq, hi.first]
    exact Nat.succ_pos _
  obtain ⟨shared, hshare, hidle, hheld, hsent⟩ : ∃ shared, Step state shared ∧
      shared.collection.Idle ∧ shared.held = Function.update state.held i (state.held i + 1) ∧
      shared.sent = state.sent := ⟨_, .share i hsource, hi.share, rfl, rfl⟩
  have hpos : 0 < shared.held i := by simp [hheld]
  obtain ⟨last, hlast, hidle', hheld', hsent'⟩ := exists_reaches_inserts hidle hpos records
  rw [← hheld'] at hpos
  exact ⟨_, ((h.tail hshare).trans hlast).tail (.release i hpos), hidle'.release,
    by simp [hheld', hheld], by simp [hsent', hsent]⟩

/-- **Whatever the writers have to send, a set can be handed out.** -/
theorem exists_returned (sent : Fin n → List ServerInfo) :
    ∃ state, Reaches start state ∧ state.sent = sent ∧
      ∃ set, state.collection.returned = some set := by
  -- One writer after the other comes and goes.
  suffices hpart : ∀ done : Finset (Fin n), ∃ state, Reaches start state ∧
      state.collection.Idle ∧ state.held = (fun _ => 0) ∧
      state.sent = fun i => if i ∈ done then sent i else [] by
    obtain ⟨state, hreaches, hidle, hheld, hsent⟩ := hpart Finset.univ
    have hs := hreaches.sound.collection
    simp only [hheld, Finset.sum_const_zero] at hs
    obtain ⟨closed, last, hclose, hreturn, -, hset⟩ := hidle.exists_returned hs
    refine ⟨⟨last, state.held, state.sent⟩, ?_, by simpa using hsent, _, hset⟩
    exact ((hreaches.tail (.finish hidle.first)).tail (.collect hclose)).tail (.collect hreturn)
  intro done
  induction done using Finset.induction_on with
  | empty => exact ⟨start, .refl, Collection.idle_start, rfl, by simp [start]⟩
  | insert i done hnot ih =>
    obtain ⟨state, hreaches, hidle, hheld, hsent⟩ := ih
    obtain ⟨next, hnext, hidle', hheld', hsent'⟩ := exists_reaches_write hreaches hidle i (sent i)
    have hnone : state.sent i = [] := by simp [hsent, hnot]
    refine ⟨next, hnext, hidle', hheld'.trans hheld, ?_⟩
    rw [hsent', hnone, hsent, List.nil_append, update_ite_insert]

/-! ## 4. Everything is collected -/

/-- Addresses of several writers are addresses of one of them. -/
theorem mem_addresses_flatten_iff {sent : Fin n → List ServerInfo} :
    a ∈ (List.ofFn sent).flatten.map (·.address) ↔ ∃ i, a ∈ (sent i).map (·.address) := by
  simp only [List.mem_map, List.mem_flatten, List.mem_ofFn]
  constructor
  · rintro ⟨info, ⟨_, ⟨i, rfl⟩, hinfo⟩, haddress⟩
    exact ⟨i, info, hinfo, haddress⟩
  · rintro ⟨i, info, hinfo, haddress⟩
    exact ⟨info, ⟨_, ⟨i, rfl⟩, hinfo⟩, haddress⟩

/-- The records of an address of a single writer are among its records. -/
theorem filter_flatten_of_own {sent : Fin n → List ServerInfo} {i : Fin n} (h : Own sent i a) :
    (List.ofFn sent).flatten.filter (·.address = a) = (sent i).filter (·.address = a) := by
  induction n with
  | zero => exact i.elim0
  | succ n ih =>
    have hnone : ∀ j, j ≠ i → (sent j).filter (·.address = a) = [] := fun j hj =>
      List.filter_eq_nil_iff.mpr fun info hinfo => by simpa using h j hj info hinfo
    rw [List.ofFn_succ, List.flatten_cons, List.filter_append]
    cases i using Fin.cases with
    | zero =>
      have hrest : (List.ofFn fun j => sent (Fin.succ j)).flatten.filter (·.address = a) = [] := by
        rw [List.filter_flatten, List.map_ofFn, List.flatten_eq_nil_iff, List.forall_mem_ofFn_iff]
        exact fun j => hnone j.succ (Fin.succ_ne_zero j)
      rw [hrest, List.append_nil]
    | succ i =>
      rw [hnone 0 (Fin.succ_ne_zero i).symm, List.nil_append]
      exact ih fun j hj => h j.succ fun heq => hj (Fin.succ_injective _ heq)

/-- **Nothing is lost.**  While a sink is held the channel is open, no record is ever refused, and
what entered the channel is what was sent.  A set is handed out when no sink is left and everything
is in it: one record for each address that was sent, the one that entered last; and each of these
addresses has been counted once.  If no address was sent by two writers, then it is the last record
that its writer sent, and the set is the one that is collected from the writers in turn, whatever
the interleaving was. -/
theorem collects_all (state : Writing n) (h : Reaches start state) :
    (0 < state.collection.collector.sinks → state.collection.closed = false) ∧
    state.collection.refused = [] ∧
    state.collection.entered.Perm (List.ofFn state.sent).flatten ∧
    ∀ set, state.collection.returned = some set →
      (state.collection.collector.sinks = 0 ∧ (∀ i, state.held i = 0) ∧
        state.collection.collector.channel = [] ∧
        set = (kept state.collection.entered).servers) ∧
      (set.records.map (·.address)).Nodup ∧
      (∀ a, a ∈ set.records.map (·.address) ↔ ∃ i, a ∈ (state.sent i).map (·.address)) ∧
      (∀ a, set.get? a = latest? a state.collection.entered) ∧
      (∀ a r, set.get? a = some r → r.address = a) ∧
      (∀ m : Metrics, (m.addAll state.collection.collector.counts).serversDiscovered =
        m.serversDiscovered +
          UInt64.ofNat ((List.ofFn state.sent).flatten.map (·.address)).toFinset.card) ∧
      ((∀ i j, i ≠ j →
          ∀ a ∈ (state.sent i).map (·.address), a ∉ (state.sent j).map (·.address)) →
        (∀ i, ∀ a ∈ (state.sent i).map (·.address), set.get? a = latest? a (state.sent i)) ∧
        set.records.Perm (Collector.collect (List.ofFn state.sent)).servers.records) := by
  have hs := h.sound
  refine ⟨hs.collection.closed_eq_false, hs.collection.refused_eq, hs.perm, fun set hset => ?_⟩
  obtain ⟨hholders, -, hsinks, hchannel, rfl, hcounts⟩ := hs.collection.barrier hset
  have haddresses : ∀ a, a ∈ state.collection.entered.map (·.address) ↔
      a ∈ (List.ofFn state.sent).flatten.map (·.address) := fun a =>
    (hs.perm.map _).mem_iff
  refine ⟨⟨hsinks, ?_, hchannel, rfl⟩, (kept _).servers.distinct, fun a => ?_, get?_kept _,
    fun a r hget => ?_, fun m => ?_, fun hapart => ?_⟩
  · simpa [Finset.sum_eq_zero_iff] using hholders
  · rw [mem_addresses_kept_iff, haddresses, mem_addresses_flatten_iff]
  · rw [get?_kept] at hget
    exact (of_latest?_eq_some hget).2
  · have hset : (state.collection.entered.map (·.address)).toFinset =
        ((List.ofFn state.sent).flatten.map (·.address)).toFinset :=
      Finset.ext fun a => by rw [List.mem_toFinset, List.mem_toFinset, haddresses]
    rw [hcounts, serversDiscovered_kept, hset]
  · have hown : ∀ i, ∀ a ∈ (state.sent i).map (·.address), Own state.sent i a := by
      rintro i a ha j hji info hinfo rfl
      exact hapart i j hji.symm _ ha (List.mem_map_of_mem hinfo)
    refine ⟨fun i a ha => ?_, ServerSet.perm_of_get?_eq fun a => ?_⟩
    · rw [get?_kept, hs.latest?_of_own (hown i a ha)]
    · rw [(Collector.collect_eq_kept _).1, get?_kept, get?_kept]
      by_cases ha : ∃ i, a ∈ (state.sent i).map (·.address)
      · obtain ⟨i, hi⟩ := ha
        rw [hs.latest?_of_own (hown i a hi), latest?, latest?, filter_flatten_of_own (hown i a hi)]
      · have hnone : a ∉ (List.ofFn state.sent).flatten.map (·.address) :=
          fun hmem => ha (mem_addresses_flatten_iff.mp hmem)
        rw [latest?_eq_none_iff.mpr hnone, latest?_eq_none_iff.mpr ((haddresses a).not.mpr hnone)]

/-- A record with an address and a name, and nothing else. -/
def namedRecord (address : SocketAddress) (name : String) : ServerInfo :=
  { (default : ServerInfo) with address, name }

/-- One writer that sends two records of an address, and one that sends one of another. -/
def renamedAndSteady : Fin 2 → List ServerInfo
  | 0 => [namedRecord (.v4 ⟨127, 0, 0, 1⟩ 8303) "old", namedRecord (.v4 ⟨127, 0, 0, 1⟩ 8303) "new"]
  | 1 => [namedRecord (.v4 ⟨127, 0, 0, 1⟩ 8304) "steady"]

/-- The set has two records, one of them the second that the first writer sent. -/
theorem collects_all_renamedAndSteady :
    ∃ state set, Reaches start state ∧ state.sent = renamedAndSteady ∧
      state.collection.returned = some set ∧ set.size = 2 ∧
      set.get? (.v4 ⟨127, 0, 0, 1⟩ 8303) =
        some (namedRecord (.v4 ⟨127, 0, 0, 1⟩ 8303) "new") := by
  obtain ⟨state, hreaches, hsent, set, hset⟩ := exists_returned renamedAndSteady
  obtain ⟨-, -, -, hcollected⟩ := collects_all state hreaches
  obtain ⟨-, -, -, -, -, -, hapart⟩ := hcollected set hset
  rw [hsent] at hapart
  obtain ⟨hlatest, hperm⟩ := hapart (by decide)
  refine ⟨state, set, hreaches, hsent, hset, ?_, ?_⟩
  · rw [ServerSet.size, hperm.length_eq]
    decide
  · rw [hlatest 0 _ (by decide)]
    decide

end Writing

end ServerDiscovery
